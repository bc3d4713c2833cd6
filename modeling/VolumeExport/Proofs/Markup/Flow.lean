import VolumeExport.Markup.Document

namespace VolumeExport.Markup

def isInk (c : Char) : Bool := c ≠ ' ' && c ≠ '#' && c ≠ '\ufeff' && !endsLine c

theorem isBreak_of_isInk {c : Char} (h : isInk c) : isBreak c = false := by
  simp [isInk, endsLine] at h
  simp [h]

theorem ne_of_isAlphanum {c d : Char} (hc : c.isAlphanum) (hd : d.isAlphanum = false) : c ≠ d := by
  rintro rfl
  cases hc.symm.trans hd

theorem isInk_of_isAlphanum {c : Char} (h : c.isAlphanum) : isInk c := by
  have hne (d : Char) (hd : d.isAlphanum = false) : c ≠ d := ne_of_isAlphanum h hd
  simp (disch := decide) [isInk, endsLine, isEnd, isBreak, hne]

theorem toNat_of_isAlphanum {c : Char} (h : c.isAlphanum) :
    0x30 ≤ c.toNat ∧ c.toNat ≤ 0x7a := by
  have hbounds (low high : Char) (h : low.val ≤ c.val ∧ c.val ≤ high.val) :
      low.toNat ≤ c.toNat ∧ c.toNat ≤ high.toNat :=
    ⟨UInt32.le_iff_toNat_le.1 h.1, UInt32.le_iff_toNat_le.1 h.2⟩
  rcases Bool.or_eq_true_iff.1 h with halpha | hdigit
  · rcases Bool.or_eq_true_iff.1 halpha with hupper | hlower
    · have hcode := hbounds 'A' 'Z' (of_decide_eq_true hupper)
      simp at hcode
      omega
    · have hcode := hbounds 'a' 'z'
        ((Bool.and_eq_true_iff.1 hlower).imp of_decide_eq_true of_decide_eq_true)
      simp at hcode
      omega
  · have hcode := Char.isDigit_iff_toNat.1 hdigit
    simp at hcode
    omega

def IsWord (w : List Char) : Prop := w ≠ [] ∧ ∀ c ∈ w, c.isAlphanum

instance (w : List Char) : Decidable (IsWord w) :=
  decidable_of_iff (w ≠ [] ∧ w.all (·.isAlphanum)) (by simp [IsWord])

namespace Cursor

def on (rest : List Char) (column : Nat) : Cursor := ⟨rest, rest.length, 0, column⟩

variable {c : Char} {cs w : List Char} {n : Nat}

@[simp] theorem head_on : (on (c :: cs) n).head = c := rfl

@[simp] theorem rest_on : (on cs n).rest = cs := rfl

@[simp] theorem left_on : (on cs n).left = cs.length := rfl

@[simp] theorem line_on : (on cs n).line = 0 := rfl

@[simp] theorem column_on : (on cs n).column = n := rfl

theorem next_on (h : isInk c) : (on (c :: cs) n).next = on cs (n + 1) := by
  have hmark : c ≠ '\ufeff' := by
    rintro rfl
    cases h
  simp [on, next, isBreak_of_isInk h, hmark]

theorem advance_on (h : ∀ c ∈ w, isInk c) :
    (on (w ++ cs) n).advance w.length = on cs (n + w.length) := by
  induction w generalizing n with
  | nil => rfl
  | cons c w ih =>
    obtain ⟨hc, hw⟩ := List.forall_mem_cons.1 h
    rw [List.cons_append, List.length_cons, advance, next_on hc, ih hw, Nat.add_assoc,
      Nat.add_comm 1]

theorem span_spaces_on (h : isInk c) : (on (c :: cs) n).span (· = ' ') = ([], on (c :: cs) n) := by
  have hspace : c ≠ ' ' := by
    rintro rfl
    cases h
  simp [span, hspace, advance]

theorem skipSpaces_on (h : isInk c) : (on (c :: cs) n).skipSpaces = on (c :: cs) n :=
  congrArg Prod.snd (span_spaces_on h)

theorem skipSpaces_on_space (h : isInk c) :
    (on (' ' :: c :: cs) n).skipSpaces = on (c :: cs) (n + 1) := by
  have hspace : c ≠ ' ' := by
    rintro rfl
    cases h
  simp [skipSpaces, skip, span, on, hspace, advance, next, isBreak]

theorem skipComment_on (h : isInk c) : (on (c :: cs) n).skipComment = on (c :: cs) n := by
  apply if_neg
  rintro rfl
  cases h

theorem lineBreak_on (h : isInk c) : (on (c :: cs) n).lineBreak = (none, on (c :: cs) n) := by
  have hbreak := isBreak_of_isInk h
  simp only [isBreak, Bool.or_eq_false_iff, decide_eq_false_iff_not] at hbreak
  simp [lineBreak, hbreak]

end Cursor

namespace Token

variable {c : Char} {rest w : List Char}

theorem endsPlain_of_isAlphanum {following : Char} (h : c.isAlphanum) :
    endsPlain true c following = false := by
  have hne (d : Char) (hd : d.isAlphanum = false) : c ≠ d := ne_of_isAlphanum h hd
  simp (disch := decide) [endsPlain, isSpace, isGap, endsLine, isEnd, isBreak, hne]

theorem plainWord_eq (hw : ∀ c ∈ w, c.isAlphanum) (hends : endsPlain true c (rest.headD '\x00'))
    (read : List Char) : plainWord true read (w ++ c :: rest) = read.reverse ++ w := by
  induction w generalizing read with
  | nil => rw [List.nil_append, plainWord, if_pos hends, List.append_nil]
  | cons d w ih =>
    obtain ⟨hd, hw⟩ := List.forall_mem_cons.1 hw
    simp [plainWord, endsPlain_of_isAlphanum hd, ih hw]

theorem held_eq_self (hw : ∀ c ∈ w, c.isAlphanum) : Text.held w = w := by
  induction w with
  | nil => rfl
  | cons c w ih =>
    obtain ⟨hc, hw⟩ := List.forall_mem_cons.1 hw
    have hsmall := toNat_of_isAlphanum hc
    have hhold : Text.hold c.toNat = [c] := by
      have hsurrogate : Text.isSurrogate c.toNat = false := by
        simp [Text.isSurrogate]
        omega
      have hmark : c.toNat ≠ Text.surrogateMark.toNat := by
        have : Text.surrogateMark.toNat = 0xfdd0 := rfl
        omega
      simp [Text.hold, hsurrogate, hmark]
    rw [Text.held, List.flatMap_cons, ← Text.held, ih hw, hhold]
    rfl

theorem plainScalar_on (hw : IsWord w) (hc : isInk c)
    (hends : endsPlain true c (rest.headD '\x00')) (n : Nat) (parent : Int) :
    plainScalar true parent (.on (w ++ c :: rest) n) =
      (.scalar w true, false, .on (c :: rest) (n + w.length)) := by
  have hword : plainWord true [] (w ++ c :: rest) = w := plainWord_eq hw.2 hends []
  have hadvance : (Cursor.on (w ++ c :: rest) n).advance w.length =
      .on (c :: rest) (n + w.length) :=
    Cursor.advance_on fun d hd => isInk_of_isAlphanum (hw.2 d hd)
  have hgap : plainGap (.on (c :: rest) (n + w.length)) =
      ([], false, .on (c :: rest) (n + w.length)) := by
    simp [plainGap, Cursor.span_spaces_on hc, Cursor.lineBreak_on hc]
  have hhead : (Cursor.on (w ++ c :: rest) n).head ≠ '#' := by
    obtain ⟨d, ds, rfl⟩ := List.exists_cons_of_ne_nil hw.1
    exact ne_of_isAlphanum (hw.2 d List.mem_cons_self) (by decide)
  simp [plainScalar, plainWords, hword, hhead, hw.1, hadvance, hgap, held_eq_self hw.2]

end Token

namespace Stream

/-- A stream comes to another one in so many steps, none of which ends it. -/
inductive Steps : Nat → Stream → Stream → Prop
  | done {s} : Steps 0 s s
  | step {n s t u} : s.step = .ok t → t.tokens.head? ≠ some .streamEnd → Steps n t u →
      Steps (n + 1) s u

theorem run_of_step {s t : Stream} (h : s.step = .ok t)
    (hgoes : t.tokens.head? ≠ some .streamEnd) (fuel : Nat) :
    run (fuel + 1) s = run fuel t := by
  rw [run.eq_def]
  simp only [h, if_neg hgoes]

theorem run_of_end {s t : Stream} (h : s.step = .ok t)
    (hends : t.tokens.head? = some .streamEnd) (fuel : Nat) :
    run (fuel + 1) s = t.tokens.reverse := by
  rw [run.eq_def]
  simp only [h, if_pos hends]

theorem run_of_steps {n : Nat} {s t : Stream} (h : Steps n s t) (fuel : Nat) :
    run (fuel + n) s = run fuel t := by
  induction h with
  | done => rfl
  | step hstep hgoes _ ih =>
    rw [← Nat.add_assoc, run_of_step hstep hgoes, ih]

/-- In so many steps a stream comes to one with a property. -/
def Reads (n : Nat) (s : Stream) (goal : Stream → Prop) : Prop := ∃ t, Steps n s t ∧ goal t

theorem Reads.cons {n : Nat} {s t : Stream} {goal : Stream → Prop} (h : s.step = .ok t)
    (hgoes : t.tokens.head? ≠ some .streamEnd) (ht : Reads n t goal) : Reads (n + 1) s goal := by
  obtain ⟨u, hsteps, hu⟩ := ht
  exact ⟨u, .step h hgoes hsteps, hu⟩

theorem Reads.of_step {s t : Stream} {goal : Stream → Prop} (h : s.step = .ok t)
    (hgoes : t.tokens.head? ≠ some .streamEnd) (ht : goal t) : Reads 1 s goal :=
  .cons h hgoes ⟨t, .done, ht⟩

theorem Reads.bind {n m : Nat} {s : Stream} {goal goal' : Stream → Prop} (h : Reads n s goal)
    (hnext : ∀ t, goal t → Reads m t goal') : Reads (n + m) s goal' := by
  obtain ⟨t, hsteps, ht⟩ := h
  have hlater := hnext t ht
  clear ht
  induction hsteps with
  | done => rwa [Nat.zero_add]
  | step hstep hgoes _ ih =>
    obtain ⟨u, hu, hgoal⟩ := ih hlater
    rw [Nat.add_right_comm]
    exact ⟨u, .step hstep hgoes hu, hgoal⟩

theorem dropStale_eq {s : Stream} (h : ∀ p ∈ s.keys, p.2.required = false) :
    s.dropStale = .ok { s with keys := s.keys.filter fun p => !isStale s.cursor p.2 } := by
  apply if_neg
  intro hany
  obtain ⟨p, hp, hstale⟩ := List.any_eq_true.1 hany
  simp [h p hp] at hstale

/-- Keys that are possible only in front of all collections. -/
def Idle (keys : List (Nat × PossibleKey)) : Prop := ∀ p ∈ keys, p.1 = 0 ∧ p.2.required = false

/-- Inside of flow collections on the first line. -/
def Within (rest : List Char) (tokens : List Token) (depth : Nat) (allowed : Bool) (s : Stream) :
    Prop :=
  ∃ n keys, Idle keys ∧
    s = ⟨.on rest (n + 1), tokens, tokens.length, [0], depth + 1, allowed, keys⟩

variable {s : Stream} {c : Char} {b rest w : List Char} {tokens : List Token} {depth : Nat}
  {allowed : Bool} {keys : List (Nat × PossibleKey)}

theorem Idle.lookup (h : Idle keys) : keys.lookup (depth + 1) = none := by
  rw [List.lookup_eq_none_iff]
  intro p hp
  simp [(h p hp).1]

theorem Idle.filter (h : Idle keys) (p : Nat × PossibleKey → Bool) : Idle (keys.filter p) :=
  fun k hk => h k (List.mem_filter.1 hk).1

theorem Within.next (hb : b = [] ∨ b = [' ']) (hc : isInk c)
    (h : Within (b ++ c :: rest) tokens depth allowed s) :
    ∃ t, s.toNextToken.dropStale = .ok t ∧ Within (c :: rest) tokens depth allowed t := by
  have hnext : Within (c :: rest) tokens depth allowed s.toNextToken := by
    obtain ⟨n, keys, hkeys, rfl⟩ := h
    rw [toNextToken, skipBlanks]
    rcases hb with rfl | rfl
    · rw [List.nil_append, Cursor.skipSpaces_on hc, Cursor.skipComment_on hc,
        Cursor.lineBreak_on hc]
      exact ⟨n, keys, hkeys, rfl⟩
    · rw [List.singleton_append, Cursor.skipSpaces_on_space hc, Cursor.skipComment_on hc,
        Cursor.lineBreak_on hc]
      exact ⟨n + 1, keys, hkeys, rfl⟩
  obtain ⟨n, keys, hkeys, heq⟩ := hnext
  rw [heq]
  exact ⟨_, dropStale_eq fun p hp => (hkeys p hp).2, n, _, hkeys.filter _, rfl⟩

theorem Within.comma (hb : b = [] ∨ b = [' '])
    (h : Within (b ++ ',' :: rest) tokens depth allowed s) :
    Reads 1 s (Within rest (.flowEntry :: tokens) depth true) := by
  obtain ⟨u, hu, n, keys, hkeys, rfl⟩ := h.next hb (by decide)
  apply Reads.of_step (t := ⟨.on rest (n + 2), .flowEntry :: tokens, tokens.length + 1, [0],
    depth + 1, true, keys⟩)
  · rw [step, hu]
    simp [bind, Except.bind, unwind, isEnd, Cursor.isRule, flowEntry, dropKey, hkeys.lookup, mark,
      emit]
    rfl
  · simp
  · exact ⟨n + 1, keys, hkeys, rfl⟩

theorem Within.open (hb : b = [] ∨ b = [' '])
    (h : Within (b ++ '\x7b' :: rest) tokens depth false s) :
    Reads 1 s (Within rest (.flowMapping :: tokens) (depth + 1) true) := by
  obtain ⟨u, hu, n, keys, hkeys, rfl⟩ := h.next hb (by decide)
  apply Reads.of_step (t := ⟨.on rest (n + 2), .flowMapping :: tokens, tokens.length + 1, [0],
    depth + 2, true, keys⟩)
  · rw [step, hu]
    simp [bind, Except.bind, unwind, isEnd, Cursor.isRule, openFlow, saveKey, mark, emit]
    rfl
  · simp
  · exact ⟨n + 1, keys, hkeys, rfl⟩

theorem Within.close (hb : b = [] ∨ b = [' '])
    (h : Within (b ++ '\x7d' :: rest) tokens (depth + 1) allowed s) :
    Reads 1 s (Within rest (.flowMappingEnd :: tokens) depth false) := by
  obtain ⟨u, hu, n, keys, hkeys, rfl⟩ := h.next hb (by decide)
  apply Reads.of_step (t := ⟨.on rest (n + 2), .flowMappingEnd :: tokens, tokens.length + 1, [0],
    depth + 1, false, keys⟩)
  · rw [step, hu]
    simp [bind, Except.bind, unwind, isEnd, Cursor.isRule, closeFlow, dropKey, hkeys.lookup, mark,
      emit]
    rfl
  · simp
  · exact ⟨n + 1, keys, hkeys, rfl⟩

def keyAt (count : Nat) (text : List Char) (column : Nat) : PossibleKey :=
  ⟨count, false, text.length, 0, column⟩

theorem plain_on {count n : Nat} (hw : IsWord w) (hc : isInk c)
    (hends : Token.endsPlain true c (rest.headD '\x00')) (hkeys : Idle keys) :
    plain ⟨.on (w ++ c :: rest) n, tokens, count, [0], depth + 1, allowed, keys⟩ =
      .ok ⟨.on (c :: rest) (n + w.length), .scalar w true :: tokens, count + 1, [0], depth + 1,
        false, if allowed then (depth + 1, keyAt count (w ++ c :: rest) n) :: keys else keys⟩ := by
  have hscalar := Token.plainScalar_on hw hc hends n 0
  have hsave : saveKey ⟨.on (w ++ c :: rest) n, tokens, count, [0], depth + 1, allowed, keys⟩ =
      .ok ⟨.on (w ++ c :: rest) n, tokens, count, [0], depth + 1, allowed,
        if allowed then (depth + 1, keyAt count (w ++ c :: rest) n) :: keys else keys⟩ := by
    cases allowed with
    | false => rfl
    | true =>
      simp [saveKey, dropKey, hkeys.lookup, bind, Except.bind, keyAt]
      rfl
  rw [plain, hsave]
  simp only [bind, Except.bind]
  have hflow : decide (depth + 1 ≠ 0) = true := by simp
  have hindent : indent ⟨.on (w ++ c :: rest) n, tokens, count, [0], depth + 1, allowed,
      if allowed then (depth + 1, keyAt count (w ++ c :: rest) n) :: keys else keys⟩ = 0 := rfl
  rw [hflow, hindent, hscalar]
  rfl

theorem Within.step_word (hb : b = [] ∨ b = [' ']) (hw : IsWord w) (hc : isInk c)
    (hends : Token.endsPlain true c (rest.headD '\x00'))
    (h : Within (b ++ (w ++ c :: rest)) tokens depth allowed s) :
    ∃ n keys, Idle keys ∧ s.step =
      .ok ⟨.on (c :: rest) (n + 1 + w.length), .scalar w true :: tokens, tokens.length + 1, [0],
        depth + 1, false,
        if allowed then (depth + 1, keyAt tokens.length (w ++ c :: rest) (n + 1)) :: keys
          else keys⟩ := by
  obtain ⟨d, ds, rfl⟩ := List.exists_cons_of_ne_nil hw.1
  have hd : d.isAlphanum := hw.2 d List.mem_cons_self
  have hne (e : Char) (he : e.isAlphanum = false) : d ≠ e := ne_of_isAlphanum hd he
  obtain ⟨u, hu, n, keys, hkeys, rfl⟩ := h.next hb (isInk_of_isAlphanum hd)
  refine ⟨n, keys, hkeys, ?_⟩
  rw [step, hu, ← plain_on hw hc hends hkeys]
  simp (disch := decide) [bind, Except.bind, unwind, isEnd, Cursor.isRule, startsPlain, isSpace,
    isGap, endsLine, isBreak, hne]

theorem Within.word (hb : b = [] ∨ b = [' ']) (hw : IsWord w) (hc : isInk c)
    (hends : Token.endsPlain true c (rest.headD '\x00'))
    (h : Within (b ++ (w ++ c :: rest)) tokens depth false s) :
    Reads 1 s (Within (c :: rest) (.scalar w true :: tokens) depth false) := by
  obtain ⟨n, keys, hkeys, hstep⟩ := h.step_word hb hw hc hends
  apply Reads.of_step hstep
  · simp
  · exact ⟨n + w.length, keys, hkeys, by rw [Nat.add_right_comm]; rfl⟩

/-- A word in front of a colon turns out to be a key. -/
theorem step_colon (hkeys : Idle keys) (hlength : w.length ≤ maxKeyLength)
    (rest : List Char) (tokens : List Token) (depth n m : Nat) :
    ∃ keys', Idle keys' ∧ step ⟨.on (':' :: ' ' :: rest) (n + 1), .scalar w true :: tokens,
        tokens.length + 1, [0], depth + 1, false,
        (depth + 1, keyAt tokens.length (w ++ ':' :: ' ' :: rest) m) :: keys⟩ =
      .ok ⟨.on (' ' :: rest) (n + 2), .value :: .scalar w true :: .key :: tokens,
        tokens.length + 3, [0], depth + 1, false, keys'⟩ := by
  have hstale : isStale (.on (':' :: ' ' :: rest) (n + 1))
      (keyAt tokens.length (w ++ ':' :: ' ' :: rest) m) = false := by
    simp [isStale, keyAt]
    omega
  have hrequired : ∀ p ∈ (depth + 1, keyAt tokens.length (w ++ ':' :: ' ' :: rest) m) :: keys,
      p.2.required = false := List.forall_mem_cons.2 ⟨rfl, fun p hp => (hkeys p hp).2⟩
  refine ⟨(keys.filter fun p => !isStale (.on (':' :: ' ' :: rest) (n + 1)) p.2).filter
    (·.1 ≠ depth + 1), (hkeys.filter _).filter _, ?_⟩
  rw [step, toNextToken, skipBlanks, Cursor.skipSpaces_on (by decide),
    Cursor.skipComment_on (by decide), Cursor.lineBreak_on (by decide), dropStale_eq hrequired]
  have hbehind :
      tokens.length + 1 - (keyAt tokens.length (w ++ ':' :: ' ' :: rest) m).number = 1 := by
    simp [keyAt]
  simp [bind, Except.bind, hstale, unwind, isEnd, Cursor.isRule, valueMark, insertAt, mark, emit,
    hbehind]
  rfl

/-- A word with a colon behind it is a key. -/
theorem Within.key (hb : b = [] ∨ b = [' ']) (hw : IsWord w)
    (hlength : w.length ≤ maxKeyLength)
    (h : Within (b ++ (w ++ ':' :: ' ' :: rest)) tokens depth true s) :
    Reads 2 s (Within (' ' :: rest) (.value :: .scalar w true :: .key :: tokens) depth false) := by
  obtain ⟨n, keys, hkeys, hstep⟩ := h.step_word (c := ':') hb hw (by decide)
    (by simp [Token.endsPlain, isSpace, isGap])
  apply Reads.cons hstep (by simp)
  obtain ⟨keys', hkeys', hcolon⟩ :=
    step_colon hkeys hlength rest tokens depth (n + w.length) (n + 1)
  rw [Nat.add_right_comm]
  apply Reads.of_step hcolon
  · simp
  · exact ⟨n + w.length + 1, keys', hkeys', rfl⟩

theorem reads_start (rest : List Char) :
    Reads 2 (.start ('-' :: ' ' :: '\x7b' :: rest))
      (Within rest [.flowMapping, .blockEntry, .blockSequence] 0 true) := by
  have hstart : start ('-' :: ' ' :: '\x7b' :: rest) =
      ⟨.on ('-' :: ' ' :: '\x7b' :: rest) 0, [], 0, [], 0, true, []⟩ := rfl
  have hentry : step (.start ('-' :: ' ' :: '\x7b' :: rest)) = .ok ⟨.on (' ' :: '\x7b' :: rest) 1,
      [.blockEntry, .blockSequence], 2, [0], 0, true, []⟩ := by
    rw [hstart, step, toNextToken, skipBlanks, Cursor.skipSpaces_on (by decide),
      Cursor.skipComment_on (by decide), Cursor.lineBreak_on (by decide), dropStale_eq (by simp)]
    simp [bind, Except.bind, unwind, isEnd, Cursor.isRule, Cursor.peek, isSpace, isGap,
      blockEntry, openBlock, indentTo, indent, dropKey, mark, emit]
    rfl
  have hopen : step ⟨.on (' ' :: '\x7b' :: rest) 1, [.blockEntry, .blockSequence], 2, [0], 0, true,
      []⟩ = .ok ⟨.on rest 3, [.flowMapping, .blockEntry, .blockSequence], 3, [0], 1, true,
        [(0, keyAt 2 ('\x7b' :: rest) 2)]⟩ := by
    rw [step, toNextToken, skipBlanks, Cursor.skipSpaces_on_space (by decide),
      Cursor.skipComment_on (by decide), Cursor.lineBreak_on (by decide), dropStale_eq (by simp)]
    simp [bind, Except.bind, unwind, isEnd, Cursor.isRule, openFlow, saveKey, indent, dropKey,
      mark, emit, keyAt]
    rfl
  apply Reads.cons hentry (by simp)
  apply Reads.of_step hopen
  · simp
  · refine ⟨2, _, ?_, rfl⟩
    simp [Idle, keyAt]

theorem dropKey_eq (s : Stream) (hkeys : Idle s.keys) :
    ∃ keys, s.dropKey = .ok { s with keys } := by
  rw [dropKey]
  split
  · next k hk =>
    obtain ⟨before, after, heq, -⟩ := List.lookup_eq_some_iff.1 hk
    rw [(hkeys (s.flow, k) (by simp [heq])).2]
    exact ⟨_, rfl⟩
  · exact ⟨s.keys, rfl⟩

/-- The end of a document closes the sequence that it is. -/
theorem step_end (hkeys : Idle keys) (tokens : List Token) (count column : Nat) (allowed : Bool) :
    ∃ t, step ⟨.on [] column, tokens, count, [0], 0, allowed, keys⟩ = .ok t ∧
      t.tokens = .streamEnd :: .blockEnd :: tokens := by
  have hblanks : skipBlanks 0 1 allowed (.on [] column) = (allowed, .on [] column) := rfl
  obtain ⟨keys', hdrop⟩ := dropKey_eq ⟨.on [] column, .blockEnd :: tokens, count + 1, [], 0,
    allowed, _⟩ (hkeys.filter fun p => !isStale (.on [] column) p.2)
  rw [step, toNextToken]
  simp only [Cursor.left_on, List.length_nil, Nat.zero_add, hblanks]
  rw [dropStale_eq fun p hp => (hkeys p hp).2]
  have hhead : isEnd (Cursor.on [] column).head = true := rfl
  simp [bind, Except.bind, hhead, unwind, boundary, hdrop, pure, Except.pure, emit]

/-- Where the mapping ends, the sequence and the document do. -/
theorem Within.run_end (h : Within ['\x7d'] tokens 0 allowed s) (fuel : Nat) :
    run (fuel + 2) s =
      (.streamEnd :: .blockEnd :: .flowMappingEnd :: tokens : List Token).reverse := by
  obtain ⟨u, hu, n, keys, hkeys, rfl⟩ := h.next (b := []) (.inl rfl) (by decide)
  have hclose : step s = .ok ⟨.on [] (n + 2), .flowMappingEnd :: tokens, tokens.length + 1, [0], 0,
      false, keys⟩ := by
    rw [step, hu]
    simp [bind, Except.bind, unwind, isEnd, Cursor.isRule, closeFlow, dropKey, hkeys.lookup, mark,
      emit]
    rfl
  obtain ⟨t, ht, htokens⟩ := step_end hkeys (.flowMappingEnd :: tokens) (tokens.length + 1)
    (n + 2) false
  rw [run_of_step hclose (by simp), run_of_end ht (by rw [htokens]; rfl), htokens]

end Stream

end VolumeExport.Markup
