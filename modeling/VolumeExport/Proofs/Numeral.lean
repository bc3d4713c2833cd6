import Mathlib.Data.List.TakeWhile
import VolumeExport.Number.Numeral

namespace VolumeExport.Numeral

open Text

variable {base n : Nat} {c : Char} {cs : List Char}

def digitOf (c : Char) : Nat := c.toNat - '0'.toNat

theorem toNat_of_isDigit (h : c.isDigit) : 48 ≤ c.toNat ∧ c.toNat ≤ 57 := by
  simpa using Char.isDigit_iff_toNat.1 h

theorem digitOf_lt (h : c.isDigit) : digitOf c < 10 := by
  have hsmall := toNat_of_isDigit h
  have hvalue : digitOf c = c.toNat - 48 := rfl
  omega

theorem ne_of_isDigit {d : Char} (hc : c.isDigit) (hd : d.isDigit = false) : c ≠ d := by
  rintro rfl
  cases hc.symm.trans hd

theorem digit?_of_isDigit (h : c.isDigit) (base : Nat) :
    digit? base c = if digitOf c < base then some (digitOf c) else none := by
  have hsmall := toNat_of_isDigit h
  have hvalue : digitValue? c = some (digitOf c) := by
    rw [digitValue?, if_pos (by omega), if_pos h]
    rfl
  rw [digit?, hvalue, Option.some_or]
  by_cases hbase : digitOf c < base
  · simp [hbase]
  · simp [Nat.le_of_not_lt hbase, hbase]

theorem moreDigits?_of_isDigit (h : ∀ c ∈ cs, c.isDigit) :
    moreDigits? base cs = some ((cs.takeWhile (digitOf · < base)).map digitOf,
      cs.dropWhile (digitOf · < base)) := by
  induction cs with
  | nil => rfl
  | cons c cs ih =>
    obtain ⟨hc, hcs⟩ := List.forall_mem_cons.1 h
    have hmark : c ≠ '_' := ne_of_isDigit hc (by decide)
    by_cases hbase : digitOf c < base
    · simp [moreDigits?, digit?_of_isDigit hc, hbase, ih hcs]
    · simp [moreDigits?, digit?_of_isDigit hc, hbase]

theorem isBlank_of_isDigit (h : c.isDigit) : isBlank c = false := by
  have hsmall := toNat_of_isDigit h
  simp [isBlank]
  omega

theorem isPadding_of_isDigit (h : c.isDigit) : isPadding c = false := by
  rw [isPadding, isBlank_of_isDigit h, Bool.false_and]

theorem toLower_of_isDigit (h : c.isDigit) : c.toLower = c := by
  have hsmall := toNat_of_isDigit h
  have hupper : ¬('A'.val ≤ c.val ∧ c.val ≤ 'Z'.val) := by
    intro h
    have hlow : 65 ≤ c.toNat := UInt32.le_iff_toNat_le.1 h.1
    omega
  exact dif_neg hupper

theorem afterMark_of_isDigit (h : ∀ c ∈ cs, c.isDigit) : afterMark base cs = cs := by
  match cs with
  | [] => rfl
  | [c] => rfl
  | z :: m :: cs =>
    have hm : m.isDigit := h m (by simp)
    have hbase : baseMark? base ≠ some m := by
      intro heq
      unfold baseMark? at heq
      split at heq <;> cases heq <;> cases hm
    have hmark : ¬(digitValue? z = some 0 ∧ baseMark? base = some m.toLower) := by
      rw [toLower_of_isDigit hm]
      exact fun hmark => hbase hmark.2
    rw [afterMark, if_neg hmark]
    rintro rest rfl
    cases h '_' (by simp)

theorem read_of_isDigit (hne : cs ≠ []) (h : ∀ c ∈ cs, c.isDigit) :
    read base (.ofList cs) = match digits? base cs with
      | none => .error (.malformed base (.ofList cs))
      | some (ds, rest) =>
        if limited base && maxDigits < ds.length then .error (.tooLong ds.length)
        else if !rest.all isPadding then .error (.malformed base (.ofList cs))
        else .ok (ofDigits base ds) := by
  have hmark : afterMark base cs = cs := afterMark_of_isDigit h
  obtain ⟨c, cs, rfl⟩ := List.exists_cons_of_ne_nil hne
  have hc : c.isDigit := h c List.mem_cons_self
  have hdrop : (c :: cs).dropWhile isPadding = c :: cs := by simp [isPadding_of_isDigit hc]
  have hsign : sign (c :: cs) = (false, c :: cs) := by
    rw [sign]
    · rintro _ ⟨⟩
      cases hc
    · rintro _ ⟨⟩
      cases hc
  rw [read, String.toList_ofList, hdrop, hsign]
  simp only [hmark]
  rfl

theorem ofDigits_map : ofDigits base (cs.map digitOf) = Nat.ofDigitChars base cs 0 := by
  simp only [ofDigits, Nat.ofDigitChars_eq_foldl, List.foldl_map, digitOf, Nat.mul_comm base]

theorem read_of_lt (hne : cs ≠ []) (h : ∀ c ∈ cs, c.isDigit)
    (hbase : ∀ c ∈ cs, digitOf c < base) :
    read base (.ofList cs) =
      if limited base && maxDigits < cs.length then .error (.tooLong cs.length)
      else .ok (Nat.ofDigitChars base cs 0) := by
  rw [read_of_isDigit hne h, ← ofDigits_map]
  obtain ⟨c, cs, rfl⟩ := List.exists_cons_of_ne_nil hne
  obtain ⟨hc, hcs⟩ := List.forall_mem_cons.1 h
  obtain ⟨hlt, hlts⟩ := List.forall_mem_cons.1 hbase
  have htake : cs.takeWhile (digitOf · < base) = cs :=
    List.takeWhile_eq_self_iff.2 (by simpa using hlts)
  have hdrop : cs.dropWhile (digitOf · < base) = [] :=
    List.dropWhile_eq_nil_iff.2 (by simpa using hlts)
  simp [digits?, digit?_of_isDigit hc, hlt, moreDigits?_of_isDigit hcs, htake, hdrop]

theorem read_of_le (h : ∀ c ∈ cs, c.isDigit) (hbase : ∃ c ∈ cs, base ≤ digitOf c)
    (hlimited : limited base = false) :
    read base (.ofList cs) = .error (.malformed base (.ofList cs)) := by
  obtain ⟨d, hd, hle⟩ := hbase
  rw [read_of_isDigit (List.ne_nil_of_mem hd) h]
  obtain ⟨c, cs, rfl⟩ := List.exists_cons_of_ne_nil (List.ne_nil_of_mem hd)
  obtain ⟨hc, hcs⟩ := List.forall_mem_cons.1 h
  by_cases hlt : digitOf c < base
  · have hmem : d ∈ cs := by
      rcases List.mem_cons.1 hd with rfl | hmem
      · omega
      · exact hmem
    have hrest : (cs.dropWhile (digitOf · < base)).all isPadding = false := by
      have hne : cs.dropWhile (digitOf · < base) ≠ [] := by
        rw [Ne, List.dropWhile_eq_nil_iff]
        intro hall
        have := hall d hmem
        simp at this
        omega
      obtain ⟨e, es, heq⟩ := List.exists_cons_of_ne_nil hne
      have he : e ∈ cs := (List.dropWhile_suffix _).subset (heq ▸ List.mem_cons_self)
      rw [heq, List.all_cons, isPadding_of_isDigit (hcs e he)]
      rfl
    simp [digits?, digit?_of_isDigit hc, hlt, moreDigits?_of_isDigit hcs, hlimited, hrest]
  · simp [digits?, digit?_of_isDigit hc, hlt]

theorem digitOf_digitChar : ∀ n < 10, digitOf n.digitChar = n := by decide

theorem ofDigitChars_toDigits (hn : 10 ≤ n) (base : Nat) :
    Nat.ofDigitChars base (Nat.toDigits 10 n) 0 =
      base * Nat.ofDigitChars base (Nat.toDigits 10 (n / 10)) 0 + n % 10 := by
  have hdigit : (n % 10).digitChar.toNat - '0'.toNat = n % 10 :=
    digitOf_digitChar _ (Nat.mod_lt _ (by decide))
  rw [Nat.toDigits_of_base_le (by decide) hn, Nat.ofDigitChars_append, Nat.ofDigitChars_cons,
    Nat.ofDigitChars_nil, hdigit]

theorem ofDigitChars_toDigits_of_lt (hn : n < 10) (base : Nat) :
    Nat.ofDigitChars base (Nat.toDigits 10 n) 0 = n := by
  have hdigit : n.digitChar.toNat - '0'.toNat = n := digitOf_digitChar n hn
  rw [Nat.toDigits_of_lt_base hn, Nat.ofDigitChars_cons, Nat.ofDigitChars_nil, hdigit,
    Nat.mul_zero, Nat.zero_add]

theorem ofDigitChars_toDigits_le (hbase : base < 10) (n : Nat) :
    Nat.ofDigitChars base (Nat.toDigits 10 n) 0 ≤ n := by
  induction n using Nat.strongRecOn with
  | ind n ih =>
    by_cases hn : n < 10
    · exact (ofDigitChars_toDigits_of_lt hn base).le
    · have hscaled : base * Nat.ofDigitChars base (Nat.toDigits 10 (n / 10)) 0 ≤ 10 * (n / 10) :=
        Nat.mul_le_mul hbase.le (ih (n / 10) (by omega))
      rw [ofDigitChars_toDigits (by omega)]
      omega

/-- Two of them at least stand for less. -/
theorem ofDigitChars_toDigits_lt (hbase : base < 10) (hn : 10 ≤ n) :
    Nat.ofDigitChars base (Nat.toDigits 10 n) 0 < n := by
  have hscaled : base * Nat.ofDigitChars base (Nat.toDigits 10 (n / 10)) 0 ≤ 9 * (n / 10) :=
    Nat.mul_le_mul (by omega) (ofDigitChars_toDigits_le hbase (n / 10))
  rw [ofDigitChars_toDigits hn]
  omega

theorem digitChar_digitOf (hc : c.isDigit) : (digitOf c).digitChar = c := by
  have hsmall := toNat_of_isDigit hc
  have hvalue : digitOf c = c.toNat - 48 := rfl
  apply Char.toNat_inj.1
  rw [Nat.toNat_digitChar_of_lt_ten (digitOf_lt hc)]
  omega

theorem toDigits_ofDigitChars (h : ∀ c ∈ cs, c.isDigit) (hn : 0 < n) :
    Nat.toDigits 10 (Nat.ofDigitChars 10 cs n) = Nat.toDigits 10 n ++ cs := by
  induction cs generalizing n with
  | nil => simp
  | cons c cs ih =>
    obtain ⟨hc, hcs⟩ := List.forall_mem_cons.1 h
    have hlt := digitOf_lt hc
    calc Nat.toDigits 10 (Nat.ofDigitChars 10 (c :: cs) n)
      _ = Nat.toDigits 10 (10 * n + digitOf c) ++ cs := by
        rw [Nat.ofDigitChars_cons]
        exact ih hcs (by omega)
      _ = Nat.toDigits 10 n ++ Nat.toDigits 10 (digitOf c) ++ cs := by
        rw [Nat.toDigits_append_toDigits (by decide) hn hlt]
      _ = Nat.toDigits 10 n ++ c :: cs := by
        rw [Nat.toDigits_of_lt_base hlt, digitChar_digitOf hc, List.append_assoc,
          List.singleton_append]

theorem toDigits_of_isDigit (h : ∀ c ∈ cs, c.isDigit) (hne : cs ≠ [])
    (hzero : cs.head? ≠ some '0') :
    Nat.toDigits 10 (Nat.ofDigitChars 10 cs 0) = cs := by
  obtain ⟨c, cs, rfl⟩ := List.exists_cons_of_ne_nil hne
  obtain ⟨hc, hcs⟩ := List.forall_mem_cons.1 h
  have hchar := digitChar_digitOf hc
  have hpos : 0 < digitOf c := by
    rw [Nat.pos_iff_ne_zero]
    intro heq
    rw [heq] at hchar
    exact hzero (congrArg some hchar.symm)
  have hlt := digitOf_lt hc
  have hdigits := toDigits_ofDigitChars hcs hpos
  rw [Nat.toDigits_of_lt_base hlt, hchar] at hdigits
  rw [Nat.ofDigitChars_cons, Nat.mul_zero, Nat.zero_add]
  exact hdigits

theorem toList_toString (n : Nat) : (toString n).toList = Nat.toDigits 10 n := by
  rw [Nat.toString_eq_ofList_toDigits, String.toList_ofList]

theorem length_toString_le_iff {k : Nat} (hk : 0 < k) :
    (toString n).length ≤ k ↔ n < Nat.pow 10 k := by
  rw [← String.length_toList, toList_toString]
  exact Nat.length_toDigits_le_iff (by decide) hk

theorem write_natCast (n : Nat) :
    write n = if (toString n).length ≤ maxDigits then .ok (toString n) else .error .tooLarge := by
  have hwrite : write n = if n < Nat.pow 10 maxDigits then .ok (toString n) else .error .tooLarge :=
    rfl
  simp only [hwrite, length_toString_le_iff (by decide : 0 < maxDigits)]

theorem isDigit_of_mem (h : c ∈ Nat.toDigits 10 n) : c.isDigit :=
  Nat.isDigit_of_mem_toDigits (by decide) (by decide) h

theorem toString_ofDigitChars {d : String} (h : ∀ c ∈ d.toList, c.isDigit) (hne : d.toList ≠ [])
    (hzero : d.toList.head? ≠ some '0') :
    toString (Nat.ofDigitChars 10 d.toList 0) = d := by
  rw [Nat.toString_eq_ofList_toDigits, toDigits_of_isDigit h hne hzero, String.ofList_toList]

theorem digitOf_lt_iff (h : c.isDigit) : digitOf c < 8 ↔ c ≤ '7' := by
  have hsmall := toNat_of_isDigit h
  have hvalue : digitOf c = c.toNat - 48 := rfl
  have hle : c ≤ '7' ↔ c.toNat ≤ 55 := .rfl
  rw [hle]
  omega

def looksOctal (n : Nat) : Bool := (Nat.toDigits 10 n).all (· ≤ '7')

theorem looksOctal_iff {n : Nat} : looksOctal n ↔ ∀ c ∈ Nat.toDigits 10 n, c ≤ '7' := by
  simp [looksOctal]

theorem read_toString (n : Nat) :
    read 8 (toString n) =
      if looksOctal n then .ok (Nat.ofDigitChars 8 (Nat.toDigits 10 n) 0 : Nat)
      else .error (.malformed 8 (toString n)) := by
  have hdigit : ∀ c ∈ Nat.toDigits 10 n, c.isDigit := fun c hc => isDigit_of_mem hc
  rw [Nat.toString_eq_ofList_toDigits]
  split
  · next hall =>
    exact read_of_lt Nat.toDigits_ne_nil hdigit fun c hc =>
      (digitOf_lt_iff (hdigit c hc)).2 (looksOctal_iff.1 hall c hc)
  · next hsome =>
    simp only [looksOctal_iff, not_forall] at hsome
    obtain ⟨c, hc, hle⟩ := hsome
    have hbase : 8 ≤ digitOf c := by
      rwa [← digitOf_lt_iff (hdigit c hc), Nat.not_lt] at hle
    exact read_of_le hdigit ⟨c, hc, hbase⟩ rfl

/-- In base eight they stand for the same if there is one alone. -/
theorem read_toString_eq_iff (n : Nat) : read 8 (toString n) = .ok (n : Int) ↔ n < 8 := by
  rw [read_toString]
  constructor
  · intro h
    split at h
    · next hall =>
      have hvalue : Nat.ofDigitChars 8 (Nat.toDigits 10 n) 0 = n := Int.ofNat.inj (Except.ok.inj h)
      by_contra hn
      by_cases hten : 10 ≤ n
      · exact absurd hvalue (ofDigitChars_toDigits_lt (by decide) hten).ne
      · have hmem : n.digitChar ∈ Nat.toDigits 10 n := by
          rw [Nat.toDigits_of_lt_base (by omega)]
          exact List.mem_singleton_self _
        have hlt := (digitOf_lt_iff (isDigit_of_mem hmem)).2 (looksOctal_iff.1 hall _ hmem)
        rw [digitOf_digitChar n (by omega)] at hlt
        exact hn hlt
    · cases h
  · intro hn
    have hvalue := ofDigitChars_toDigits_of_lt (n := n) (by omega) 8
    have hall : looksOctal n := by
      have hle : ∀ m < 8, m.digitChar ≤ '7' := by decide
      rw [looksOctal_iff, Nat.toDigits_of_lt_base (by omega)]
      simpa using hle n hn
    rw [if_pos hall, hvalue]

variable {ds : List Nat} {rest : List Char} {text : String}

theorem foldl_digits_lt (h : ∀ d ∈ ds, d < base) (n : Nat) :
    ds.foldl (fun n d => n * base + d) n < (n + 1) * Nat.pow base ds.length := by
  induction ds generalizing n with
  | nil => exact Nat.lt_of_lt_of_eq (Nat.lt_succ_self n) (Nat.mul_one _).symm
  | cons d ds ih =>
    obtain ⟨hd, hds⟩ := List.forall_mem_cons.1 h
    have hstep : n * base + d + 1 ≤ (n + 1) * base := by
      rw [Nat.add_one_mul]
      omega
    calc (d :: ds).foldl (fun n d => n * base + d) n
      _ < (n * base + d + 1) * Nat.pow base ds.length := ih hds _
      _ ≤ (n + 1) * base * Nat.pow base ds.length := Nat.mul_le_mul_right _ hstep
      _ = (n + 1) * (Nat.pow base ds.length * base) := by
        rw [Nat.mul_assoc, Nat.mul_comm base]

theorem ofDigits_lt (h : ∀ d ∈ ds, d < base) (hbase : 0 < base) {k : Nat} (hk : ds.length ≤ k) :
    ofDigits base ds < Nat.pow base k := by
  have hlt := foldl_digits_lt h 0
  rw [Nat.zero_add, Nat.one_mul] at hlt
  exact Nat.lt_of_lt_of_le hlt (Nat.pow_le_pow_right hbase hk)

theorem lt_of_digit? {d : Nat} (h : digit? base c = some d) : d < base := by
  rw [digit?, Option.filter_eq_some_iff] at h
  exact of_decide_eq_true h.2

theorem lt_of_moreDigits? (h : moreDigits? base cs = some (ds, rest)) : ∀ d ∈ ds, d < base := by
  fun_induction moreDigits? base cs generalizing ds rest with
  | case1 =>
    cases h
    nofun
  | case2 => cases h
  | case3 c cs ih =>
    simp only [Option.bind_eq_bind, Option.bind_eq_some_iff, Option.pure_def] at h
    obtain ⟨d, hd, ⟨more, rest'⟩, hmore, h⟩ := h
    cases h
    exact List.forall_mem_cons.2 ⟨lt_of_digit? hd, ih hmore⟩
  | case4 c cs _ d hd ih =>
    simp only [Option.bind_eq_bind, Option.bind_eq_some_iff, Option.pure_def] at h
    obtain ⟨⟨more, rest'⟩, hmore, h⟩ := h
    cases h
    exact List.forall_mem_cons.2 ⟨lt_of_digit? hd, ih hmore⟩
  | case5 =>
    cases h
    nofun

theorem lt_of_digits? (h : digits? base cs = some (ds, rest)) : ∀ d ∈ ds, d < base := by
  cases cs with
  | nil => cases h
  | cons c cs =>
    simp only [digits?, Option.bind_eq_bind, Option.bind_eq_some_iff, Option.pure_def] at h
    obtain ⟨d, hd, ⟨more, rest'⟩, hmore, h⟩ := h
    cases h
    exact List.forall_mem_cons.2 ⟨lt_of_digit? hd, lt_of_moreDigits? hmore⟩

theorem natAbs_signed (negative : Bool) (n : Nat) :
    (if negative then -(n : Int) else n).natAbs = n := by
  cases negative with
  | true => exact Int.natAbs_neg n
  | false => rfl

/-- What is read in base ten is not too large to be written. -/
theorem write_of_read {m : Int} (h : read 10 text = .ok m) : write m = .ok (toString m) := by
  rw [read] at h
  split at h
  next negative cs _ =>
  split at h
  · cases h
  · next ds rest hdigits =>
    split at h
    · cases h
    · next hlength =>
      split at h
      · cases h
      · have hle : ds.length ≤ maxDigits := by
          simpa [limited] using hlength
        have hlt := ofDigits_lt (lt_of_digits? hdigits) (by decide) hle
        have hm : m.natAbs = ofDigits 10 ds := by
          rw [← Except.ok.inj h]
          exact natAbs_signed negative _
        rw [write, hm, if_pos hlt]

theorem read_minus (h : ∀ c ∈ cs, c.isDigit) (hne : cs ≠ []) {m : Nat}
    (hread : read base (.ofList cs) = .ok (m : Int)) :
    read base (.ofList ('-' :: cs)) = .ok (-m : Int) := by
  have hdrop : ('-' :: cs).dropWhile isPadding = '-' :: cs := rfl
  have hmark : afterMark base cs = cs := afterMark_of_isDigit h
  rw [read_of_isDigit hne h] at hread
  rw [read, String.toList_ofList, hdrop, sign]
  simp only [hmark]
  cases hdigits : digits? base cs with
  | none =>
    rw [hdigits] at hread
    cases hread
  | some p =>
    obtain ⟨ds, rest⟩ := p
    rw [hdigits] at hread
    by_cases hlength : (limited base && maxDigits < ds.length) = true
    · simp only [if_pos hlength] at hread
      cases hread
    · by_cases hpadding : (!rest.all isPadding) = true
      · simp only [if_neg hlength, if_pos hpadding] at hread
        cases hread
      · simp only [if_neg hlength, if_neg hpadding] at hread ⊢
        obtain rfl : ofDigits base ds = m := Int.ofNat.inj (Except.ok.inj hread)
        rfl

theorem toList_toString_negSucc (n : Nat) :
    (toString (Int.negSucc n)).toList = '-' :: Nat.toDigits 10 (n + 1) := by
  change ("-" ++ toString (n + 1)).toList = _
  rw [String.toList_append, toList_toString]
  rfl

theorem read_toString_natCast (h : n < Nat.pow 10 maxDigits) :
    read 10 (toString n) = .ok (n : Int) := by
  have hdigits : ∀ c ∈ Nat.toDigits 10 n, c.isDigit := fun _ => isDigit_of_mem
  have hlength : ¬maxDigits < (Nat.toDigits 10 n).length := by
    rw [Nat.not_lt, ← toList_toString, String.length_toList]
    exact (length_toString_le_iff (by decide)).2 h
  rw [Nat.toString_eq_ofList_toDigits, read_of_lt Nat.toDigits_ne_nil hdigits
    (fun c hc => digitOf_lt (hdigits c hc)), Nat.ofDigitChars_toDigits (by decide) (by decide)]
  simp [hlength]

/-- A number that is written is read again. -/
theorem read_write {m : Int} (h : write m = .ok text) : read 10 text = .ok m := by
  rw [write] at h
  split at h
  · next hsmall =>
    cases h
    cases m with
    | ofNat n => exact read_toString_natCast hsmall
    | negSucc n =>
      have hread := read_toString_natCast hsmall
      have hdigits : ∀ c ∈ Nat.toDigits 10 (n + 1), c.isDigit := fun _ => isDigit_of_mem
      rw [Int.natAbs_negSucc, Nat.toString_eq_ofList_toDigits] at hread
      have hminus := read_minus hdigits Nat.toDigits_ne_nil hread
      rwa [← toList_toString_negSucc, String.ofList_toList] at hminus
  · cases h

theorem toString_ne_empty (m : Int) : toString m ≠ "" := by
  intro heq
  have hnil := congrArg String.toList heq
  cases m with
  | ofNat n => exact Nat.toDigits_ne_nil ((toList_toString n).symm.trans hnil)
  | negSucc n =>
    rw [toList_toString_negSucc] at hnil
    cases hnil

theorem isBlank_of_mem_toString {m : Int} (h : c ∈ (toString m).toList) : isBlank c = false := by
  cases m with
  | ofNat n =>
    change c ∈ (toString n).toList at h
    rw [toList_toString] at h
    exact isBlank_of_isDigit (isDigit_of_mem h)
  | negSucc n =>
    rw [toList_toString_negSucc] at h
    rcases List.mem_cons.1 h with rfl | h
    · rfl
    · exact isBlank_of_isDigit (isDigit_of_mem h)

theorem strip_toString (m : Int) : strip (toString m) = toString m := by
  have htrimmed : IsTrimmed (toString m).toList :=
    ⟨fun c hc => isBlank_of_mem_toString (List.mem_of_mem_head? hc),
      fun c hc => isBlank_of_mem_toString (List.mem_of_getLast? hc)⟩
  rw [strip, trim_eq_self htrimmed, String.ofList_toList]

end VolumeExport.Numeral
