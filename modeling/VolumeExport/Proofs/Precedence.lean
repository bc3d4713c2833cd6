import VolumeExport.Proofs.Dressing

namespace VolumeExport

namespace Sequence

variable {α : Type} [BEq α] [LawfulBEq α]

theorem mem_removeAll {xs items : List α} {x : α} :
    x ∈ removeAll xs items ↔ x ∈ xs ∧ x ∉ items := by
  simp [removeAll]

omit [LawfulBEq α] in
theorem filter_appendMissing {p : α → Bool} {items : List α} (h : ∀ x ∈ items, p x = false)
    (xs : List α) : (appendMissing xs items).filter p = xs.filter p := by
  rw [appendMissing]
  induction items generalizing xs with
  | nil => rfl
  | cons x items ih =>
    have hitems : ∀ y ∈ items, p y = false := fun y hy => h y (List.mem_cons_of_mem _ hy)
    have hx : [x].filter p = [] := by simp [h x List.mem_cons_self]
    rw [List.foldl_cons, ih hitems]
    split
    · rfl
    · rw [List.filter_append, hx, List.append_nil]

theorem filter_removeAll {p : α → Bool} {items : List α} (h : ∀ x ∈ items, p x = false)
    (xs : List α) : (removeAll xs items).filter p = xs.filter p := by
  rw [removeAll, List.filter_filter]
  apply List.filter_congr
  intro x _
  by_cases hx : x ∈ items
  · simp [h x hx]
  · simp [hx]

end Sequence

theorem Dict.contains_iff_mem_keys {α : Type} {d : Dict α} {key : String} :
    d.contains key ↔ key ∈ d.keys := by
  simp [contains, keys, Option.isSome_iff_exists, get?_eq_some_iff]

namespace Hook

variable {h : Hook} {target : Target} {event : Event} {now : Instant} {m : Metadata}

theorem substitute_skip (token word : List Char) (n : Nat) (cs : List Char) :
    substitute token word n cs = substitute token word 0 (cs.drop n) := by
  induction cs generalizing n with
  | nil =>
    rw [List.drop_nil]
    cases n with
    | zero => rfl
    | succ n => rfl
  | cons c cs ih =>
    cases n with
    | zero => rfl
    | succ n =>
      rw [substitute, List.drop_succ_cons]
      exact ih n

/-- A text in which a word stands in place of every token: what lies between the tokens is left, and
there is no token in it. -/
def Replaced (token word before after : List Char) : Prop :=
  ∃ p ps, (∀ q ∈ p :: ps, ¬token <:+: q) ∧ before = token.intercalate (p :: ps) ∧
    after = word.intercalate (p :: ps)

theorem intercalate_cons_cons (sep : List Char) (c : Char) (p : List Char) (ps : List (List Char)) :
    sep.intercalate ((c :: p) :: ps) = c :: sep.intercalate (p :: ps) := by
  cases ps with
  | nil => simp [List.intercalate]
  | cons q ps => simp [List.intercalate]

theorem prefix_intercalate (sep p : List Char) (ps : List (List Char)) :
    p <+: sep.intercalate (p :: ps) := by
  cases ps with
  | nil => simp [List.intercalate]
  | cons q ps => simp [List.intercalate]

variable {token word before after : List Char}

theorem replaced_nil (h : token ≠ []) : Replaced token word [] [] := by
  refine ⟨[], [], ?_, rfl, rfl⟩
  simpa using h

theorem Replaced.append (h : Replaced token word before after) (hne : token ≠ []) :
    Replaced token word (token ++ before) (word ++ after) := by
  obtain ⟨p, ps, hparts, rfl, rfl⟩ := h
  refine ⟨[], p :: ps, ?_, by simp [List.intercalate], by simp [List.intercalate]⟩
  simpa [hne] using hparts

theorem Replaced.cons (h : Replaced token word before after) {c : Char}
    (hc : ¬token <+: c :: before) : Replaced token word (c :: before) (c :: after) := by
  obtain ⟨p, ps, hparts, rfl, rfl⟩ := h
  obtain ⟨hp, hps⟩ := List.forall_mem_cons.1 hparts
  rw [← intercalate_cons_cons] at hc
  refine ⟨c :: p, ps, List.forall_mem_cons.2 ⟨?_, hps⟩, ?_, ?_⟩
  · intro hinfix
    rcases List.infix_cons_iff.1 hinfix with hfront | hinfix
    · exact hc (hfront.trans (prefix_intercalate ..))
    · exact hp hinfix
  · rw [intercalate_cons_cons]
  · rw [intercalate_cons_cons]

theorem replaced_substitute (htoken : token ≠ []) (word cs : List Char) :
    Replaced token word cs (substitute token word 0 cs) := by
  -- An occurrence is passed over as a whole, so the induction is on a bound of the length.
  suffices hall : ∀ n, ∀ cs : List Char, cs.length ≤ n →
      Replaced token word cs (substitute token word 0 cs) from hall cs.length cs (Nat.le_refl _)
  intro n
  induction n with
  | zero =>
    intro cs hn
    have hnil : cs = [] := List.length_eq_zero_iff.1 (Nat.le_zero.1 hn)
    subst hnil
    exact replaced_nil htoken
  | succ n ih =>
    intro cs hn
    cases cs with
    | nil => exact replaced_nil htoken
    | cons c cs =>
      have hshort : cs.length ≤ n := Nat.le_of_succ_le_succ hn
      rw [substitute]
      by_cases hhead : token.isPrefixOf (c :: cs)
      · obtain ⟨rest, hrest⟩ := List.isPrefixOf_iff_prefix.1 hhead
        obtain ⟨k, hk⟩ := Nat.exists_eq_succ_of_ne_zero (mt List.length_eq_zero_iff.1 htoken)
        have hdrop : cs.drop (token.length - 1) = rest := by
          have hcut : (c :: cs).drop token.length = rest := by rw [← hrest, List.drop_left]
          rw [hk, List.drop_succ_cons] at hcut
          rwa [hk]
        have hless : rest.length ≤ n := by
          rw [← hdrop, List.length_drop]
          omega
        rw [if_pos hhead, substitute_skip, hdrop, ← hrest]
        exact (ih rest hless).append htoken
      · rw [if_neg hhead]
        exact (ih cs hshort).cons (mt List.isPrefixOf_iff_prefix.2 hhead)

/-- The block of a hook that counts for a target and an event. -/
def block? (h : Hook) (target : Target) (event : Event) : Option Change :=
  if h.event = event then h.change? target else none

theorem perform_eq_block (h : Hook) (target : Target) (event : Event) (now : Instant)
    (m : Metadata) :
    h.perform target event now m =
      match h.block? target event, h.action with
      | some c, .add => c.add now m
      | some c, .remove => c.remove m
      | none, _ => m := by
  rw [perform, block?]
  cases h.change? target with
  | none => simp
  | some c =>
    by_cases hevent : h.event = event
    · simp only [if_pos hevent]
      cases h.action with
      | add => rfl
      | remove => rfl
    · simp only [if_neg hevent]

end Hook

namespace Hooks

open Hook

variable {hooks : Hooks} {target : Target} {event : Event} {now : Instant} {m : Metadata}
  {key : String}

/-- The last block for a target and an event that names something, with the action of its hook. -/
def last? (hooks : Hooks) (target : Target) (event : Event) (names : Change → Bool) :
    Option (Hook.Action × Change) :=
  hooks.reverse.findSome? fun h => ((h.block? target event).filter names).map (h.action, ·)

def lastOn (hooks : Hooks) (target : Target) (event : Event) (key : String) :
    Option (Hook.Action × Change) :=
  hooks.last? target event (·.annotations.contains key)

def lastFor (hooks : Hooks) (target : Target) (event : Event) (f : Option String) :
    Option (Hook.Action × Change) :=
  hooks.last? target event (f ∈ ·.finalizers.map some)

theorem last?_cons (h : Hook) (hooks : Hooks) (names : Change → Bool) :
    last? (h :: hooks) target event names =
      (hooks.last? target event names).or
        (((h.block? target event).filter names).map (h.action, ·)) := by
  rw [last?, List.reverse_cons, List.findSome?_append, List.findSome?_singleton]
  rfl

theorem names_of_last? {names : Change → Bool} {action : Hook.Action} {c : Change}
    (h : hooks.last? target event names = some (action, c)) : names c := by
  obtain ⟨hook, -, hblock⟩ := List.exists_of_findSome?_eq_some h
  obtain ⟨c', hc', he⟩ := Option.map_eq_some_iff.1 hblock
  cases he
  exact (Option.filter_eq_some_iff.1 hc').2

theorem last?_eq_none_iff {names : Change → Bool} :
    hooks.last? target event names = none ↔
      ∀ h ∈ hooks, ∀ c, h.block? target event = some c → names c = false := by
  simp [last?, List.findSome?_eq_none_iff, Option.filter_eq_none_iff]

def left (now : Instant) (key : String) : Hook.Action × Change → Option (Option String)
  | (.add, c) => (c.annotations.get? key).map fun value => some (stamped now value)
  | (.remove, _) => none

theorem annotation?_perform_block (h : Hook) :
    (h.perform target event now m).annotation? key =
      (((h.block? target event).filter (·.annotations.contains key)).map (h.action, ·)).elim
        (m.annotation? key) (left now key) := by
  rw [perform_eq_block]
  cases h.block? target event with
  | none => rfl
  | some c =>
    rw [Option.filter_some]
    cases h.action with
    | add =>
      have hnames : c.annotations.contains key = (c.annotations.get? key).isSome := rfl
      rw [annotation?_add, hnames]
      cases hget : c.annotations.get? key with
      | none => rfl
      | some value => simp [left, hget]
    | remove =>
      rw [annotation?_remove]
      by_cases hkey : key ∈ c.annotations.keys
      · simp [hkey, left, Dict.contains_iff_mem_keys.2 hkey]
      · simp [hkey, mt Dict.contains_iff_mem_keys.1 hkey]

/-- An annotation is as the last block on it leaves it. -/
theorem annotation?_of_last :
    (performAll hooks target event now m).annotation? key =
      (hooks.lastOn target event key).elim (m.annotation? key) (left now key) := by
  rw [performAll, lastOn]
  induction hooks generalizing m with
  | nil => rfl
  | cons h hooks ih =>
    rw [List.foldl_cons, ih, last?_cons]
    cases last? hooks target event (·.annotations.contains key) with
    | some p => rfl
    | none => exact annotation?_perform_block h

theorem mem_finalizers_perform_block (h : Hook) (f : Option String) :
    f ∈ (h.perform target event now m).finalizers.getD [] ↔
      (((h.block? target event).filter (f ∈ ·.finalizers.map some)).map (h.action, ·)).elim
        (f ∈ m.finalizers.getD []) (·.1 = .add) := by
  rw [← List.count_pos_iff, ← List.count_pos_iff (l := m.finalizers.getD [])]
  change 0 < tally _ f ↔ Option.elim _ (0 < tally m f) _
  rw [perform_eq_block]
  cases h.block? target event with
  | none => rfl
  | some c =>
    rw [Option.filter_some]
    by_cases hmem : f ∈ c.finalizers.map some
    · cases h.action with
      | add =>
        have hpos : 0 < max 1 (tally m f) := by omega
        rw [tally_add, if_pos hmem, if_pos (decide_eq_true hmem)]
        exact iff_of_true hpos rfl
      | remove =>
        rw [tally_remove, if_pos hmem, if_pos (decide_eq_true hmem)]
        simp
    · cases h.action with
      | add =>
        rw [tally_add, if_neg hmem, if_neg (by simpa using hmem)]
        rfl
      | remove =>
        rw [tally_remove, if_neg hmem, if_neg (by simpa using hmem)]
        rfl

theorem mem_finalizers_of_last (f : Option String) :
    f ∈ (performAll hooks target event now m).finalizers.getD [] ↔
      (hooks.lastFor target event f).elim (f ∈ m.finalizers.getD []) (·.1 = .add) := by
  rw [performAll, lastFor]
  induction hooks generalizing m with
  | nil => rfl
  | cons h hooks ih =>
    rw [List.foldl_cons, ih, last?_cons]
    cases last? hooks target event (f ∈ ·.finalizers.map some) with
    | some p => rfl
    | none => exact mem_finalizers_perform_block h f

theorem tally_perform_le (h : Hook) (f : Option String) :
    tally (h.perform target event now m) f ≤ max 1 (tally m f) := by
  rw [perform_eq_block]
  cases h.block? target event with
  | none => exact Nat.le_max_right ..
  | some c =>
    cases h.action with
    | add =>
      rw [tally_add]
      split
      · exact Nat.le_refl _
      · exact Nat.le_max_right ..
    | remove =>
      rw [tally_remove]
      split
      · exact Nat.zero_le _
      · exact Nat.le_max_right ..

theorem tally_performAll_le (f : Option String) :
    tally (performAll hooks target event now m) f ≤ max 1 (tally m f) := by
  rw [performAll]
  induction hooks generalizing m with
  | nil => exact Nat.le_max_right ..
  | cons h hooks ih =>
    have hfirst : tally (h.perform target event now m) f ≤ max 1 (tally m f) := tally_perform_le h f
    have hrest := ih (m := h.perform target event now m)
    rw [List.foldl_cons]
    omega

theorem filter_finalizers_perform {p : Option String → Bool} (h : Hook)
    (hp : ∀ c, h.block? target event = some c → ∀ f ∈ c.finalizers.map some, p f = false) :
    ((h.perform target event now m).finalizers.getD []).filter p =
      (m.finalizers.getD []).filter p := by
  rw [perform_eq_block]
  cases hblock : h.block? target event with
  | none => rfl
  | some c =>
    have hc := hp c hblock
    cases h.action with
    | add =>
      simp only [Change.add]
      split
      · rfl
      · exact Sequence.filter_appendMissing hc _
    | remove =>
      simp only [Change.remove]
      cases m.finalizers with
      | none => rfl
      | some fs => exact Sequence.filter_removeAll hc fs

theorem filter_finalizers_performAll {p : Option String → Bool}
    (hp : ∀ h ∈ hooks, ∀ c, h.block? target event = some c →
      ∀ f ∈ c.finalizers.map some, p f = false) :
    ((performAll hooks target event now m).finalizers.getD []).filter p =
      (m.finalizers.getD []).filter p := by
  rw [performAll]
  induction hooks generalizing m with
  | nil => rfl
  | cons h hooks ih =>
    obtain ⟨hh, hhooks⟩ := List.forall_mem_cons.1 hp
    rw [List.foldl_cons, ih hhooks]
    exact filter_finalizers_perform h hh

/-- What hooks make of an object at some time. -/
structure Performed (hooks : Hooks) (target : Target) (event : Event) (now : Instant)
    (o o' : Object) : Prop where
  /-- Nothing but annotations and finalizers changes. -/
  remarks : o.Remarks o'
  /-- The last block on an annotation adds it, with the time in place of every token. -/
  set : ∀ key c, hooks.lastOn target event key = some (.add, c) → ∃ value text,
    c.annotations.get? key = some value ∧
    Replaced timestampToken now.rfc3339.toList value.toList text.toList ∧
    o'.knownMetadata.annotation? key = some (some text)
  cleared : ∀ key c, hooks.lastOn target event key = some (.remove, c) →
    o'.knownMetadata.annotation? key = none
  kept : ∀ key, hooks.lastOn target event key = none →
    o'.knownMetadata.annotation? key = o.knownMetadata.annotation? key
  added : ∀ f c, hooks.lastFor target event f = some (.add, c) →
    f ∈ o'.knownMetadata.finalizers.getD []
  removed : ∀ f c, hooks.lastFor target event f = some (.remove, c) →
    f ∉ o'.knownMetadata.finalizers.getD []
  /-- Finalizers that no block names keep their order and their number. -/
  unnamed : (o'.knownMetadata.finalizers.getD []).filter (hooks.lastFor target event · = none) =
    (o.knownMetadata.finalizers.getD []).filter (hooks.lastFor target event · = none)
  once : ∀ f, tally o'.knownMetadata f ≤ max 1 (tally o.knownMetadata f)

theorem performed_of_metadata {o o' : Object} (hrest : o'.rest = o.rest)
    (hm : o'.knownMetadata = performAll hooks target event now o.knownMetadata) :
    hooks.Performed target event now o o' := by
  have hlast (key : String) : o'.knownMetadata.annotation? key =
      (hooks.lastOn target event key).elim (o.knownMetadata.annotation? key) (left now key) := by
    rw [hm, annotation?_of_last]
  have hmem (f : Option String) : f ∈ o'.knownMetadata.finalizers.getD [] ↔
      (hooks.lastFor target event f).elim (f ∈ o.knownMetadata.finalizers.getD [])
        (·.1 = .add) := by
    rw [hm, mem_finalizers_of_last]
  constructor
  case remarks =>
    obtain ⟨annotations, finalizers, heq⟩ := performAll_eq hooks target event now o.knownMetadata
    exact ⟨hrest, annotations, finalizers, hm.trans heq⟩
  case set =>
    intro key c hadd
    have hnamed : (c.annotations.get? key).isSome := names_of_last? hadd
    obtain ⟨value, hvalue⟩ := Option.isSome_iff_exists.1 hnamed
    have htoken : timestampToken ≠ [] := by decide
    have hreplaced := replaced_substitute htoken now.rfc3339.toList value.toList
    refine ⟨value, stamped now value, hvalue, ?_, ?_⟩
    · rwa [stamped, String.toList_ofList]
    · simp [hlast, hadd, left, hvalue]
  case cleared =>
    intro key c hremove
    rw [hlast, hremove]
    rfl
  case kept =>
    intro key hnone
    rw [hlast, hnone]
    rfl
  case added =>
    intro f c hadd
    rw [hmem, hadd]
    rfl
  case removed =>
    intro f c hremove
    rw [hmem, hremove]
    intro h
    cases h
  case unnamed =>
    rw [hm]
    apply filter_finalizers_performAll
    intro h hmem c hblock f hf
    apply decide_eq_false
    intro hnone
    have hunnamed := last?_eq_none_iff.1 hnone h hmem c hblock
    exact absurd hf (of_decide_eq_false hunnamed)
  case once =>
    intro f
    rw [hm]
    exact tally_performAll_le f

/-- The last block on each annotation and each finalizer counts; and where hooks have no block,
objects of every kind pass as they are. -/
theorem apply_performed (hooks : Hooks) (target : Target) (event : Event) (now : Instant)
    (o : Object) :
    (∃ o', hooks.apply target event (.ok now) target.kind o = .ok o' ∧
        hooks.Performed target event now o o') ∧
      (hooks.covers target event = false ↔
        ∀ h ∈ hooks, h.event = event → h.change? target = none) ∧
      (hooks.covers target event = false →
        ∀ clock kind, hooks.apply target event clock kind o = .ok o) := by
  have hpass (hnone : hooks.covers target event = false) (clock : Except Instant.Fault Instant)
      (kind : String) : hooks.apply target event clock kind o = .ok o := by
    rw [apply.eq_def, hnone]
    rfl
  refine ⟨?_, not_covers_iff, hpass⟩
  by_cases hnone : hooks.covers target event = false
  · have hsame := performAll_of_not_covers hnone now o.knownMetadata
    exact ⟨o, hpass hnone .., performed_of_metadata rfl hsame.symm⟩
  · rw [Bool.not_eq_false] at hnone
    refine ⟨o.modifyMetadata (performAll hooks target event now), ?_, performed_of_metadata rfl rfl⟩
    rw [apply.eq_def, hnone]
    simp

end Hooks

end VolumeExport
