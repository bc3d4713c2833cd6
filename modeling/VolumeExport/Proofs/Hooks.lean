import Mathlib.Data.Option.Basic
import VolumeExport.Proofs.Remark
import VolumeExport.Proofs.Renewal

namespace VolumeExport

namespace Dict

variable {α β : Type}

theorem look_eq_none_of_lt {key : String} {xs : List (String × α)} (h : ∀ p ∈ xs, key < p.1) :
    look key xs = none := by
  induction xs with
  | nil => rfl
  | cons x xs ih =>
    obtain ⟨hx, hxs⟩ := List.forall_mem_cons.1 h
    have hne : x.1 ≠ key := by
      rintro rfl
      exact String.lt_irrefl _ hx
    rw [look, if_neg hne, ih hxs]

theorem get?_foldl_insert_map (f : α → β) (c : Dict α) (d : Dict β) (key : String) :
    (c.toList.foldl (fun d p => d.insert p.1 (f p.2)) d).get? key =
      ((c.get? key).map f).or (d.get? key) := by
  suffices hall : ∀ xs : List (String × α), (xs.Pairwise fun a b => a.1 < b.1) → ∀ d : Dict β,
      (xs.foldl (fun d p => d.insert p.1 (f p.2)) d).get? key =
        ((look key xs).map f).or (d.get? key) from hall c.toList c.sorted d
  intro xs hsorted
  induction xs with
  | nil => exact fun d => rfl
  | cons x xs ih =>
    intro d
    obtain ⟨hx, hxs⟩ := List.pairwise_cons.1 hsorted
    rw [List.foldl_cons, ih hxs, get?_insert, look]
    by_cases hkey : x.1 = key
    · subst hkey
      rw [if_pos rfl, if_pos rfl, look_eq_none_of_lt hx]
      rfl
    · rw [if_neg hkey, if_neg hkey]

theorem get?_foldl_erase (ks : List String) (d : Dict α) (key : String) :
    (ks.foldl erase d).get? key = if key ∈ ks then none else d.get? key := by
  induction ks generalizing d with
  | nil => rfl
  | cons k ks ih =>
    rw [List.foldl_cons, ih, get?_erase]
    by_cases hks : key ∈ ks
    · rw [if_pos hks, if_pos (List.mem_cons_of_mem _ hks)]
    · by_cases hk : k = key
      · rw [if_neg hks, if_pos hk, if_pos (hk ▸ List.mem_cons_self)]
      · rw [if_neg hks, if_neg hk, if_neg]
        exact fun hmem => (List.mem_cons.1 hmem).elim (fun he => hk he.symm) hks

theorem get?_eq_none_of_isEmpty {d : Dict α} (h : d.isEmpty) (key : String) :
    d.get? key = none := by
  rw [get?, List.isEmpty_iff.1 h]
  rfl

end Dict

namespace Sequence

variable {α : Type} [BEq α] [LawfulBEq α]

theorem count_appendMissing (xs items : List α) (x : α) :
    (appendMissing xs items).count x =
      if x ∈ items then max 1 (xs.count x) else xs.count x := by
  rw [appendMissing]
  induction items generalizing xs with
  | nil => rfl
  | cons y items ih =>
    rw [List.foldl_cons, ih]
    by_cases hxy : x = y
    · subst hxy
      rw [if_pos (List.mem_cons_self (a := x))]
      by_cases hmem : x ∈ xs
      · rw [if_pos (List.contains_iff_mem.2 hmem), Nat.max_eq_right (List.count_pos_iff.2 hmem)]
        exact ite_self _
      · rw [if_neg fun h => hmem (List.contains_iff_mem.1 h), List.count_append,
          List.count_eq_zero_of_not_mem hmem, List.count_singleton_self]
        exact ite_self _
    · have hcount : (if xs.contains y then xs else xs ++ [y]).count x = xs.count x := by
        split
        · rfl
        · rw [List.count_append, List.count_singleton, if_neg (by simpa using Ne.symm hxy),
            Nat.add_zero]
      rw [hcount]
      simp only [List.mem_cons, hxy, false_or]

theorem count_removeAll (xs items : List α) (x : α) :
    (removeAll xs items).count x = if x ∈ items then 0 else xs.count x := by
  rw [removeAll]
  by_cases hx : x ∈ items
  · rw [if_pos hx, List.count_eq_zero]
    simp [hx]
  · rw [if_neg hx, List.count_filter]
    simpa using hx

end Sequence

namespace Hook

variable {h : Hook} {target : Target} {event : Event} {now t : Instant} {m : Metadata}

theorem substitute_eq_self {token word cs : List Char} (h : ¬token <:+: cs) :
    substitute token word 0 cs = cs := by
  induction cs with
  | nil => rfl
  | cons c cs ih =>
    obtain ⟨hhead, htail⟩ := not_or.1 (mt List.infix_cons_iff.2 h)
    rw [substitute, if_neg (mt List.isPrefixOf_iff_prefix.1 hhead), ih htail]

theorem stamped_eq_self {value : String} (h : ¬timestampToken <:+: value.toList) :
    stamped now value = value := by
  rw [stamped, substitute_eq_self h, String.ofList_toList]

/-- What a change makes of an annotation: it sets it to a value, takes it away, or leaves it. -/
def Change.override (c : Change) (action : Action) (now : Instant) (key : String) :
    Option (Option (Option String)) :=
  match action with
  | .add => (c.annotations.get? key).map fun value => some (some (stamped now value))
  | .remove => if key ∈ c.annotations.keys then some none else none

def override (h : Hook) (target : Target) (event : Event) (now : Instant) (key : String) :
    Option (Option (Option String)) :=
  match h.change? target with
  | some c => if h.event = event then c.override h.action now key else none
  | none => none

theorem annotation?_add (c : Change) :
    (c.add now m).annotation? key =
      ((c.annotations.get? key).map fun value => some (stamped now value)).or
        (m.annotation? key) := by
  have hold : (m.annotations.getD ∅).get? key = m.annotation? key := by
    rw [Metadata.annotation?]
    cases m.annotations with
    | none => rfl
    | some d => rfl
  rw [Metadata.annotation?, Change.add]
  dsimp only
  split
  · next hempty =>
    rw [Dict.get?_eq_none_of_isEmpty hempty]
    rfl
  · rw [← hold]
    exact Dict.get?_foldl_insert_map (fun value => some (stamped now value)) _ _ _

theorem annotation?_remove (c : Change) :
    (c.remove m).annotation? key =
      if key ∈ c.annotations.keys then none else m.annotation? key := by
  rw [Metadata.annotation?, Metadata.annotation?, Change.remove]
  dsimp only
  cases m.annotations with
  | none => exact (ite_self _).symm
  | some d => exact Dict.get?_foldl_erase ..

theorem annotation?_perform (key : String) :
    (h.perform target event now m).annotation? key =
      (h.override target event now key).getD (m.annotation? key) := by
  rw [perform, override]
  cases h.change? target with
  | none => rfl
  | some c =>
    dsimp only
    split
    · cases h.action with
      | add =>
        dsimp only
        rw [annotation?_add, Change.override]
        cases c.annotations.get? key with
        | none => simp only [Option.map_none, Option.none_or, Option.getD_none]
        | some value => simp only [Option.map_some, Option.some_or, Option.getD_some]
      | remove =>
        dsimp only
        rw [annotation?_remove, Change.override]
        split
        · rfl
        · rfl
    · rfl

theorem isSome_annotations_perform :
    (h.perform target event now m).annotations.isSome =
      (m.annotations.isSome || h.readsTime target event) := by
  rw [perform, readsTime]
  cases h.change? target with
  | none => simp
  | some c =>
    dsimp only
    split
    · next hevent =>
      cases haction : h.action with
      | add =>
        simp only [Change.add, hevent]
        cases hempty : c.annotations.isEmpty with
        | false => simp [hempty]
        | true => simp [hempty]
      | remove => simp [Change.remove]
    · next hevent => simp [hevent]

def Timed (h : Hook) (target : Target) (event : Event) (key : String) : Prop :=
  ∃ c value, h.change? target = some c ∧ h.event = event ∧ h.action = .add ∧
    c.annotations.get? key = some value ∧ timestampToken <:+: value.toList

theorem Change.override_map_isSome (c : Change) (action : Action) (key : String) :
    (c.override action now key).map Option.isSome =
      (c.override action t key).map Option.isSome := by
  cases action with
  | add =>
    rw [override, override]
    cases c.annotations.get? key with
    | none => simp only [Option.map_none]
    | some value => simp only [Option.map_some, Option.isSome_some]
  | remove => rfl

theorem override_map_isSome (key : String) :
    (h.override target event now key).map Option.isSome =
      (h.override target event t key).map Option.isSome := by
  rw [override, override]
  cases h.change? target with
  | none => rfl
  | some c =>
    dsimp only
    split
    · exact c.override_map_isSome h.action key
    · rfl

theorem override_eq {key : String} (htimed : ¬h.Timed target event key) :
    h.override target event now key = h.override target event t key := by
  rw [override, override]
  cases hchange : h.change? target with
  | none => rfl
  | some c =>
    dsimp only
    split
    · next hevent =>
      cases haction : h.action with
      | remove => rfl
      | add =>
        rw [Change.override, Change.override]
        cases hvalue : c.annotations.get? key with
        | none => simp only [Option.map_none]
        | some value =>
          have hplain : ¬timestampToken <:+: value.toList :=
            fun hinfix => htimed ⟨c, value, hchange, hevent, haction, hvalue, hinfix⟩
          simp only [Option.map_some, stamped_eq_self hplain]
    · rfl

def tally (m : Metadata) (f : Option String) : Nat := (m.finalizers.getD []).count f

theorem tally_add (c : Change) (f : Option String) :
    tally (c.add now m) f =
      if f ∈ c.finalizers.map some then max 1 (tally m f) else tally m f := by
  rw [tally, Change.add]
  dsimp only
  split
  · next hempty =>
    rw [List.isEmpty_iff.1 hempty]
    rfl
  · exact Sequence.count_appendMissing ..

theorem tally_remove (c : Change) (f : Option String) :
    tally (c.remove m) f = if f ∈ c.finalizers.map some then 0 else tally m f := by
  rw [tally, tally, Change.remove]
  dsimp only
  cases m.finalizers with
  | none => exact (ite_self _).symm
  | some fs => exact Sequence.count_removeAll ..

/-- What hooks can make of the number of occurrences: they leave it, make it one at least, or make
it some number. -/
inductive Tallied : (Nat → Nat) → Prop
  | same : Tallied id
  | some : Tallied (max 1)
  | fixed (n : Nat) : Tallied fun _ => n

theorem Tallied.comp {f g : Nat → Nat} (hg : Tallied g) (hf : Tallied f) : Tallied (g ∘ f) := by
  cases hg with
  | same => exact hf
  | some =>
    cases hf with
    | same => exact .some
    | some =>
      have hidem : (max 1 ∘ max 1 : Nat → Nat) = max 1 := by
        funext n
        rw [Function.comp]
        omega
      rw [hidem]
      exact .some
    | fixed n => exact .fixed (max 1 n)
  | fixed n => exact .fixed n

theorem Tallied.idem {f : Nat → Nat} (h : Tallied f) (n : Nat) : f (f n) = f n := by
  cases h with
  | same => rfl
  | some => omega
  | fixed n => rfl

theorem tally_perform (h : Hook) (target : Target) (event : Event) (f : Option String) :
    ∃ g, Tallied g ∧ ∀ now m, tally (h.perform target event now m) f = g (tally m f) := by
  simp only [perform]
  cases h.change? target with
  | none => exact ⟨id, .same, fun _ _ => rfl⟩
  | some c =>
    dsimp only
    by_cases hevent : h.event = event
    · simp only [if_pos hevent]
      by_cases hmem : f ∈ c.finalizers.map some
      · cases h.action with
        | add => exact ⟨max 1, .some, fun now m => (tally_add c f).trans (if_pos hmem)⟩
        | remove => exact ⟨fun _ => 0, .fixed 0, fun now m => (tally_remove c f).trans (if_pos hmem)⟩
      · cases h.action with
        | add => exact ⟨id, .same, fun now m => (tally_add c f).trans (if_neg hmem)⟩
        | remove => exact ⟨id, .same, fun now m => (tally_remove c f).trans (if_neg hmem)⟩
    · simp only [if_neg hevent]
      exact ⟨id, .same, fun _ _ => rfl⟩

theorem isSome_finalizers_perform (h : Hook) (target : Target) (event : Event) :
    ∃ b : Bool, ∀ now m, (h.perform target event now m).finalizers.isSome =
      (m.finalizers.isSome || b) := by
  simp only [perform]
  cases h.change? target with
  | none => exact ⟨false, fun _ m => (Bool.or_false _).symm⟩
  | some c =>
    by_cases hevent : h.event = event
    · simp only [if_pos hevent]
      cases h.action with
      | add =>
        refine ⟨!c.finalizers.isEmpty, fun now m => ?_⟩
        rw [Change.add]
        cases hempty : c.finalizers.isEmpty with
        | false => simp
        | true => simp
      | remove =>
        refine ⟨false, fun now m => ?_⟩
        rw [Change.remove, Option.isSome_map, Bool.or_false]
    · simp only [if_neg hevent]
      exact ⟨false, fun _ m => (Bool.or_false _).symm⟩

theorem finalizers_perform {m' : Metadata} (hm : m'.finalizers = m.finalizers) :
    (h.perform target event t m').finalizers = (h.perform target event now m).finalizers := by
  rw [perform, perform]
  cases h.change? target with
  | none => exact hm
  | some c =>
    dsimp only
    split
    · cases h.action with
      | add => simp only [Change.add, hm]
      | remove => simp only [Change.remove, hm]
    · exact hm

end Hook

theorem Metadata.annotations_ext {m m' : Metadata}
    (hsome : m.annotations.isSome = m'.annotations.isSome)
    (h : ∀ key, m.annotation? key = m'.annotation? key) : m.annotations = m'.annotations := by
  simp only [annotation?] at h
  cases ha : m.annotations with
  | none =>
    rw [ha] at hsome
    exact (Option.isNone_iff_eq_none.1 (Option.isSome_eq_false_iff.1 hsome.symm)).symm
  | some d =>
    rw [ha] at hsome
    obtain ⟨d', ha'⟩ := Option.isSome_iff_exists.1 hsome.symm
    rw [ha']
    refine congrArg some (Dict.ext_get? fun key => ?_)
    have hkey := h key
    rw [ha, ha'] at hkey
    exact hkey

def Metadata.SameFinalizers (m m' : Metadata) : Prop :=
  Option.Rel List.Perm m.finalizers m'.finalizers

theorem Metadata.sameFinalizers_iff {m m' : Metadata} :
    m.SameFinalizers m' ↔ m.finalizers.isSome = m'.finalizers.isSome ∧
      ∀ f, Hook.tally m f = Hook.tally m' f := by
  simp only [SameFinalizers, Hook.tally]
  cases m.finalizers with
  | none =>
    cases m'.finalizers with
    | none => exact ⟨fun _ => ⟨rfl, fun _ => rfl⟩, fun _ => .none⟩
    | some fs' => exact iff_of_false nofun fun h => nomatch h.1
  | some fs =>
    cases m'.finalizers with
    | none => exact iff_of_false nofun fun h => nomatch h.1
    | some fs' =>
      constructor
      · intro h
        cases h with
        | some hperm => exact ⟨rfl, List.perm_iff_count.1 hperm⟩
      · intro h
        exact .some (List.perm_iff_count.2 h.2)

namespace Metadata.SameFinalizers

variable {m m' m'' : Metadata}

theorem of_eq (h : m.finalizers = m'.finalizers) : m.SameFinalizers m' := by
  apply sameFinalizers_iff.2
  rw [h]
  exact ⟨rfl, fun f => congrArg (fun fs => (Option.getD fs []).count f) h⟩

theorem symm (h : m.SameFinalizers m') : m'.SameFinalizers m := by
  obtain ⟨hsome, htally⟩ := sameFinalizers_iff.1 h
  exact sameFinalizers_iff.2 ⟨hsome.symm, fun f => (htally f).symm⟩

theorem trans (h : m.SameFinalizers m') (h' : m'.SameFinalizers m'') : m.SameFinalizers m'' := by
  obtain ⟨hsome, htally⟩ := sameFinalizers_iff.1 h
  obtain ⟨hsome', htally'⟩ := sameFinalizers_iff.1 h'
  exact sameFinalizers_iff.2 ⟨hsome.trans hsome', fun f => (htally f).trans (htally' f)⟩

end Metadata.SameFinalizers

namespace Hooks

open Hook

variable {hooks : Hooks} {target : Target} {event : Event} {now t : Instant} {m m' : Metadata}

/-- The last hook that does something to an annotation counts. -/
def override (hooks : Hooks) (target : Target) (event : Event) (now : Instant) (key : String) :
    Option (Option (Option String)) :=
  hooks.reverse.findSome? (·.override target event now key)

theorem annotation?_performAll (key : String) :
    (performAll hooks target event now m).annotation? key =
      (hooks.override target event now key).getD (m.annotation? key) := by
  rw [performAll, override]
  induction hooks generalizing m with
  | nil => rfl
  | cons h hooks ih =>
    rw [List.foldl_cons, ih, annotation?_perform, List.reverse_cons, List.findSome?_append,
      List.findSome?_singleton, Option.getD_or]

theorem isSome_annotations_performAll :
    (performAll hooks target event now m).annotations.isSome =
      (m.annotations.isSome || hooks.any (·.readsTime target event)) := by
  rw [performAll]
  induction hooks generalizing m with
  | nil => exact (Bool.or_false _).symm
  | cons h hooks ih =>
    rw [List.foldl_cons, ih, isSome_annotations_perform, List.any_cons, Bool.or_assoc]

/-- Whether some hook sets an annotation to a value that asks for the time. -/
def Timed (hooks : Hooks) (target : Target) (event : Event) (key : String) : Prop :=
  ∃ h ∈ hooks, h.Timed target event key

theorem override_map_isSome (hooks : Hooks) (target : Target) (event : Event) (now t : Instant)
    (key : String) :
    (hooks.override target event now key).map Option.isSome =
      (hooks.override target event t key).map Option.isSome := by
  have heach : (fun h : Hook => (h.override target event now key).map Option.isSome) =
      fun h => (h.override target event t key).map Option.isSome :=
    funext fun h => h.override_map_isSome key
  rw [override, override, List.map_findSome?, List.map_findSome?]
  exact congrArg (hooks.reverse.findSome? ·) heach

theorem override_isSome (hooks : Hooks) (target : Target) (event : Event) (now t : Instant)
    (key : String) :
    (hooks.override target event now key).isSome =
      (hooks.override target event t key).isSome := by
  have hmap := congrArg Option.isSome (hooks.override_map_isSome target event now t key)
  rwa [Option.isSome_map, Option.isSome_map] at hmap

theorem override_eq {key : String} (htimed : ¬hooks.Timed target event key) :
    hooks.override target event now key = hooks.override target event t key := by
  rw [override, override]
  have hall : ∀ h ∈ hooks.reverse, ¬h.Timed target event key :=
    fun h hmem htimes => htimed ⟨h, List.mem_reverse.1 hmem, htimes⟩
  generalize hooks.reverse = hs at hall
  induction hs with
  | nil => rw [List.findSome?_nil, List.findSome?_nil]
  | cons h hs ih =>
    obtain ⟨hh, hhs⟩ := List.forall_mem_cons.1 hall
    rw [List.findSome?_cons, List.findSome?_cons, ih hhs, Hook.override_eq hh]

theorem annotation?_isSome_eq (key : String) :
    ((performAll hooks target event now m).annotation? key).isSome =
      ((performAll hooks target event t m).annotation? key).isSome := by
  rw [annotation?_performAll, annotation?_performAll, ← Option.getD_map Option.isSome,
    ← Option.getD_map Option.isSome, override_map_isSome]

theorem annotation?_eq {key : String} (htimed : ¬hooks.Timed target event key) :
    (performAll hooks target event now m).annotation? key =
      (performAll hooks target event t m).annotation? key := by
  rw [annotation?_performAll, annotation?_performAll, override_eq htimed]

/-- The annotations that hooks leave are those that they leave when they are applied anew. -/
theorem annotations_again (hm : m'.annotations = (performAll hooks target event t m).annotations) :
    (performAll hooks target event now m').annotations =
      (performAll hooks target event now m).annotations := by
  apply Metadata.annotations_ext
  · rw [isSome_annotations_performAll, isSome_annotations_performAll, hm,
      isSome_annotations_performAll, Bool.or_assoc, Bool.or_self]
  · intro key
    have hkey : m'.annotation? key = (hooks.override target event t key).getD (m.annotation? key) :=
      (congrArg (Option.bind · (Dict.get? · key)) hm).trans (annotation?_performAll key)
    rw [annotation?_performAll, annotation?_performAll, hkey]
    have hsome := hooks.override_isSome target event now t key
    cases hnow : hooks.override target event now key with
    | some value => rfl
    | none =>
      rw [hnow] at hsome
      rw [Option.isNone_iff_eq_none.1 (Option.isSome_eq_false_iff.1 hsome.symm)]
      rfl

theorem tally_performAll (hooks : Hooks) (target : Target) (event : Event) (f : Option String) :
    ∃ g, Tallied g ∧ ∀ now m, tally (performAll hooks target event now m) f = g (tally m f) := by
  induction hooks with
  | nil => exact ⟨id, .same, fun _ _ => rfl⟩
  | cons h hooks ih =>
    obtain ⟨g, hg, hrest⟩ := ih
    obtain ⟨g₁, hg₁, hfirst⟩ := h.tally_perform target event f
    refine ⟨g ∘ g₁, hg.comp hg₁, fun now m => ?_⟩
    rw [performAll, List.foldl_cons]
    exact (hrest now _).trans (congrArg g (hfirst now m))

theorem finalizers_performAll (hm : m'.finalizers = m.finalizers) :
    (performAll hooks target event t m').finalizers =
      (performAll hooks target event now m).finalizers := by
  rw [performAll, performAll]
  induction hooks generalizing m m' with
  | nil => exact hm
  | cons h hooks ih => exact ih (finalizers_perform hm)

theorem isSome_finalizers_performAll (hooks : Hooks) (target : Target) (event : Event) :
    ∃ b : Bool, ∀ now m, (performAll hooks target event now m).finalizers.isSome =
      (m.finalizers.isSome || b) := by
  induction hooks with
  | nil => exact ⟨false, fun _ m => (Bool.or_false _).symm⟩
  | cons h hooks ih =>
    obtain ⟨b, hrest⟩ := ih
    obtain ⟨b₁, hfirst⟩ := h.isSome_finalizers_perform target event
    refine ⟨b₁ || b, fun now m => ?_⟩
    rw [performAll, List.foldl_cons, ← Bool.or_assoc, ← hfirst now m]
    exact hrest now _

/-- The same finalizers stay the same under hooks, and hooks leave those that they leave when they
are applied anew. -/
theorem finalizers_again (hm : m'.SameFinalizers (performAll hooks target event t m)) :
    (performAll hooks target event now m').SameFinalizers
      (performAll hooks target event now m) := by
  obtain ⟨hsome, htally⟩ := Metadata.sameFinalizers_iff.1 hm
  apply Metadata.sameFinalizers_iff.2
  constructor
  · obtain ⟨b, hb⟩ := isSome_finalizers_performAll hooks target event
    rw [hb, hb, hsome, hb, Bool.or_assoc, Bool.or_self]
  · intro f
    obtain ⟨g, hg, hall⟩ := tally_performAll hooks target event f
    rw [hall, hall, htally, hall, hg.idem]

end Hooks

end VolumeExport
