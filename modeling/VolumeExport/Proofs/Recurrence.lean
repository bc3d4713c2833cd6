import Mathlib.Data.List.Induction
import VolumeExport.Proofs.Precedence
import VolumeExport.Proofs.Waiting

namespace VolumeExport

theorem Option.eq_of_getD {α : Type} {xs xs' : Option (List α)} (hsome : xs.isSome = xs'.isSome)
    (h : xs.getD [] = xs'.getD []) : xs = xs' := by
  cases xs with
  | none =>
    cases xs' with
    | none => rfl
    | some => cases hsome
  | some =>
    cases xs' with
    | none => cases hsome
    | some => exact congrArg some h

namespace Sequence

variable {α : Type}

/-- To put the items with a mark last changes nothing if they are last. -/
theorem filter_append_filter_eq_self_iff {p : α → Bool} {xs : List α} :
    xs.filter (!p ·) ++ xs.filter p = xs ↔ xs.Pairwise fun x y => p x → p y := by
  induction xs with
  | nil => simp
  | cons x xs ih =>
    rw [List.pairwise_cons, ← ih]
    cases hx : p x with
    | false => simp [hx]
    | true =>
      simp only [List.filter_cons, hx, Bool.not_true, Bool.false_eq_true, if_false, if_true,
        true_imp_iff]
      constructor
      · intro heq
        cases hothers : xs.filter (!p ·) with
        | nil =>
          rw [hothers, List.nil_append, List.cons_inj_right] at heq
          exact ⟨List.filter_eq_self.1 heq, heq⟩
        | cons y ys =>
          have hy : y ∈ xs.filter (!p ·) := hothers ▸ List.mem_cons_self
          rw [hothers, List.cons_append] at heq
          have hyx : y = x := (List.cons.inj heq).1
          simp [hyx, hx] at hy
      · intro hall
        have hnone : xs.filter (!p ·) = [] := by
          rw [List.filter_eq_nil_iff]
          intro y hy
          simp [hall.1 y hy]
        rw [hnone, List.nil_append, List.filter_eq_self.2 hall.1]

variable [BEq α] [LawfulBEq α]

theorem appendMissing_append (kept fresh items : List α) :
    appendMissing (kept ++ removeAll fresh kept) items =
      kept ++ removeAll (appendMissing fresh items) kept := by
  rw [appendMissing, appendMissing]
  induction items generalizing fresh with
  | nil => rfl
  | cons x items ih =>
    rw [List.foldl_cons, List.foldl_cons, ← ih]
    congr 1
    by_cases hkept : x ∈ kept
    · by_cases hfresh : x ∈ fresh
      · simp [hkept, hfresh]
      · simp [hkept, hfresh, removeAll]
    · by_cases hfresh : x ∈ fresh
      · simp [hkept, hfresh, removeAll]
      · simp [hkept, hfresh, removeAll]

theorem removeAll_append (kept fresh items : List α) :
    removeAll (kept ++ removeAll fresh kept) items =
      removeAll kept items ++ removeAll (removeAll fresh items) (removeAll kept items) := by
  simp only [removeAll, List.filter_append, List.filter_filter]
  congr 1
  apply List.filter_congr
  intro x _
  by_cases hitems : x ∈ items
  · simp [hitems]
  · simp [hitems]

theorem removeAll_removeAll (xs items more : List α) :
    removeAll (removeAll xs items) more = removeAll xs (items ++ more) := by
  simp only [removeAll, List.filter_filter]
  apply List.filter_congr
  intro x _
  simp [Bool.and_comm]

end Sequence

namespace Hook

variable {h : Hook} {target : Target} {event : Event}

def finalize (h : Hook) (target : Target) (event : Event) (fs : List (Option String)) :
    List (Option String) :=
  match h.block? target event, h.action with
  | some c, .add => Sequence.appendMissing fs (c.finalizers.map some)
  | some c, .remove => Sequence.removeAll fs (c.finalizers.map some)
  | none, _ => fs

def taken (h : Hook) (target : Target) (event : Event) : List (Option String) :=
  match h.block? target event, h.action with
  | some c, .remove => c.finalizers.map some
  | _, _ => []

theorem finalizers_perform_eq (now : Instant) (m : Metadata) :
    (h.perform target event now m).finalizers.getD [] =
      h.finalize target event (m.finalizers.getD []) := by
  rw [perform_eq_block, finalize]
  cases h.block? target event with
  | none => rfl
  | some c =>
    cases h.action with
    | add =>
      simp only [Change.add]
      split
      · next hempty =>
        rw [List.isEmpty_iff.1 hempty]
        rfl
      · rfl
    | remove =>
      simp only [Change.remove]
      cases m.finalizers with
      | none => rfl
      | some fs => rfl

theorem finalize_append (kept fresh : List (Option String)) :
    h.finalize target event (kept ++ Sequence.removeAll fresh kept) =
      Sequence.removeAll kept (h.taken target event) ++
        Sequence.removeAll (h.finalize target event fresh)
          (Sequence.removeAll kept (h.taken target event)) := by
  have hnone : Sequence.removeAll kept [] = kept := by simp [Sequence.removeAll]
  rw [finalize, finalize, taken]
  cases h.block? target event with
  | none => simp only [hnone]
  | some c =>
    cases h.action with
    | add => simp only [hnone, Sequence.appendMissing_append]
    | remove => exact Sequence.removeAll_append ..

end Hook

namespace Hooks

open Hook

variable {hooks : Hooks} {target : Target} {event : Event} {now : Instant} {m : Metadata}

def finalize (hooks : Hooks) (target : Target) (event : Event) (fs : List (Option String)) :
    List (Option String) :=
  hooks.foldl (fun fs h => h.finalize target event fs) fs

def taken (hooks : Hooks) (target : Target) (event : Event) : List (Option String) :=
  hooks.flatMap (·.taken target event)

/-- The finalizers that hooks leave where there are none before. -/
def fresh (hooks : Hooks) (target : Target) (event : Event) : List (Option String) :=
  hooks.finalize target event []

theorem finalizers_performAll_eq (now : Instant) (m : Metadata) :
    (performAll hooks target event now m).finalizers.getD [] =
      hooks.finalize target event (m.finalizers.getD []) := by
  rw [performAll, finalize]
  induction hooks generalizing m with
  | nil => rfl
  | cons h hooks ih => rw [List.foldl_cons, List.foldl_cons, ih, finalizers_perform_eq]

/-- What no hook takes away stays in front, and what hooks add comes behind it. -/
theorem finalize_eq (fs : List (Option String)) :
    hooks.finalize target event fs =
      Sequence.removeAll fs (hooks.taken target event) ++
        Sequence.removeAll (hooks.fresh target event)
          (Sequence.removeAll fs (hooks.taken target event)) := by
  induction hooks using List.reverseRecOn with
  | nil =>
    have hnone : Sequence.removeAll fs [] = fs := by simp [Sequence.removeAll]
    change fs = Sequence.removeAll fs [] ++ []
    rw [hnone, List.append_nil]
  | append_singleton hooks h ih =>
    have hlast (fs : List (Option String)) : finalize (hooks ++ [h]) target event fs =
        h.finalize target event (finalize hooks target event fs) := by
      rw [finalize, List.foldl_append]
      rfl
    have htaken : taken (hooks ++ [h]) target event =
        taken hooks target event ++ h.taken target event := by
      simp [taken]
    rw [fresh, hlast, hlast, htaken, ← Sequence.removeAll_removeAll, ih]
    exact h.finalize_append ..

/-- The finalizers settle at once if none that hooks only add, and that is missing, comes behind one
that they take away and add again. -/
def Settles (hooks : Hooks) (target : Target) (event : Event) (fs : List (Option String)) : Prop :=
  (hooks.fresh target event).Pairwise fun f g =>
    f ∈ hooks.taken target event → g ∈ hooks.taken target event ∨ g ∈ fs

/-- Hooks that are applied again put the finalizers last that they take away and add again. -/
theorem finalize_finalize (fs : List (Option String)) :
    hooks.finalize target event (hooks.finalize target event fs) =
      Sequence.removeAll fs (hooks.taken target event) ++
        ((Sequence.removeAll (hooks.fresh target event)
            (Sequence.removeAll fs (hooks.taken target event))).filter
              (!(hooks.taken target event).contains ·) ++
          (Sequence.removeAll (hooks.fresh target event)
            (Sequence.removeAll fs (hooks.taken target event))).filter
              ((hooks.taken target event).contains ·)) := by
  rw [finalize_eq (hooks.finalize target event fs), finalize_eq fs]
  generalize hooks.taken target event = taken
  generalize hooks.fresh target event = fresh
  have hkept : Sequence.removeAll (Sequence.removeAll fs taken) taken =
      Sequence.removeAll fs taken := by
    simp [Sequence.removeAll, List.filter_filter]
  have hfirst : Sequence.removeAll (Sequence.removeAll fs taken ++
      Sequence.removeAll fresh (Sequence.removeAll fs taken)) taken =
        Sequence.removeAll fs taken ++ (Sequence.removeAll fresh
          (Sequence.removeAll fs taken)).filter (!taken.contains ·) := by
    rw [Sequence.removeAll_append, hkept]
    simp only [Sequence.removeAll, List.filter_filter, Bool.and_comm]
  have hlast : Sequence.removeAll fresh (Sequence.removeAll fs taken ++
      (Sequence.removeAll fresh (Sequence.removeAll fs taken)).filter (!taken.contains ·)) =
        (Sequence.removeAll fresh (Sequence.removeAll fs taken)).filter (taken.contains ·) := by
    simp only [Sequence.removeAll, List.filter_filter]
    apply List.filter_congr
    intro f hf
    by_cases htaken : f ∈ taken
    · simp [htaken]
    · simp [htaken, hf]
  rw [hfirst, hlast, List.append_assoc]

theorem finalize_again_iff {fs : List (Option String)} :
    hooks.finalize target event (hooks.finalize target event fs) = hooks.finalize target event fs ↔
      hooks.Settles target event fs := by
  rw [finalize_finalize, finalize_eq fs, List.append_cancel_left_eq,
    Sequence.filter_append_filter_eq_self_iff, Settles, Sequence.removeAll, List.pairwise_filter]
  generalize hooks.taken target event = taken
  have hkept (f : Option String) : f ∈ Sequence.removeAll fs taken ↔ f ∈ fs ∧ f ∉ taken :=
    Sequence.mem_removeAll
  constructor
  · apply List.Pairwise.imp
    intro f g h hf
    simp only [List.contains_iff_mem, Bool.not_eq_true', Bool.eq_false_iff, ne_eq, hkept] at h
    by_cases hg : g ∈ fs
    · exact .inr hg
    · exact .inl (h (fun hmem => hmem.2 hf) (fun hmem => hg hmem.1) hf)
  · apply List.Pairwise.imp
    intro f g h
    simp only [List.contains_iff_mem, Bool.not_eq_true', Bool.eq_false_iff, ne_eq, hkept]
    intro _ hg hf
    rcases h hf with htaken | hmem
    · exact htaken
    · by_contra hnot
      exact hg ⟨hmem, hnot⟩

/-- What hooks have left twice settles. -/
theorem settles_finalize (fs : List (Option String)) :
    hooks.Settles target event (hooks.finalize target event fs) := by
  have hmem : ∀ f ∈ hooks.fresh target event, f ∈ hooks.finalize target event fs := by
    intro f hf
    rw [finalize_eq, List.mem_append]
    by_cases hkept : f ∈ Sequence.removeAll fs (hooks.taken target event)
    · exact .inl hkept
    · exact .inr (Sequence.mem_removeAll.2 ⟨hf, hkept⟩)
  rw [Settles, List.pairwise_iff_forall_sublist]
  intro f g hsub _
  exact .inr (hmem g (hsub.subset (by simp)))

/-- Additions alone settle at once, and so do removals. -/
theorem settles_of_action {action : Hook.Action} (h : ∀ hook ∈ hooks, hook.action = action)
    (fs : List (Option String)) : hooks.Settles target event fs := by
  cases action with
  | add =>
    have htaken : hooks.taken target event = [] := by
      rw [taken, List.flatMap_eq_nil_iff]
      intro hook hmem
      rw [Hook.taken, h hook hmem]
      cases hook.block? target event <;> rfl
    rw [Settles, List.pairwise_iff_forall_sublist]
    intro f g _ hf
    rw [htaken] at hf
    cases hf
  | remove =>
    have hfresh : hooks.fresh target event = [] := by
      rw [fresh, finalize]
      induction hooks with
      | nil => rfl
      | cons hook hooks ih =>
        obtain ⟨hhook, hhooks⟩ := List.forall_mem_cons.1 h
        have hnone : hook.finalize target event [] = [] := by
          rw [Hook.finalize, hhook]
          cases hook.block? target event <;> rfl
        rw [List.foldl_cons, hnone, ih hhooks]
    rw [Settles, hfresh]
    exact .nil

theorem isSome_again (now : Instant) (m : Metadata) :
    (performAll hooks target event now (performAll hooks target event now m)).finalizers.isSome =
      (performAll hooks target event now m).finalizers.isSome := by
  obtain ⟨b, hb⟩ := isSome_finalizers_performAll hooks target event
  rw [hb, hb, Bool.or_assoc, Bool.or_self]

/-- Hooks again change nothing but finalizers. -/
theorem performAll_again (now : Instant) (m : Metadata) :
    performAll hooks target event now (performAll hooks target event now m) =
      { performAll hooks target event now m with
        finalizers := (performAll hooks target event now
          (performAll hooks target event now m)).finalizers } := by
  have hannotations : (performAll hooks target event now
      (performAll hooks target event now m)).annotations =
        (performAll hooks target event now m).annotations := annotations_again rfl
  obtain ⟨annotations, finalizers, heq⟩ := performAll_eq hooks target event now
    (performAll hooks target event now m)
  rw [heq] at hannotations
  obtain rfl : annotations = (performAll hooks target event now m).annotations := hannotations
  rw [heq]

theorem performAll_again_iff (now : Instant) (m : Metadata) :
    performAll hooks target event now (performAll hooks target event now m) =
        performAll hooks target event now m ↔
      hooks.Settles target event (m.finalizers.getD []) := by
  rw [← finalize_again_iff, ← finalizers_performAll_eq now, ← finalizers_performAll_eq now]
  constructor
  · intro h
    rw [h]
  · intro h
    have hfinalizers := Option.eq_of_getD (hooks.isSome_again now m) h
    rw [performAll_again, hfinalizers]

theorem performAll_eq_self_congr {m' : Metadata} (hannotations : m'.annotations = m.annotations)
    (hfinalizers : m'.finalizers = m.finalizers) :
    performAll hooks target event now m' = m' ↔ performAll hooks target event now m = m := by
  have hsplit (m : Metadata) : performAll hooks target event now m = m ↔
      (performAll hooks target event now m).annotations = m.annotations ∧
        (performAll hooks target event now m).finalizers = m.finalizers := by
    obtain ⟨annotations, finalizers, heq⟩ := performAll_eq hooks target event now m
    rw [heq]
    constructor
    · intro h
      exact ⟨congrArg Metadata.annotations h, congrArg Metadata.finalizers h⟩
    · rintro ⟨rfl, rfl⟩
      rfl
  have hsame : (performAll hooks target event now m').annotations =
      (performAll hooks target event now m).annotations := by
    apply Metadata.annotations_ext
    · rw [isSome_annotations_performAll, isSome_annotations_performAll, hannotations]
    · intro key
      have hkey : m'.annotation? key = m.annotation? key :=
        congrArg (Option.bind · (Dict.get? · key)) hannotations
      rw [annotation?_performAll, annotation?_performAll, hkey]
  have hsame' : (performAll hooks target event now m').finalizers =
      (performAll hooks target event now m).finalizers := finalizers_performAll hfinalizers
  rw [hsplit m', hsplit m, hsame, hsame', hannotations, hfinalizers]

def leave (hooks : Hooks) (target : Target) (event : Event) (now : Instant) (o : Object) : Object :=
  if hooks.covers target event then o.modifyMetadata (performAll hooks target event now) else o

theorem apply_eq_leave (hooks : Hooks) (target : Target) (event : Event) (now : Instant)
    (o : Object) :
    hooks.apply target event (.ok now) target.kind o = .ok (hooks.leave target event now o) := by
  rw [apply.eq_def, leave]
  cases hooks.covers target event with
  | true => simp
  | false => rfl

theorem knownMetadata_leave (o : Object) :
    (hooks.leave target event now o).knownMetadata =
      performAll hooks target event now o.knownMetadata := by
  rw [leave]
  split
  · rfl
  · next hcovers => exact (performAll_of_not_covers (by simpa using hcovers) now _).symm

theorem leave_eq_self_iff {o : Object} (hm : o.metadata.isSome) :
    hooks.leave target event now o = o ↔
      performAll hooks target event now o.knownMetadata = o.knownMetadata := by
  constructor
  · intro h
    rw [← knownMetadata_leave, h]
  · intro h
    obtain ⟨m, hm⟩ := Option.isSome_iff_exists.1 hm
    rw [leave]
    split
    · rw [Object.modifyMetadata, h, Object.knownMetadata, hm]
      cases o
      cases hm
      rfl
    · rfl

theorem leave_again_iff {o : Object} :
    hooks.leave target event now (hooks.leave target event now o) =
        hooks.leave target event now o ↔
      hooks.Settles target event (o.knownMetadata.finalizers.getD []) := by
  rw [← performAll_again_iff now]
  cases hcovers : hooks.covers target event with
  | true =>
    have hm : (hooks.leave target event now o).metadata.isSome := by
      rw [leave, if_pos hcovers]
      rfl
    rw [leave_eq_self_iff hm, knownMetadata_leave]
  | false =>
    have hsame (m : Metadata) : performAll hooks target event now m = m :=
      performAll_of_not_covers hcovers now m
    have hleave (o : Object) : hooks.leave target event now o = o := by
      rw [leave, hcovers]
      rfl
    simp only [hsame, hleave]

end Hooks

/-- Objects that differ at most in the order of their finalizers. -/
def Object.Rearranged (o o' : Object) : Prop :=
  o'.rest = o.rest ∧ Option.Rel
    (fun m m' => m.SameFinalizers m' ∧ m' = { m with finalizers := m'.finalizers })
    o.metadata o'.metadata

theorem Object.rearranged_self (o : Object) : o.Rearranged o := by
  refine ⟨rfl, ?_⟩
  cases o.metadata with
  | none => exact .none
  | some m => exact .some ⟨.of_eq rfl, rfl⟩

theorem Hooks.rearranged_leave (hooks : Hooks) (target : Hook.Target) (event : Hook.Event)
    (now : Instant) (o : Object) :
    (hooks.leave target event now o).Rearranged
      (hooks.leave target event now (hooks.leave target event now o)) := by
  rw [leave, leave]
  split
  · refine ⟨rfl, .some ⟨?_, performAll_again now _⟩⟩
    exact (finalizers_again (.of_eq rfl)).symm
  · exact o.rearranged_self

def Moment.At (now : Instant) (m : Moment) : Prop := ∀ t, m.turn = ⟨.now, t⟩ → t = .ok now

theorem Moment.at_replay {α : Type} (w : Site) (p : Prog α) (n : Nat) :
    ∀ m ∈ (Prog.replay w p (List.replicate n .none)).1, m.At .first := by
  induction n with
  | zero => exact fun m hm => nomatch hm
  | succ n ih =>
    rw [List.replicate_succ, Prog.replay]
    split
    · exact ih
    · refine List.forall_mem_cons.2 ⟨?_, ih⟩
      intro t ht
      cases ht
      rfl

def Request.rewrites : Request → Bool
  | .call (.replace ..) => true
  | _ => false

abbrev Moment.Rewrites (m : Moment) : Prop := m.turn.request.rewrites

namespace Access

variable {hooks : Hooks} {target : Hook.Target} {event : Hook.Event} {now : Instant}
  {r : Resource} {ns name : Option String} {w : Site} {ms : List Moment} {m : Modified} {o : Object}

/-- Over some moments hooks were applied to an object that is stored: it is written if they change
it, unless a call fails. -/
structure Applied (hooks : Hooks) (target : Hook.Target) (event : Hook.Event) (now : Instant)
    (w : Site) (k : Key) (o : Object) (ms : List Moment) (completed : Prop) : Prop where
  same : hooks.leave target event now o = o → w.along ms = w ∧ ∀ m ∈ ms, ¬m.Rewrites
  changed : hooks.leave target event now o ≠ o → completed → (∃ m ∈ ms, m.Rewrites) ∧
    (w.along ms).cluster.store.get? k =
      some (Cluster.stamped (w.cluster.writes + 1) (hooks.leave target event now o))

theorem Applied.start {completed : Prop} (h : ¬completed) :
    Applied hooks target event now w (.of r ns name) o [] completed :=
  ⟨fun _ => ⟨rfl, fun _ hm => nomatch hm⟩, fun _ hcompleted => absurd hcompleted h⟩

theorem Applied.behind {m : Moment} {completed : Prop}
    (h : Applied hooks target event now w (.of r ns name) o ms completed) (hafter : m.after = w)
    (hm : ¬m.Rewrites) :
    Applied hooks target event now w (.of r ns name) o (ms ++ [m]) completed := by
  have halong : w.along (ms ++ [m]) = w.along ms := by
    rw [Site.along_append, Site.along, hafter]
  constructor
  · intro hsame
    obtain ⟨hw, hms⟩ := h.same hsame
    refine ⟨halong.trans hw, ?_⟩
    intro m' hm'
    rcases List.mem_append.1 hm' with hmem | hmem
    · exact hms m' hmem
    · exact List.mem_singleton.1 hmem ▸ hm
  · intro hdiffers hcompleted
    obtain ⟨⟨m', hm', hrewrites⟩, hstored⟩ := h.changed hdiffers hcompleted
    exact ⟨⟨m', List.mem_append_left _ hm', hrewrites⟩, halong ▸ hstored⟩

theorem modifyRound_of_runs {n : Nat} {found : Except Fault (Nat ⊕ Modified)}
    (hr : r.kind = target.kind)
    (hruns : (modifyRound r ns name (Backing.hooked hooks target event r) n (.ok o)).Runs .alone w
      ms found)
    (htime : ∀ m ∈ ms, m.At now) (hget : w.cluster.store.get? (.of r ns name) = some o) :
    (∀ n, found ≠ .ok (.inl n)) ∧
      Applied hooks target event now w (.of r ns name) o ms (∃ m, found = .ok (.inr m)) := by
  have hhooked : Backing.hooked hooks target event r (.ok now) o =
      .ok (hooks.leave target event now o) := by
    rw [Backing.hooked, hr, Hooks.apply_eq_leave]
    rfl
  obtain ⟨v, t, v', rest, rfl, hv, ht, hrest⟩ := Action.Runs.of_ask hruns
  obtain rfl : w = v := hv.symm
  obtain rfl : w = v' := ht.symm
  obtain rfl : t = .ok now := htime ⟨w, ⟨.now, t⟩, w⟩ (by simp) t rfl
  have hnow : ¬Moment.Rewrites ⟨w, ⟨.now, .ok now⟩, w⟩ := by
    rintro ⟨⟩
  rw [hhooked, Action.ofExcept, pure_bind] at hrest
  rcases hrest.ite_cases with ⟨hsame, hdone⟩ | ⟨hdiffers, hreplace⟩
  · obtain ⟨rfl, rfl⟩ := Prog.Runs.eq_of_done hdone
    refine ⟨fun _ h => (by cases h), fun _ => ⟨rfl, ?_⟩, fun h => absurd hsame h⟩
    intro m hm
    cases List.mem_singleton.1 hm
    exact hnow
  · obtain ⟨u, x, _, last, rfl, hu, hx, hlast⟩ := Action.Runs.of_ask hreplace
    obtain rfl : w = u := hu.symm
    obtain ⟨⟨written, hwritten⟩, -, hstored⟩ := Site.only_of_replace hget
      (Backing.hooked_remarks hhooked)
    rcases hx with ⟨rfl, rfl⟩ | ⟨e, he, rfl, rfl⟩
    · rw [hwritten] at hlast
      obtain ⟨rfl, rfl⟩ := Prog.Runs.eq_of_done hlast
      refine ⟨fun _ h => (by cases h), fun h => absurd h hdiffers, fun _ _ => ⟨?_, hstored⟩⟩
      exact ⟨_, .head _, rfl⟩
    · simp only [he.not_isNotFound, he.not_isConflict, Bool.false_eq_true, if_false] at hlast
      obtain ⟨rfl, rfl⟩ := Prog.Runs.eq_of_done hlast
      refine ⟨fun _ h => (by cases h), fun h => absurd h hdiffers, ?_⟩
      rintro - ⟨m, h⟩
      cases h

/-- A change by hooks writes if they change what is stored. -/
theorem modify_of_runs {done : Except Fault Modified} (hr : r.kind = target.kind)
    (hruns : (modify r ns name (Backing.hooked hooks target event r)).Runs .alone w ms done)
    (htime : ∀ m ∈ ms, m.At now) (hget : w.cluster.store.get? (.of r ns name) = some o) :
    Applied hooks target event now w (.of r ns name) o ms (∃ m, done = .ok m) := by
  obtain ⟨v, x, v', first, later, found, rfl, hv, hx, hfirst, hlater⟩ :=
    Action.Runs.of_rounds hruns
  obtain rfl : w = v := hv.symm
  have hnot : ¬Moment.Rewrites ⟨w, ⟨.call (.read r ns name), x⟩, v'⟩ :=
    nofun
  rcases hx with ⟨rfl, rfl⟩ | ⟨e, he, rfl, rfl⟩
  · have hread : (w.cluster.respond (.read r ns name)).1 = .ok o := by
      rw [Cluster.respond, Cluster.read, hget]
      rfl
    have hstays : w.after (.read r ns name) = w := Site.eq_of_cluster rfl rfl
    rw [hread, hstays] at hfirst
    obtain ⟨hlast, happlied⟩ := modifyRound_of_runs hr hfirst
      (fun m hm => htime m (by simp [hm])) hget
    rcases hlater with ⟨n, hmore, -⟩ | ⟨hfound, rfl⟩
    · exact absurd hmore (hlast n)
    · have hcompleted : (∃ m, done = .ok m) → ∃ m, found = .ok (.inr m) := by
        rintro ⟨m, rfl⟩
        exact ⟨m, hfound⟩
      have hbehind := happlied.behind hstays hnot
      exact ⟨hbehind.same, fun h hdone => hbehind.changed h (hcompleted hdone)⟩
  · simp only [modifyRound, he.not_isNotFound, Bool.false_eq_true, if_false] at hfirst
    obtain ⟨rfl, rfl⟩ := Prog.Runs.eq_of_done hfirst
    rcases hlater with ⟨n, hmore, -⟩ | ⟨hfound, rfl⟩
    · cases hmore
    · refine (Applied.start ?_).behind rfl hnot
      rintro ⟨m, rfl⟩
      cases hfound

end Access

namespace Hooks

variable {hooks : Hooks} {target : Hook.Target} {event : Hook.Event} {now : Instant}

theorem leave_stamped {write : Nat} {o : Object} :
    hooks.leave target event now (Cluster.stamped write o) = Cluster.stamped write o ↔
      performAll hooks target event now o.knownMetadata = o.knownMetadata := by
  rw [leave_eq_self_iff rfl]
  exact performAll_eq_self_congr rfl rfl

/-- A stored object is changed by hooks, while nobody else acts and the clock stands still. -/
structure Modifies (hooks : Hooks) (target : Hook.Target) (event : Hook.Event) (now : Instant)
    (r : Resource) (ns name : Option String) (w : Site) (ms : List Moment)
    (done : Except VolumeExport.Fault Access.Modified) : Prop where
  runs : (Access.modify r ns name (Backing.hooked hooks target event r)).Runs .alone w ms done
  still : ∀ m ∈ ms, m.At now

variable {r : Resource} {ns name : Option String} {w : Site} {ms : List Moment} {o : Object}

theorem Modifies.applied {done : Except VolumeExport.Fault Access.Modified}
    (h : hooks.Modifies target event now r ns name w ms done) (hr : r.kind = target.kind)
    (hget : w.cluster.store.get? (.of r ns name) = some o) :
    Access.Applied hooks target event now w (.of r ns name) o ms (∃ m, done = .ok m) :=
  Access.modify_of_runs hr h.runs h.still hget

theorem Modifies.stored {m : Access.Modified}
    (h : hooks.Modifies target event now r ns name w ms (.ok m)) (hr : r.kind = target.kind)
    (hget : w.cluster.store.get? (.of r ns name) = some o) :
    ∃ stored, (w.along ms).cluster.store.get? (.of r ns name) = some stored ∧
      (hooks.leave target event now stored = stored ↔
        hooks.Settles target event (o.knownMetadata.finalizers.getD [])) ∧
      stored.knownMetadata.finalizers.getD [] =
        hooks.finalize target event (o.knownMetadata.finalizers.getD []) := by
  have happlied := h.applied hr hget
  by_cases hsame : hooks.leave target event now o = o
  · have hagain : hooks.leave target event now (hooks.leave target event now o) =
        hooks.leave target event now o ↔
          hooks.Settles target event (o.knownMetadata.finalizers.getD []) := leave_again_iff
    refine ⟨o, ?_, ?_, ?_⟩
    · rw [(happlied.same hsame).1, hget]
    · rwa [hsame] at hagain
    · rw [← finalizers_performAll_eq now, ← knownMetadata_leave, hsame]
  · obtain ⟨-, hstored⟩ := happlied.changed hsame ⟨m, rfl⟩
    refine ⟨_, hstored, ?_, ?_⟩
    · rw [leave_stamped, knownMetadata_leave, performAll_again_iff]
    · rw [← finalizers_performAll_eq now, ← knownMetadata_leave]
      rfl

/-- Hooks that are applied again at the same time change at most the order of the finalizers, and
not that if these settle at once; a third time they change nothing. So a stored object that hooks
have changed is written when they change it again unless its finalizers settle at once, and from
then on no more. -/
theorem apply_again (hooks : Hooks) (target : Hook.Target) (event : Hook.Event) (now : Instant)
    (o : Object) :
    ∃ once twice,
      hooks.apply target event (.ok now) target.kind o = .ok once ∧
      hooks.apply target event (.ok now) target.kind once = .ok twice ∧
      once.Rearranged twice ∧
      (twice = once ↔ hooks.Settles target event (o.knownMetadata.finalizers.getD [])) ∧
      hooks.apply target event (.ok now) target.kind twice = .ok twice ∧
      ∀ w r ns name first m second done, r.kind = target.kind →
        w.cluster.store.get? (.of r ns name) = some o →
        hooks.Modifies target event now r ns name w first (.ok m) →
        hooks.Modifies target event now r ns name (w.along first) second done →
        (hooks.Settles target event (o.knownMetadata.finalizers.getD []) →
          ∀ m ∈ second, ¬m.Rewrites) ∧
        ∀ m', done = .ok m' →
          (¬hooks.Settles target event (o.knownMetadata.finalizers.getD []) →
            ∃ m ∈ second, m.Rewrites) ∧
          ∀ third done', hooks.Modifies target event now r ns name ((w.along first).along second)
            third done' → ∀ m ∈ third, ¬m.Rewrites := by
  have hsettles (o : Object) : hooks.Settles target event
      ((hooks.leave target event now o).knownMetadata.finalizers.getD []) := by
    rw [knownMetadata_leave, finalizers_performAll_eq]
    exact settles_finalize _
  refine ⟨hooks.leave target event now o,
    hooks.leave target event now (hooks.leave target event now o), apply_eq_leave ..,
    apply_eq_leave .., hooks.rearranged_leave .., leave_again_iff, ?_, ?_⟩
  · rw [apply_eq_leave, leave_again_iff.2 (hsettles o)]
  · intro w r ns name first m second done hr hget hfirst hsecond
    obtain ⟨stored, hstored, hstored_iff, hfinalizers⟩ := hfirst.stored hr hget
    have happlied := hsecond.applied hr hstored
    refine ⟨fun h => (happlied.same (hstored_iff.2 h)).2, ?_⟩
    rintro m' rfl
    refine ⟨fun h => (happlied.changed (mt hstored_iff.1 h) ⟨m', rfl⟩).1, ?_⟩
    intro third done' hthird
    obtain ⟨stored', hstored', hstored'_iff, -⟩ := hsecond.stored hr hstored
    have hstill : hooks.leave target event now stored' = stored' := by
      rw [hstored'_iff, hfinalizers]
      exact settles_finalize _
    exact ((hthird.applied hr hstored').same hstill).2

instance (fs : List (Option String)) : Decidable (hooks.Settles target event fs) :=
  inferInstanceAs (Decidable (List.Pairwise _ _))

/-- Takes the finalizer `b` away and adds it again, and then adds `a`. -/
def renewing : Hooks := [
  ⟨"take", .create, .remove, [(.volume, ⟨∅, ["b"]⟩)]⟩,
  ⟨"give", .create, .add, [(.volume, ⟨∅, ["b"]⟩)]⟩,
  ⟨"more", .create, .add, [(.volume, ⟨∅, ["a"]⟩)]⟩]

def volume (finalizers : Option (List (Option String))) : Object where
  metadata := some { Metadata.empty with name := some "v", finalizers := finalizers }
  rest := []

def renewal (w : Site) : List Moment × Prog (Except VolumeExport.Fault Access.Modified) :=
  Prog.replay w (Access.modify .volume none (some "v")
    (Backing.hooked renewing .volume .create .volume)).run (List.replicate 3 .none)

def renewed : Nat → Site
  | 0 => .holding [(.volume, volume none)]
  | n + 1 => (renewed n).along (renewal (renewed n)).1

abbrev Renews (w : Site) (m : Access.Modified) : Prop :=
  renewing.Modifies .volume .create .first .volume none (some "v") w (renewal w).1 (.ok m)

theorem renews_of_result {m : Access.Modified} (h : (renewal w).2.result? = some (.ok m)) :
    Renews w m := by
  refine ⟨Prog.runs_replay ?_ h, Moment.at_replay _ _ _⟩
  intro i hi
  rw [List.eq_of_mem_replicate hi]
  exact Incident.among_none

def written (write : Nat) (finalizers : List String) : Object :=
  Cluster.stamped write (Cluster.stamped 1 (volume (some (finalizers.map some))))

theorem renews_once : Renews (renewed 0) ⟨some (written 2 ["b", "a"]), 1⟩ :=
  renews_of_result (by decide +kernel)

theorem renews_twice : Renews (renewed 1) ⟨some (written 3 ["a", "b"]), 1⟩ :=
  renews_of_result (by decide +kernel)

theorem renews_thrice : Renews (renewed 2) ⟨some (written 3 ["a", "b"]), 1⟩ :=
  renews_of_result (by decide +kernel)

/-- Hooks that are applied again may change an object, and write it. -/
theorem renewing_again :
    renewing.apply .volume .create (.ok .first) "PersistentVolume" (volume none) =
        .ok (volume (some [some "b", some "a"])) ∧
      renewing.apply .volume .create (.ok .first) "PersistentVolume"
        (volume (some [some "b", some "a"])) = .ok (volume (some [some "a", some "b"])) ∧
      Renews (renewed 0) ⟨some (written 2 ["b", "a"]), 1⟩ ∧
      Renews (renewed 1) ⟨some (written 3 ["a", "b"]), 1⟩ ∧
      ∃ m ∈ (renewal (renewed 1)).1, m.Rewrites :=
  ⟨by decide +kernel, by decide +kernel, renews_once, renews_twice, by decide +kernel⟩

theorem apply_again_renewing :
    Renews (renewed 2) ⟨some (written 3 ["a", "b"]), 1⟩ ∧
      (∃ m ∈ (renewal (renewed 1)).1, m.Rewrites) ∧ ∀ m ∈ (renewal (renewed 2)).1, ¬m.Rewrites := by
  obtain ⟨_, _, -, -, -, -, -, hruns⟩ := apply_again renewing .volume .create .first
    (Cluster.stamped 1 (volume none))
  obtain ⟨-, hsecond⟩ := hruns (renewed 0) .volume none (some "v") _ _ _ _ rfl (by decide +kernel)
    renews_once renews_twice
  obtain ⟨hwrites, hthird⟩ := hsecond _ rfl
  exact ⟨renews_thrice, hwrites (by decide +kernel), hthird _ _ renews_thrice⟩

end Hooks

end VolumeExport
