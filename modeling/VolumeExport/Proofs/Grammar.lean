import Mathlib.Data.List.Forall2
import Mathlib.Data.Set.List
import VolumeExport.Hook.Document
import VolumeExport.Proofs.Markup.Check
import VolumeExport.Proofs.Markup.Form

namespace VolumeExport

open Markup

namespace Hook

theorem Event.name_mem (event : Event) : event.name ∈ Event.all.map Event.name := by
  cases event <;> decide

theorem Action.name_mem (action : Hook.Action) :
    action.name ∈ [Action.name .add, Action.name .remove] := by
  cases action <;> decide

theorem Target.mem_all (target : Target) : target ∈ Target.all := by
  cases target <;> decide

end Hook

namespace Hooks

open Hook Schema

variable {path : Path} {v : Value}

inductive IsDict : Option Value → Dict String → Prop
  | none : IsDict .none ∅
  | some {v ps} : v.entries? = .some (ps.map fun p => (Value.text p.1, Value.text p.2)) →
      IsDict (.some v) (.ofList ps)

section

-- What counts as a list: lists alone, or whatever has items in order.
variable (items? : Value → Option (List Value))

inductive IsTexts : Option Value → List String → Prop
  | none : IsTexts .none []
  | some {v ts} : items? v = .some (ts.map Value.text) → IsTexts (.some v) ts

def IsChange (v : Value) (c : Change) : Prop :=
  ∃ es, v.entries? = some es ∧
    (∀ e ∈ es, ∃ name ∈ ["annotations", "finalizers"], e.1 = .text name) ∧
    IsDict (Value.given? "annotations" es) c.annotations ∧
    IsTexts items? (Value.given? "finalizers" es) c.finalizers

/-- A value that stands for a hook. There is a change for a target exactly if its block is given, in
the order of the targets. -/
def IsHook (v : Value) (h : Hook) : Prop :=
  ∃ es, v.entries? = some es ∧
    (∀ e ∈ es, ∃ name ∈ ["name", "event", "action"] ++ Target.all.map Target.field,
      e.1 = .text name) ∧
    Value.look "name" es = some (.text h.name) ∧
    Value.look "event" es = some (.text h.event.name) ∧
    Value.look "action" es = some (.text h.action.name) ∧
    h.changes.map (·.1) = Target.all.filter (fun t => (Value.given? t.field es).isSome) ∧
    ∀ p ∈ h.changes, ∃ block, Value.given? p.1.field es = some block ∧ IsChange items? block p.2

/-- A value that stands for hooks, with the version of its form. -/
def Declares (version : String) (v : Value) (hooks : Hooks) : Prop :=
  ∃ es, v.entries? = some es ∧
    (∀ e ∈ es, ∃ name ∈ ["version", "hooks"], e.1 = .text name) ∧
    Value.look "version" es = some (.text version) ∧
    match Value.given? "hooks" es with
    | none => hooks = []
    | some found => ∃ items, items? found = some items ∧ List.Forall₂ (IsHook items?) items hooks

end

theorem isDict_iff (path : Path) {found : Option Value} {d : Dict String} :
    IsDict found d ↔ (∀ a, found = some a → faults path (.dictionary .text) a = .ok []) ∧
      Dict.ofList (((found.bind Value.entries?).getD []).filterMap
        fun e => do return (← e.1.text?, ← e.2.text?)) = d := by
  have hread (ps : List (String × String)) :
      (ps.map fun p => (Value.text p.1, Value.text p.2)).filterMap
        (fun e => do return (← e.1.text?, ← e.2.text?)) = ps := by
    rw [List.filterMap_map]
    exact List.filterMap_some
  constructor
  · intro h
    cases h with
    | none => exact ⟨nofun, rfl⟩
    | @some a ps ha =>
      rw [Option.bind_some, ha, Option.getD_some, hread]
      refine ⟨?_, rfl⟩
      rintro _ ⟨⟩
      rw [dictionary_eq_nil_iff]
      refine ⟨_, ha, List.forall_mem_map.2 fun p _ => ⟨p.1, rfl, ?_⟩⟩
      exact text_eq_nil_iff.2 ⟨p.2, rfl⟩
  · rintro ⟨hform, rfl⟩
    cases found with
    | none => exact .none
    | some a =>
      obtain ⟨es, hes, htexts⟩ := dictionary_eq_nil_iff.1 (hform a rfl)
      obtain ⟨ps, rfl⟩ : es ∈ Set.range
          (List.map fun p : String × String => (Value.text p.1, Value.text p.2)) := by
        rw [Set.range_list_map]
        intro e he
        obtain ⟨key, hkey, hvalue⟩ := htexts e he
        obtain ⟨t, ht⟩ := text_eq_nil_iff.1 hvalue
        exact ⟨(key, t), Prod.ext hkey.symm ht.symm⟩
      rw [Option.bind_some, hes, Option.getD_some, hread]
      exact .some hes

theorem isTexts_iff (path : Path) {found : Option Value} {ts : List String} :
    IsTexts Value.ordered? found ts ↔ (∀ a, found = some a → faults path (.list .text) a = .ok []) ∧
      (found.map texts).getD [] = ts := by
  have hread (ts : List String) : (ts.map Value.text).filterMap Value.text? = ts := by
    rw [List.filterMap_map]
    exact List.filterMap_some
  constructor
  · intro h
    cases h with
    | none => exact ⟨nofun, rfl⟩
    | @some a ts ha =>
      rw [Option.map_some, Option.getD_some, texts, ha, Option.getD_some, hread]
      refine ⟨?_, rfl⟩
      rintro _ ⟨⟩
      rw [list_eq_nil_iff]
      refine ⟨_, ha, fun p hp => ?_⟩
      obtain ⟨t, -, ht⟩ := List.mem_map.1 (List.fst_mem_of_mem_zipIdx hp)
      exact text_eq_nil_iff.2 ⟨t, ht.symm⟩
  · rintro ⟨hform, rfl⟩
    cases found with
    | none => exact .none
    | some a =>
      obtain ⟨vs, hvs, htexts⟩ := list_eq_nil_iff.1 (hform a rfl)
      obtain ⟨ts, rfl⟩ : vs ∈ Set.range (List.map Value.text) := by
        rw [Set.range_list_map]
        intro x hx
        rw [← List.zipIdx_map_fst 0 vs] at hx
        obtain ⟨p, hp, rfl⟩ := List.mem_map.1 hx
        obtain ⟨t, ht⟩ := text_eq_nil_iff.1 (htexts p hp)
        exact ⟨t, ht.symm⟩
      rw [Option.map_some, Option.getD_some, texts, hvs, Option.getD_some, hread]
      exact .some hvs

theorem isChange_iff (path : Path) {c : Change} :
    IsChange Value.ordered? v c ↔ faults path changeSchema v = .ok [] ∧ change v = c := by
  rw [changeSchema, record_eq_nil_iff, IsChange, ← exists_and_right]
  refine exists_congr fun es => ?_
  rw [and_assoc, and_assoc]
  refine and_congr_right fun hes => and_congr_right fun _ => ?_
  have hannotations : (v.field? "annotations").bind Value.entries? =
      (Value.given? "annotations" es).bind Value.entries? := by
    rw [Value.field?, hes, Option.bind_some, Value.given?]
    cases Value.look "annotations" es with
    | none => rfl
    | some a => cases a <;> rfl
  have hfinalizers : ((v.field? "finalizers").map texts).getD [] =
      ((Value.given? "finalizers" es).map texts).getD [] := by
    rw [Value.field?, hes, Option.bind_some, Value.given?]
    cases Value.look "finalizers" es with
    | none => rfl
    | some a => cases a <;> rfl
  rw [given_eq_nil_iff, given_eq_nil_iff, isDict_iff (path ++ ["annotations"]),
    isTexts_iff (path ++ ["finalizers"]), change, hannotations, hfinalizers]
  cases c
  simp only [Change.mk.injEq]
  tauto

theorem blocks_iff {α β : Type} {targets : List Target} {block? : Target → Option α} {f : α → β}
    {blocks : List (Target × β)} :
    targets.filterMap (fun t => (block? t).map fun a => (t, f a)) = blocks ↔
      blocks.map (·.1) = targets.filter (fun t => (block? t).isSome) ∧
        ∀ p ∈ blocks, ∃ a, block? p.1 = some a ∧ f a = p.2 := by
  induction targets generalizing blocks with
  | nil =>
    constructor
    · rintro rfl
      exact ⟨rfl, nofun⟩
    · rintro ⟨hnames, -⟩
      exact (List.map_eq_nil_iff.1 hnames).symm
  | cons t targets ih =>
    rw [List.filterMap_cons, List.filter_cons]
    cases ht : block? t with
    | none => simpa using ih
    | some a =>
      simp only [Option.map_some, Option.isSome_some, if_true]
      cases blocks with
      | nil => simp
      | cons p blocks =>
        simp only [List.cons.injEq, List.map_cons, List.forall_mem_cons, ih]
        constructor
        · rintro ⟨rfl, hnames, hblocks⟩
          exact ⟨⟨rfl, hnames⟩, ⟨a, ht, rfl⟩, hblocks⟩
        · rintro ⟨⟨hname, hnames⟩, ⟨b, hb, hvalue⟩, hblocks⟩
          rw [hname, ht] at hb
          cases hb
          exact ⟨Prod.ext hname.symm hvalue, hnames, hblocks⟩

theorem event_ofName?_eq_some_iff {name : String} {event : Event} :
    Event.ofName? name = some event ↔ name = event.name := by
  constructor
  · intro h
    have hname := List.find?_some h
    exact (of_decide_eq_true hname).symm
  · rintro rfl
    cases event <;> rfl

theorem action_ofName?_eq_some_iff {name : String} {action : Hook.Action} :
    Action.ofName? name = some action ↔ name = action.name := by
  constructor
  · intro h
    have hname := List.find?_some h
    exact (of_decide_eq_true hname).symm
  · rintro rfl
    cases action <;> rfl

theorem hook?_eq_some_iff {es : List (Value × Value)} {h : Hook} (hes : v.entries? = some es) :
    hook? v = some h ↔ Value.look "name" es = some (.text h.name) ∧
      Value.look "event" es = some (.text h.event.name) ∧
      Value.look "action" es = some (.text h.action.name) ∧
      Target.all.filterMap (fun t => (Value.given? t.field es).map fun a => (t, change a)) =
        h.changes := by
  have hfield (name : String) : v.field? name = Value.look name es := by
    rw [Value.field?, hes, Option.bind_some]
  have htext {name t : String} : (Value.look name es).bind Value.text? = some t ↔
      Value.look name es = some (.text t) := by
    simp only [Option.bind_eq_some_iff, text?_eq_some_iff, exists_eq_right]
  have hblock (t : Target) : ((Value.look t.field es).bind fun block =>
      if block.isNull then none else some (t, change block)) =
        (Value.given? t.field es).map fun a => (t, change a) := by
    rw [Value.given?]
    cases Value.look t.field es with
    | none => rfl
    | some a => cases a <;> rfl
  rw [hook?]
  simp only [hfield, Option.bind_eq_bind, Option.pure_def, hblock, Option.bind_eq_some_iff, htext,
    event_ofName?_eq_some_iff, action_ofName?_eq_some_iff, Option.some.injEq]
  constructor
  · rintro ⟨name, hname, _, hevent, event, rfl, _, haction, action, rfl, rfl⟩
    exact ⟨hname, hevent, haction, rfl⟩
  · rintro ⟨hname, hevent, haction, hchanges⟩
    rw [hchanges]
    exact ⟨_, hname, _, hevent, _, rfl, _, haction, _, rfl, rfl⟩

theorem isHook_iff (path : Path) {h : Hook} :
    IsHook Value.ordered? v h ↔ faults path hookSchema v = .ok [] ∧ hook? v = some h := by
  rw [hookSchema, record_eq_nil_iff, IsHook, ← exists_and_right]
  refine exists_congr fun es => ?_
  rw [and_assoc, and_assoc]
  refine and_congr_right fun hes => ?_
  have hnames : (([("name", true, Schema.text),
      ("event", true, .word (Event.all.map Event.name)),
      ("action", true, .word [Action.name .add, Action.name .remove])] ++
      Target.all.map fun t => (t.field, false, changeSchema)).map (·.1)) =
        ["name", "event", "action"] ++ Target.all.map Target.field := rfl
  rw [hnames, hook?_eq_some_iff hes]
  refine and_congr_right fun _ => ?_
  simp only [List.cons_append, List.nil_append, required_eq_nil_iff, text_eq_nil_iff,
    word_eq_nil_iff, givens_eq_nil_iff, and_assoc, blocks_iff]
  constructor
  · rintro ⟨hname, hevent, haction, hnames, hblocks⟩
    refine ⟨⟨_, hname, _, rfl⟩, ⟨_, hevent, _, h.event.name_mem, rfl⟩,
      ⟨_, haction, _, h.action.name_mem, rfl⟩, fun t ht a ha => ?_, hname, hevent, haction, hnames,
      fun p hp => ?_⟩
    · have hmem : t ∈ h.changes.map (·.1) := by
        rw [hnames, List.mem_filter]
        exact ⟨ht, by rw [ha]; rfl⟩
      obtain ⟨p, hp, rfl⟩ := List.mem_map.1 hmem
      obtain ⟨block, hblock, hchange⟩ := hblocks p hp
      rw [ha] at hblock
      cases hblock
      exact ((isChange_iff _).1 hchange).1
    · obtain ⟨block, hblock, hchange⟩ := hblocks p hp
      exact ⟨block, hblock, ((isChange_iff path).1 hchange).2⟩
  · rintro ⟨-, -, -, hforms, hname, hevent, haction, hnames, hblocks⟩
    refine ⟨hname, hevent, haction, hnames, fun p hp => ?_⟩
    obtain ⟨block, hblock, hchange⟩ := hblocks p hp
    exact ⟨block, hblock, (isChange_iff _).2 ⟨hforms p.1 p.1.mem_all block hblock, hchange⟩⟩

theorem exists_isHook_iff :
    (∃ hook, IsHook Value.ordered? v hook) ↔ faults path hookSchema v = .ok [] := by
  refine ⟨fun ⟨_, h⟩ => ((isHook_iff path).1 h).1, fun h => ?_⟩
  have hform := h
  rw [hookSchema, record_eq_nil_iff] at hform
  obtain ⟨es, hes, -, hfields⟩ := hform
  simp only [List.cons_append, List.nil_append, required_eq_nil_iff, text_eq_nil_iff,
    word_eq_nil_iff] at hfields
  obtain ⟨⟨_, hname, name, rfl⟩, ⟨_, hevent, _, hmem, rfl⟩, ⟨_, haction, word, hword, rfl⟩, -⟩ :=
    hfields
  obtain ⟨event, -, rfl⟩ := List.mem_map.1 hmem
  obtain ⟨action, rfl⟩ : ∃ action : Hook.Action, word = action.name :=
    (List.mem_pair.1 hword).elim (fun h => ⟨.add, h⟩) fun h => ⟨.remove, h⟩
  exact ⟨⟨name, event, action, _⟩, (isHook_iff path).2 ⟨h, (hook?_eq_some_iff hes).2
    ⟨hname, hevent, haction, rfl⟩⟩⟩

theorem forall₂_isHook_iff {items : List Value} {hooks : Hooks} :
    List.Forall₂ (IsHook Value.ordered?) items hooks ↔
      (∀ x ∈ items, ∃ hook, IsHook Value.ordered? x hook) ∧ items.filterMap hook? = hooks := by
  have hread {x : Value} {hook : Hook} (h : IsHook Value.ordered? x hook) : hook? x = some hook :=
    ((isHook_iff []).1 h).2
  induction items generalizing hooks with
  | nil =>
    constructor
    · rintro ⟨⟩
      exact ⟨nofun, rfl⟩
    · rintro ⟨-, rfl⟩
      exact .nil
  | cons x items ih =>
    rw [List.forall_mem_cons]
    constructor
    · intro h
      cases h with
      | cons hx hitems =>
        obtain ⟨hforms, hrest⟩ := ih.1 hitems
        rw [List.filterMap_cons, hread hx, hrest]
        exact ⟨⟨⟨_, hx⟩, hforms⟩, rfl⟩
    · rintro ⟨⟨⟨hook, hx⟩, hforms⟩, rfl⟩
      rw [List.filterMap_cons, hread hx]
      exact .cons hx (ih.2 ⟨hforms, rfl⟩)

theorem declares_iff (path : Path) {version : String} {hooks : Hooks} :
    Declares Value.ordered? version v hooks ↔ faults path schema v = .ok [] ∧
      (v.field? "version").bind Value.text? = some version ∧
      (((v.field? "hooks").bind Value.ordered?).getD []).filterMap hook? = hooks := by
  rw [schema, record_eq_nil_iff, Declares, ← exists_and_right]
  refine exists_congr fun es => ?_
  rw [and_assoc, and_assoc]
  refine and_congr_right fun hes => and_congr_right fun _ => ?_
  have hversion : (v.field? "version").bind Value.text? = some version ↔
      Value.look "version" es = some (.text version) := by
    rw [Value.field?, hes, Option.bind_some, Option.bind_eq_some_iff]
    simp only [text?_eq_some_iff, exists_eq_right]
  have hordered : (v.field? "hooks").bind Value.ordered? =
      (Value.given? "hooks" es).bind Value.ordered? := by
    rw [Value.field?, hes, Option.bind_some, Value.given?]
    cases Value.look "hooks" es with
    | none => rfl
    | some a => cases a <;> rfl
  rw [hversion, hordered, required_eq_nil_iff, given_eq_nil_iff]
  simp only [text_eq_nil_iff, list_eq_nil_iff]
  constructor
  · rintro ⟨hlook, hhooks⟩
    refine ⟨⟨⟨_, hlook, version, rfl⟩, ?_, rfl⟩, hlook, ?_⟩
    · intro found hfound
      rw [hfound] at hhooks
      obtain ⟨items, hitems, hhooks⟩ := hhooks
      refine ⟨items, hitems, fun p hp => exists_isHook_iff.1 ?_⟩
      exact (forall₂_isHook_iff.1 hhooks).1 _ (List.fst_mem_of_mem_zipIdx hp)
    · cases hfound : Value.given? "hooks" es with
      | none =>
        rw [hfound] at hhooks
        exact hhooks.symm
      | some found =>
        rw [hfound] at hhooks
        obtain ⟨items, hitems, hhooks⟩ := hhooks
        rw [Option.bind_some, hitems]
        exact (forall₂_isHook_iff.1 hhooks).2
  · rintro ⟨⟨-, hforms, -⟩, hlook, hhooks⟩
    refine ⟨hlook, ?_⟩
    cases hfound : Value.given? "hooks" es with
    | none =>
      rw [hfound] at hhooks
      exact hhooks.symm
    | some found =>
      obtain ⟨items, hitems, hform⟩ := hforms found hfound
      rw [hfound, Option.bind_some, hitems] at hhooks
      refine ⟨items, hitems, forall₂_isHook_iff.2 ⟨fun x hx => ?_, hhooks⟩⟩
      rw [← List.zipIdx_map_fst 0 items] at hx
      obtain ⟨p, hp, rfl⟩ := List.mem_map.1 hx
      exact exists_isHook_iff.2 (hform p hp)

theorem Declares.mono {items? items?' : Value → Option (List Value)} {version : String}
    {hooks : Hooks} (hle : ∀ v vs, items? v = some vs → items?' v = some vs)
    (h : Declares items? version v hooks) : Declares items?' version v hooks := by
  have htexts {found : Option Value} {ts : List String} (h : IsTexts items? found ts) :
      IsTexts items?' found ts := by
    cases h with
    | none => exact .none
    | some hts => exact .some (hle _ _ hts)
  have hchange {v : Value} {c : Change} (h : IsChange items? v c) : IsChange items?' v c := by
    obtain ⟨es, hes, hnames, hannotations, hfinalizers⟩ := h
    exact ⟨es, hes, hnames, hannotations, htexts hfinalizers⟩
  have hhook {v : Value} {hook : Hook} (h : IsHook items? v hook) : IsHook items?' v hook := by
    obtain ⟨es, hes, hnames, hname, hevent, haction, htargets, hblocks⟩ := h
    refine ⟨es, hes, hnames, hname, hevent, haction, htargets, fun p hp => ?_⟩
    obtain ⟨block, hblock, h⟩ := hblocks p hp
    exact ⟨block, hblock, hchange h⟩
  obtain ⟨es, hes, hnames, hversion, hhooks⟩ := h
  refine ⟨es, hes, hnames, hversion, ?_⟩
  cases hfound : Value.given? "hooks" es with
  | none =>
    rw [hfound] at hhooks
    exact hhooks
  | some found =>
    rw [hfound] at hhooks
    obtain ⟨items, hitems, h⟩ := hhooks
    exact ⟨items, hle _ _ hitems, h.imp fun _ _ => hhook⟩

theorem ordered?_of_items? {vs : List Value} (h : v.items? = some vs) : v.ordered? = some vs := by
  rw [Value.items?] at h
  rw [Value.ordered?]
  split at h
  · cases h
    rename_i heq
    rw [heq]
  · cases h

theorem exists_declares_iff : (∃ version hooks, Declares Value.ordered? version v hooks) ↔
    faults path schema v = .ok [] := by
  refine ⟨fun ⟨_, _, h⟩ => ((declares_iff path).1 h).1, fun h => ?_⟩
  have hform := h
  rw [schema, record_eq_nil_iff] at hform
  obtain ⟨es, hes, -, hfields⟩ := hform
  obtain ⟨⟨a, hlook, htext⟩, -⟩ := required_eq_nil_iff.1 hfields
  obtain ⟨version, rfl⟩ := text_eq_nil_iff.1 htext
  refine ⟨version, _, (declares_iff path).2 ⟨h, ?_, rfl⟩⟩
  rw [Value.field?, hes, Option.bind_some, hlook]
  rfl

/-- A document of the form of hooks is read, or refused for its version. -/
theorem ofValue_of_declares {version : String} {hooks : Hooks}
    (h : Declares Value.ordered? version v hooks) : ofValue v =
      if version = supportedVersion then .ok hooks else .error (.unsupported version) := by
  obtain ⟨hform, hversion, hhooks⟩ := (declares_iff []).1 h
  obtain ⟨es, hes, -⟩ := h
  rw [ofValue, hform, hversion, hhooks, hes]
  by_cases hsupported : version = supportedVersion
  · rw [if_pos hsupported, hsupported]
    rfl
  · rw [if_neg hsupported]
    change (if version ≠ supportedVersion then _ else _) = _
    rw [if_pos hsupported]
    rfl

/-- Whatever has another form is refused, or has a number that cannot be shown. -/
theorem ofValue_of_not_declares
    (h : ¬∃ version hooks, Declares Value.ordered? version v hooks) :
    ∃ e, ofValue v = .error e ∧
      ((∃ cause, e = .refused cause) ∨ (e = .unwritable .tooLarge ∧ v.oversized)) := by
  rw [ofValue]
  cases hes : v.entries? with
  | none => exact ⟨_, rfl, .inl ⟨_, rfl⟩⟩
  | some es =>
    cases hform : faults [] schema v with
    | error e =>
      obtain ⟨rfl, hbig⟩ := faults_failsAs [] schema v e hform
      exact ⟨_, rfl, .inr ⟨rfl, hbig⟩⟩
    | ok lines =>
      cases lines with
      | nil => exact absurd (exists_declares_iff.2 hform) h
      | cons line lines => exact ⟨_, rfl, .inl ⟨_, rfl⟩⟩

theorem ofValue_eq_ok_iff {hooks : Hooks} :
    ofValue v = .ok hooks ↔ Declares Value.ordered? supportedVersion v hooks := by
  refine ⟨fun hok => ?_, fun h => by rw [ofValue_of_declares h, if_pos rfl]⟩
  by_cases hdeclares : ∃ version hooks, Declares Value.ordered? version v hooks
  · obtain ⟨version, hooks', h⟩ := hdeclares
    rw [ofValue_of_declares h] at hok
    split at hok
    · next heq =>
      cases hok
      rwa [← heq]
    · cases hok
  · obtain ⟨e, herror, -⟩ := ofValue_of_not_declares hdeclares
    rw [herror] at hok
    cases hok

theorem ofValue_eq_unsupported_iff {version : String} :
    ofValue v = .error (.unsupported version) ↔
      version ≠ supportedVersion ∧ ∃ hooks, Declares Value.ordered? version v hooks := by
  constructor
  · intro herror
    by_cases hdeclares : ∃ version hooks, Declares Value.ordered? version v hooks
    · obtain ⟨version', hooks, h⟩ := hdeclares
      rw [ofValue_of_declares h] at herror
      split at herror
      · cases herror
      · next hne =>
        cases herror
        exact ⟨hne, hooks, h⟩
    · obtain ⟨e, he, hcause⟩ := ofValue_of_not_declares hdeclares
      rw [he] at herror
      cases herror
      obtain ⟨cause, ⟨⟩⟩ | ⟨⟨⟩, -⟩ := hcause
  · rintro ⟨hne, hooks, h⟩
    rw [ofValue_of_declares h, if_neg hne]

theorem ofValue_failsAs :
    FailsAs (fun e => (∃ version, e = .unsupported version) ∨ (∃ cause, e = .refused cause) ∨
      (e = .unwritable .tooLarge ∧ v.oversized)) (ofValue v) := by
  intro e herror
  by_cases hdeclares : ∃ version hooks, Declares Value.ordered? version v hooks
  · obtain ⟨version, hooks, h⟩ := hdeclares
    rw [ofValue_of_declares h] at herror
    split at herror
    · cases herror
    · cases herror
      exact .inl ⟨version, rfl⟩
  · obtain ⟨e', he, hcause⟩ := ofValue_of_not_declares hdeclares
    rw [he] at herror
    cases herror
    exact .inr hcause

theorem parse_of_readBytes {bytes : List UInt8} (h : Value.readBytes bytes = .ok v) :
    parse bytes = ofValue v := by
  rw [parse, h]
  rfl

/-- A document is read exactly if it belongs to the grammar with the version that is supported, as
the hooks that it declares. -/
theorem parse_iff_declares {bytes : List UInt8} (hread : Value.readBytes bytes = .ok v) :
    (∀ hooks, parse bytes = .ok hooks ↔ Declares Value.ordered? supportedVersion v hooks) ∧
      (∀ hooks, Declares Value.items? supportedVersion v hooks → parse bytes = .ok hooks) ∧
      (∀ version, parse bytes = .error (.unsupported version) ↔
        version ≠ supportedVersion ∧ ∃ hooks, Declares Value.ordered? version v hooks) ∧
      ∀ e, parse bytes = .error e → (∃ version, e = .unsupported version) ∨
        (∃ cause, e = .refused cause) ∨ (e = .unwritable .tooLarge ∧ v.oversized) := by
  rw [parse_of_readBytes hread]
  refine ⟨fun _ => ofValue_eq_ok_iff, fun hooks h => ?_, fun _ => ofValue_eq_unsupported_iff,
    ofValue_failsAs⟩
  exact ofValue_eq_ok_iff.2 (h.mono fun _ _ => ordered?_of_items?)

def single : List UInt8 :=
  ("\x7bversion: 1.0.0, hooks: [\x7bname: a, event: Create, action: Add, nfsPV: \x7b" ++
    "finalizers: [b]\x7d\x7d]\x7d").toUTF8.data.toList

theorem parse_iff_declares_single :
    ∃ v, Value.readBytes single = .ok v ∧ Declares Value.ordered? supportedVersion v
      [⟨"a", .create, .add, [(.volume, ⟨∅, ["b"]⟩)]⟩] := by
  obtain ⟨v, hread, hvalue⟩ := exists_ok_of_check (Value.readBytes single)
    (fun v => ofValue v = .ok [⟨"a", .create, .add, [(.volume, ⟨∅, ["b"]⟩)]⟩])
    (by decide +kernel)
  refine ⟨v, hread, ((parse_iff_declares hread).1 _).1 ?_⟩
  rw [parse_of_readBytes hread]
  exact of_decide_eq_true hvalue

/-- Bytes in the place of a list, of which there are none. -/
def hollow : List UInt8 := "\x7bversion: 1.0.0, hooks: !!binary ''\x7d".toUTF8.data.toList

/-- Not only lists are read as hooks. -/
theorem read_hollow :
    ¬∀ (bytes : List UInt8) (v : Value) (hooks : Hooks), Value.readBytes bytes = .ok v →
      parse bytes = .ok hooks → Declares Value.items? supportedVersion v hooks := by
  intro h
  obtain ⟨v, hread, hcheck⟩ := exists_ok_of_check (Value.readBytes hollow)
    (fun v => (v.field? "hooks").any (fun a => !a.isNull && a.items?.isNone) &&
      decide (ofValue v = .ok []))
    (by decide +kernel)
  obtain ⟨hfield, hvalue⟩ := Bool.and_eq_true_iff.1 hcheck
  have hparse : parse hollow = .ok [] := by
    rw [parse_of_readBytes hread]
    exact of_decide_eq_true hvalue
  obtain ⟨es, hes, -, -, hhooks⟩ := h hollow v [] hread hparse
  rw [Value.field?, hes, Option.bind_some, Option.any_eq_true] at hfield
  obtain ⟨found, hfound, hform⟩ := hfield
  obtain ⟨hnull, hnone⟩ := Bool.and_eq_true_iff.1 hform
  rw [Bool.not_eq_true'] at hnull
  rw [Value.given?_eq_some_iff.2 ⟨hfound, hnull⟩] at hhooks
  obtain ⟨items, hitems, -⟩ := hhooks
  rw [hitems] at hnone
  cases hnone

end Hooks

end VolumeExport
