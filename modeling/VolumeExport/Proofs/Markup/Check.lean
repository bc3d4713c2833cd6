import VolumeExport.Markup.Schema
import VolumeExport.Proofs.Markup.Oversized

namespace VolumeExport.Markup.Schema

open Numeral (Overflow)

variable {P : Numeral.Fault → Prop} {path : Path} {v : Value}

theorem concat_failsAs {reports : List Report} (h : ∀ r ∈ reports, FailsAs P r) :
    FailsAs P (concat reports) :=
  (failsAs_mapM h).bind fun _ _ => failsAs_ok _

theorem wrongKind_failsAs (path : Path) (v : Value) (kind : String) :
    FailsAs (Overflow v.oversized) (wrongKind path v kind) :=
  Value.plainText_failsAs.bind fun _ _ => failsAs_ok _

theorem kind_failsAs (path : Path) (v : Value) (kind : String) (fits : Bool) :
    FailsAs (Overflow v.oversized) (if fits then .ok [] else wrongKind path v kind) := by
  split
  · exact failsAs_ok _
  · exact wrongKind_failsAs path v kind

theorem unexpected_failsAs {es : List (Value × Value)} (names : List String)
    (h : v.entries? = some es) :
    FailsAs (Overflow v.oversized) (unexpected path names es) := by
  apply failsAs_mapM
  intro e he
  have hkey : e.1.oversized → v.oversized := fun hk =>
    Value.oversized_of_entries h (List.mem_filter.1 he).1 (.inl hk)
  exact (Value.plainText_failsAs.part hkey).bind fun _ _ => failsAs_ok _

mutual

theorem faults_failsAs (path : Path) :
    (s : Schema) → (v : Value) → FailsAs (Overflow v.oversized) (faults path s v)
  | .text, v => by
    rw [faults]
    exact kind_failsAs path v _ _
  | .whole, v => by
    rw [faults]
    exact kind_failsAs path v _ _
  | .number, v => by
    rw [faults]
    exact kind_failsAs path v _ _
  | .truth, v => by
    rw [faults]
    exact kind_failsAs path v _ _
  | .word options, v => by
    rw [faults]
    split
    · exact failsAs_ok _
    · exact Value.plainText_failsAs.bind fun _ _ => failsAs_ok _
  | .mapping, v => by
    rw [faults]
    exact kind_failsAs path v _ _
  | .dictionary values, v => by
    rw [faults]
    split
    · exact wrongKind_failsAs path v _
    · next entries h =>
      have hkeys : FailsAs (Overflow v.oversized)
          (concat ((entries.filter fun e => !isText e.1).map fun e => wrongKey path e.1)) := by
        apply concat_failsAs
        intro r hr
        obtain ⟨e, he, rfl⟩ := List.mem_map.1 hr
        have hkey : e.1.oversized → v.oversized := fun hk =>
          Value.oversized_of_entries h (List.mem_filter.1 he).1 (.inl hk)
        exact (Value.plainText_failsAs.part hkey).bind fun _ _ => failsAs_ok _
      have hvalues : FailsAs (Overflow v.oversized) (concat (entries.map fun e => do
          faults (path ++ [← e.1.plainText]) values e.2)) := by
        apply concat_failsAs
        intro r hr
        obtain ⟨e, he, rfl⟩ := List.mem_map.1 hr
        have hpart : e.1.oversized ∨ e.2.oversized → v.oversized := fun hk =>
          Value.oversized_of_entries h he hk
        exact (Value.plainText_failsAs.part fun hk => hpart (.inl hk)).bind fun _ _ =>
          (faults_failsAs _ values e.2).part fun hk => hpart (.inr hk)
      apply hkeys.bind
      intro keys _
      split
      · exact failsAs_ok _
      · exact hvalues
  | .list items, v => by
    rw [faults]
    split
    · exact wrongKind_failsAs path v _
    · next vs h =>
      apply concat_failsAs
      intro r hr
      obtain ⟨i, hi, rfl⟩ := List.mem_mapIdx.1 hr
      exact (faults_failsAs _ items _).part fun hx =>
        Value.oversized_of_ordered h (List.getElem_mem hi) hx
  | .any options, v => by
    rw [faults]
    exact (allFaults_failsAs path options v).bind fun _ _ => failsAs_ok _
  | .record fields, v => by
    rw [faults]
    split
    · exact Value.plainText_failsAs.bind fun _ _ => failsAs_ok _
    · next entries h =>
      exact (unexpected_failsAs _ h).bind fun _ _ =>
        (fieldFaults_failsAs path fields entries fun k x hmem hx =>
          Value.oversized_of_entries h hmem (.inr hx)).bind fun _ _ => failsAs_ok _

theorem allFaults_failsAs (path : Path) :
    (ss : List Schema) → (v : Value) → FailsAs (Overflow v.oversized) (allFaults path ss v)
  | [], v => failsAs_ok _
  | s :: ss, v => by
    rw [allFaults]
    exact (faults_failsAs path s v).bind fun _ _ =>
      (allFaults_failsAs path ss v).bind fun _ _ => failsAs_ok _

theorem fieldFaults_failsAs (path : Path) {b : Bool} :
    (fields : List (String × Bool × Schema)) → (es : List (Value × Value)) →
      (∀ k x, (k, x) ∈ es → x.oversized → b) → FailsAs (Overflow b) (fieldFaults path fields es)
  | [], es, _ => failsAs_ok _
  | (name, required, s) :: fields, es, hes => by
    rw [fieldFaults]
    have hmore (here : List String) : FailsAs (Overflow b)
        (do return here ++ (← fieldFaults path fields es)) :=
      (fieldFaults_failsAs path fields es hes).bind fun _ _ => failsAs_ok _
    split
    · exact (failsAs_ok _).bind fun here _ => hmore here
    · next v hv =>
      obtain ⟨k, hk⟩ := Value.mem_of_look hv
      split
      · exact (failsAs_ok _).bind fun here _ => hmore here
      · exact ((faults_failsAs _ s v).part (hes k v hk)).bind fun here _ => hmore here

end

theorem fits_of_fieldFaults {fields : List (String × Bool × Schema)} {es : List (Value × Value)}
    (h : fieldFaults path fields es = .ok []) :
    ∀ f ∈ fields, ∀ v, Value.look f.1 es = some v →
      (f.2.1 = false ∧ v.isNull) ∨ faults (path ++ [f.1]) f.2.2 v = .ok [] := by
  induction fields with
  | nil => nofun
  | cons f fields ih =>
    obtain ⟨name, required, s⟩ := f
    rw [fieldFaults] at h
    have hsplit {r : Report} (h : (do
        let here ← r
        return here ++ (← fieldFaults path fields es)) = .ok []) :
        r = .ok [] ∧ fieldFaults path fields es = .ok [] := by
      obtain ⟨here, hhere, h⟩ := eq_ok_of_bind h
      obtain ⟨more, hmore, h⟩ := eq_ok_of_bind h
      obtain ⟨rfl, rfl⟩ := List.append_eq_nil_iff.1 (Except.ok.inj h)
      exact ⟨hhere, hmore⟩
    rw [List.forall_mem_cons]
    split at h
    · next hnone =>
      refine ⟨fun v hv => ?_, ih (hsplit h).2⟩
      cases hnone.symm.trans hv
    · next w hw =>
      split at h
      · next hnull =>
        refine ⟨fun v hv => .inl ?_, ih (hsplit h).2⟩
        cases hw.symm.trans hv
        simpa using hnull
      · refine ⟨fun v hv => .inr ?_, ih (hsplit h).2⟩
        cases hw.symm.trans hv
        exact (hsplit h).1

theorem isSome_entries?_of_faults (h : faults path .mapping v = .ok []) : v.entries?.isSome := by
  by_contra hnone
  rw [faults, if_neg hnone] at h
  obtain ⟨text, -, h⟩ := eq_ok_of_bind h
  cases h

end VolumeExport.Markup.Schema
