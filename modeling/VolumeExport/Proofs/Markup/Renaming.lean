import Mathlib.Logic.Function.Basic
import VolumeExport.Markup.Value

namespace VolumeExport.Markup.Value

mutual

/-- A value with other marks, and other nodes for what is no number. -/
def rename (ρ : Mark → Mark) (σ : Nat → Nat) : Value → Value
  | .nan node => .nan (σ node)
  | .list items => .list (renameAll ρ σ items)
  | .pair a b => .pair (rename ρ σ a) (rename ρ σ b)
  | .set items => .set (renameAll ρ σ items)
  | .map entries => .map (renameEntries ρ σ entries)
  | .cycle mark body => .cycle (ρ mark) (rename ρ σ body)
  | .again mark => .again (ρ mark)
  | v => v

def renameAll (ρ : Mark → Mark) (σ : Nat → Nat) : List Value → List Value
  | [] => []
  | v :: vs => rename ρ σ v :: renameAll ρ σ vs

def renameEntries (ρ : Mark → Mark) (σ : Nat → Nat) :
    List (Value × Value) → List (Value × Value)
  | [] => []
  | (k, v) :: entries => (rename ρ σ k, rename ρ σ v) :: renameEntries ρ σ entries

end

variable {ρ : Mark → Mark} {σ : Nat → Nat} {v : Value} {es : List (Value × Value)}

theorem renameEntries_eq_map :
    renameEntries ρ σ es = es.map fun e => (e.1.rename ρ σ, e.2.rename ρ σ) := by
  induction es with
  | nil => rfl
  | cons e es ih => rw [renameEntries, ih, List.map_cons]

@[simp] theorem isNull_rename : (v.rename ρ σ).isNull = v.isNull := by
  cases v <;> rfl

@[simp] theorem number?_rename : (v.rename ρ σ).number? = v.number? := by
  cases v <;> rfl

@[simp] theorem inside_rename : inside (v.rename ρ σ) = inside v := by
  cases v <;> rfl

theorem look_rename (key : String) :
    look key (renameEntries ρ σ es) = (look key es).map (rename ρ σ) := by
  induction es with
  | nil => rfl
  | cons e es ih =>
    obtain ⟨k, v⟩ := e
    cases k with
    | text s =>
      simp only [renameEntries, rename, look]
      split
      · rfl
      · exact ih
    | _ => exact ih

theorem lookup_rename (hρ : ρ.Injective) (around : List (Mark × String)) (mark : Mark) :
    (around.map fun p => (ρ p.1, p.2)).lookup (ρ mark) = around.lookup mark := by
  induction around with
  | nil => rfl
  | cons p around ih =>
    have hmark : (ρ mark == ρ p.1) = (mark == p.1) := by
      rw [Bool.eq_iff_iff, beq_iff_eq, beq_iff_eq, hρ.eq_iff]
    rw [List.map_cons, List.lookup_cons, List.lookup_cons, hmark, ih]

mutual

theorem shownIn_rename (hρ : ρ.Injective) (around : List (Mark × String)) :
    (v : Value) → shownIn (around.map fun p => (ρ p.1, p.2)) (v.rename ρ σ) = shownIn around v
  | .null => rfl
  | .bool _ => rfl
  | .int _ => rfl
  | .real _ => rfl
  | .nan _ => rfl
  | .text _ => rfl
  | .bytes _ => rfl
  | .date _ => rfl
  | .time _ => rfl
  | .list items => by rw [rename, shownIn, shownIn, shownAll_rename hρ around items]
  | .pair a b => by
    rw [rename, shownIn, shownIn, shownIn_rename hρ around a, shownIn_rename hρ around b]
  | .set [] => rfl
  | .set (v :: vs) => by
    rw [rename, renameAll, shownIn, shownIn]
    · rw [← renameAll, shownAll_rename hρ around (v :: vs)]
    · nofun
    · nofun
  | .map entries => by rw [rename, shownIn, shownIn, shownEntries_rename hρ around entries]
  | .again mark => by rw [rename, shownIn, shownIn, lookup_rename hρ]
  | .cycle mark body => by
    rw [rename, shownIn, shownIn, lookup_rename hρ, inside_rename]
    have hbody := shownIn_rename hρ ((mark, inside body) :: around) body
    rw [List.map_cons] at hbody
    rw [hbody]

theorem shownAll_rename (hρ : ρ.Injective) (around : List (Mark × String)) :
    (vs : List Value) →
      shownAll (around.map fun p => (ρ p.1, p.2)) (renameAll ρ σ vs) = shownAll around vs
  | [] => rfl
  | v :: vs => by
    rw [renameAll, shownAll, shownAll, shownIn_rename hρ around v, shownAll_rename hρ around vs]

theorem shownEntries_rename (hρ : ρ.Injective) (around : List (Mark × String)) :
    (es : List (Value × Value)) →
      shownEntries (around.map fun p => (ρ p.1, p.2)) (renameEntries ρ σ es) =
        shownEntries around es
  | [] => rfl
  | (k, v) :: es => by
    rw [renameEntries, shownEntries, shownEntries, shownIn_rename hρ around k,
      shownIn_rename hρ around v, shownEntries_rename hρ around es]

end

theorem shown_rename (hρ : ρ.Injective) : (v.rename ρ σ).shown = v.shown :=
  shownIn_rename hρ [] v

theorem plainText_rename (hρ : ρ.Injective) : (v.rename ρ σ).plainText = v.plainText := by
  have hshown : (v.rename ρ σ).shown = v.shown := shown_rename hρ
  cases v with
  | text => rfl
  | date => rfl
  | time => rfl
  | _ => exact hshown

mutual

theorem substitute_rename (hρ : ρ.Injective) (mark : Mark) (whole : Value) :
    (v : Value) → substitute (ρ mark) (whole.rename ρ σ) (v.rename ρ σ) =
      (substitute mark whole v).rename ρ σ
  | .null => rfl
  | .bool _ => rfl
  | .int _ => rfl
  | .real _ => rfl
  | .nan _ => rfl
  | .text _ => rfl
  | .bytes _ => rfl
  | .date _ => rfl
  | .time _ => rfl
  | .set _ => rfl
  | .again m => by
    simp only [rename, substitute, hρ.eq_iff]
    split <;> rfl
  | .cycle m body => by
    simp only [rename, substitute, hρ.eq_iff, substitute_rename hρ mark whole body]
    split <;> rfl
  | .list items => by
    simp only [rename, substitute, substituteAll_rename hρ mark whole items]
  | .pair a b => by
    simp only [rename, substitute, substitute_rename hρ mark whole a,
      substitute_rename hρ mark whole b]
  | .map entries => by
    simp only [rename, substitute, substituteEntries_rename hρ mark whole entries]

theorem substituteAll_rename (hρ : ρ.Injective) (mark : Mark) (whole : Value) :
    (vs : List Value) → substituteAll (ρ mark) (whole.rename ρ σ) (renameAll ρ σ vs) =
      renameAll ρ σ (substituteAll mark whole vs)
  | [] => rfl
  | v :: vs => by
    simp only [renameAll, substituteAll, substitute_rename hρ mark whole v,
      substituteAll_rename hρ mark whole vs]

theorem substituteEntries_rename (hρ : ρ.Injective) (mark : Mark) (whole : Value) :
    (es : List (Value × Value)) →
      substituteEntries (ρ mark) (whole.rename ρ σ) (renameEntries ρ σ es) =
        renameEntries ρ σ (substituteEntries mark whole es)
  | [] => rfl
  | (k, v) :: es => by
    simp only [renameEntries, substituteEntries, substitute_rename hρ mark whole v,
      substituteEntries_rename hρ mark whole es]

end

theorem unfold_rename (hρ : ρ.Injective) : (v.rename ρ σ).unfold = v.unfold.rename ρ σ := by
  cases v with
  | cycle mark body => exact substitute_rename hρ mark (.cycle mark body) body
  | _ => rfl

theorem entries?_rename (hρ : ρ.Injective) :
    (v.rename ρ σ).entries? = v.entries?.map (renameEntries ρ σ) := by
  rw [entries?, entries?, unfold_rename hρ]
  cases v.unfold <;> rfl

end VolumeExport.Markup.Value
