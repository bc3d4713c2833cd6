import VolumeExport.Markup.Value
import VolumeExport.Proofs.Failure

namespace VolumeExport

namespace Numeral

def oversized (n : Int) : Bool := decide (Nat.pow 10 maxDigits ≤ n.natAbs)

/-- A number was not written, and there is one that is oversized. -/
def Overflow (there : Bool) (e : Fault) : Prop := e = .tooLarge ∧ there

theorem byte_lt_pow (b : UInt8) {k : Nat} (hk : 3 ≤ k) : b.toNat < Nat.pow 10 k :=
  calc b.toNat
    _ < 10 ^ 3 := Nat.lt_trans b.toNat_lt (by decide)
    _ ≤ Nat.pow 10 k := Nat.pow_le_pow_right (by decide) hk

theorem not_oversized_byte (b : UInt8) : oversized b.toNat = false :=
  decide_eq_false (Nat.not_le.2 (byte_lt_pow b (by decide)))

theorem write_failsAs (n : Int) : FailsAs (Overflow (oversized n)) (write n) := by
  rw [write]
  split
  · exact failsAs_ok _
  · next h => exact failsAs_error ⟨rfl, decide_eq_true (Nat.le_of_not_lt h)⟩

end Numeral

section

variable {α : Type} {a b : Bool} {r : Except Numeral.Fault α}

theorem FailsAs.part (h : FailsAs (Numeral.Overflow a) r) (hab : a → b) :
    FailsAs (Numeral.Overflow b) r :=
  h.mono fun _ he => ⟨he.1, hab he.2⟩

theorem FailsAs.or_left (h : FailsAs (Numeral.Overflow a) r) :
    FailsAs (Numeral.Overflow (a || b)) r :=
  h.part fun ha => by simp [ha]

theorem FailsAs.or_right (h : FailsAs (Numeral.Overflow b) r) :
    FailsAs (Numeral.Overflow (a || b)) r :=
  h.part fun hb => by simp [hb]

end

namespace Markup.Value

open Numeral (Overflow)

mutual

/-- Whether a value holds an oversized number. -/
def oversized : Value → Bool
  | .int n => Numeral.oversized n
  | .list items => anyOversized items
  | .pair a b => oversized a || oversized b
  | .set items => anyOversized items
  | .map entries => anyOversizedEntry entries
  | .cycle _ body => oversized body
  | _ => false

def anyOversized : List Value → Bool
  | [] => false
  | v :: vs => oversized v || anyOversized vs

def anyOversizedEntry : List (Value × Value) → Bool
  | [] => false
  | (k, v) :: entries => oversized k || oversized v || anyOversizedEntry entries

end

mutual

theorem shownIn_failsAs (around : List (Mark × String)) :
    (v : Value) → FailsAs (Overflow v.oversized) (shownIn around v)
  | .null => failsAs_ok _
  | .bool _ => failsAs_ok _
  | .int n => by
    rw [shownIn, oversized]
    exact Numeral.write_failsAs n
  | .real _ => failsAs_ok _
  | .nan _ => failsAs_ok _
  | .text _ => failsAs_ok _
  | .bytes _ => failsAs_ok _
  | .date _ => failsAs_ok _
  | .time _ => failsAs_ok _
  | .list items => by
    rw [shownIn, oversized]
    exact (shownAll_failsAs around items).bind fun _ _ => failsAs_ok _
  | .pair a b => by
    rw [shownIn, oversized]
    exact (shownIn_failsAs around a).or_left.bind fun _ _ =>
      (shownIn_failsAs around b).or_right.bind fun _ _ => failsAs_ok _
  | .set [] => failsAs_ok _
  | .set (v :: vs) => by
    rw [shownIn, oversized]
    · exact (shownAll_failsAs around (v :: vs)).bind fun _ _ => failsAs_ok _
    · nofun
  | .map entries => by
    rw [shownIn, oversized]
    exact (shownEntries_failsAs around entries).bind fun _ _ => failsAs_ok _
  | .again _ => failsAs_ok _
  | .cycle mark body => by
    rw [shownIn, oversized]
    split
    · exact failsAs_ok _
    · exact shownIn_failsAs _ body

theorem shownAll_failsAs (around : List (Mark × String)) :
    (vs : List Value) → FailsAs (Overflow (anyOversized vs)) (shownAll around vs)
  | [] => failsAs_ok _
  | v :: vs => by
    rw [shownAll, anyOversized]
    exact (shownIn_failsAs around v).or_left.bind fun _ _ =>
      (shownAll_failsAs around vs).or_right.bind fun _ _ => failsAs_ok _

theorem shownEntries_failsAs (around : List (Mark × String)) :
    (es : List (Value × Value)) →
      FailsAs (Overflow (anyOversizedEntry es)) (shownEntries around es)
  | [] => failsAs_ok _
  | (k, v) :: es => by
    rw [shownEntries, anyOversizedEntry]
    exact (shownIn_failsAs around k).or_left.or_left.bind fun _ _ =>
      (shownIn_failsAs around v).or_right.or_left.bind fun _ _ =>
        (shownEntries_failsAs around es).or_right.bind fun _ _ => failsAs_ok _

end

variable {v w : Value}

theorem shown_failsAs : FailsAs (Overflow v.oversized) v.shown := shownIn_failsAs [] v

theorem plainText_failsAs : FailsAs (Overflow v.oversized) v.plainText := by
  cases v with
  | text | date | time => exact failsAs_ok _
  | _ => exact shown_failsAs

theorem oversized_of_mem {vs : List Value} (h : v ∈ vs) (hv : v.oversized) : anyOversized vs := by
  induction vs with
  | nil => cases h
  | cons w vs ih =>
    rw [anyOversized, Bool.or_eq_true]
    cases h with
    | head => exact .inl hv
    | tail _ hmem => exact .inr (ih hmem)

theorem oversized_of_mem_entries {es : List (Value × Value)} {k : Value} (h : (k, v) ∈ es)
    (hv : k.oversized ∨ v.oversized) : anyOversizedEntry es := by
  induction es with
  | nil => cases h
  | cons e es ih =>
    rw [anyOversizedEntry, Bool.or_eq_true, Bool.or_eq_true]
    cases h with
    | head => exact .inl hv
    | tail _ hmem => exact .inr (ih hmem)

section

variable {mark : Mark} {whole : Value}

mutual

/-- The parts that a mark stands for are the only new ones. -/
theorem oversized_of_substitute :
    (v : Value) → (substitute mark whole v).oversized → v.oversized ∨ whole.oversized
  | .null => .inl
  | .bool _ => .inl
  | .int _ => .inl
  | .real _ => .inl
  | .nan _ => .inl
  | .text _ => .inl
  | .bytes _ => .inl
  | .date _ => .inl
  | .time _ => .inl
  | .list items => by
    rw [substitute, oversized, oversized]
    exact oversized_of_substituteAll items
  | .pair a b => by
    rw [substitute, oversized, oversized, Bool.or_eq_true, Bool.or_eq_true]
    rintro (h | h)
    · exact (oversized_of_substitute a h).imp_left .inl
    · exact (oversized_of_substitute b h).imp_left .inr
  | .set _ => .inl
  | .map entries => by
    rw [substitute, oversized, oversized]
    exact oversized_of_substituteEntries entries
  | .again m => by
    rw [substitute]
    split
    · exact .inr
    · exact .inl
  | .cycle m body => by
    rw [substitute]
    split
    · exact .inl
    · rw [oversized, oversized]
      exact oversized_of_substitute body

theorem oversized_of_substituteAll :
    (vs : List Value) → anyOversized (substituteAll mark whole vs) →
      anyOversized vs ∨ whole.oversized
  | [] => .inl
  | v :: vs => by
    rw [substituteAll, anyOversized, anyOversized, Bool.or_eq_true, Bool.or_eq_true]
    rintro (h | h)
    · exact (oversized_of_substitute v h).imp_left .inl
    · exact (oversized_of_substituteAll vs h).imp_left .inr

theorem oversized_of_substituteEntries :
    (es : List (Value × Value)) → anyOversizedEntry (substituteEntries mark whole es) →
      anyOversizedEntry es ∨ whole.oversized
  | [] => .inl
  | (k, v) :: es => by
    simp only [substituteEntries, anyOversizedEntry, Bool.or_eq_true]
    rintro ((h | h) | h)
    · exact .inl (.inl (.inl h))
    · exact (oversized_of_substitute v h).imp_left fun hv => .inl (.inr hv)
    · exact (oversized_of_substituteEntries es h).imp_left .inr

end

end

theorem oversized_of_unfold (h : v.unfold.oversized) : v.oversized := by
  cases v with
  | cycle mark body =>
    rw [oversized]
    exact (oversized_of_substitute body h).elim id id
  | _ => exact h

theorem oversized_of_entries {es : List (Value × Value)} {k : Value} (h : v.entries? = some es)
    (hmem : (k, w) ∈ es) (hw : k.oversized ∨ w.oversized) : v.oversized := by
  rw [entries?] at h
  split at h
  · next hunfold =>
    cases h
    apply oversized_of_unfold
    rw [hunfold, oversized]
    exact oversized_of_mem_entries hmem hw
  · cases h

theorem oversized_of_items {vs : List Value} (h : v.items? = some vs) (hmem : w ∈ vs)
    (hw : w.oversized) : v.oversized := by
  rw [items?] at h
  split at h
  · next hunfold =>
    cases h
    apply oversized_of_unfold
    rw [hunfold, oversized]
    exact oversized_of_mem hmem hw
  · cases h

theorem oversized_of_ordered {vs : List Value} (h : v.ordered? = some vs) (hmem : w ∈ vs)
    (hw : w.oversized) : v.oversized := by
  apply oversized_of_unfold
  rw [ordered?] at h
  split at h
  · next hunfold =>
    cases h
    rw [hunfold, oversized]
    exact oversized_of_mem hmem hw
  · next a b hunfold =>
    cases h
    rw [hunfold, oversized, Bool.or_eq_true]
    rcases List.mem_pair.1 hmem with rfl | rfl
    · exact .inl hw
    · exact .inr hw
  · cases h
    obtain ⟨b, -, rfl⟩ := List.mem_map.1 hmem
    rw [oversized, Numeral.not_oversized_byte] at hw
    cases hw
  · cases h

theorem mem_of_look {key : String} {es : List (Value × Value)} (h : look key es = some v) :
    ∃ k, (k, v) ∈ es := by
  induction es with
  | nil => cases h
  | cons e es ih =>
    have hrest (h : look key es = some v) : ∃ k, (k, v) ∈ e :: es := by
      obtain ⟨k, hk⟩ := ih h
      exact ⟨k, List.mem_cons_of_mem e hk⟩
    rw [look.eq_def] at h
    split at h
    · next heq => cases heq
    · next k w es' heq =>
      cases heq
      split at h
      · cases h
        exact ⟨_, List.mem_cons_self⟩
      · exact hrest h
    · next heq =>
      cases heq
      exact hrest h

end Markup.Value

end VolumeExport
