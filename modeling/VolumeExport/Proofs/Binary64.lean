import Mathlib.Tactic.Ring
import VolumeExport.Number.Real
import VolumeExport.Proofs.Numeral

namespace VolumeExport.Binary64

/-- A number has a significand and an exponent of the format. -/
def InFormat : Binary64 → Prop
  | .finite _ m e => m ≤ Nat.pow 2 53 ∧ minExponent ≤ e ∧ e ≤ maxExponent
  | _ => True

variable {num den m : Nat} {e f : Int} {s : Bool} {x y : Binary64}

theorem roundDiv_le (num den : Nat) : roundDiv num den ≤ num / den + 1 := by
  rw [roundDiv]
  split
  · exact Nat.le_refl _
  · exact Nat.le_succ _

theorem div_shifted_lt (hden : den ≠ 0) (he : (num.log2 : Int) - den.log2 - 52 ≤ e) :
    (shifted num den e).1 / (shifted num den e).2 < Nat.pow 2 53 := by
  have hnum : num < 2 ^ (num.log2 + 1) := Nat.lt_log2_self
  have hlow : 2 ^ den.log2 ≤ den := Nat.log2_self_le hden
  rw [shifted]
  by_cases hsign : 0 ≤ e
  · rw [if_pos hsign]
    apply Nat.div_lt_of_lt_mul
    calc num
      _ < 2 ^ (num.log2 + 1) := hnum
      _ ≤ 2 ^ (den.log2 + e.toNat + 53) := Nat.pow_le_pow_right (by decide) (by omega)
      _ = 2 ^ den.log2 * 2 ^ e.toNat * 2 ^ 53 := by rw [Nat.pow_add, Nat.pow_add]
      _ ≤ den * Nat.pow 2 e.toNat * Nat.pow 2 53 :=
        Nat.mul_le_mul_right _ (Nat.mul_le_mul_right _ hlow)
  · rw [if_neg hsign]
    apply Nat.div_lt_of_lt_mul
    calc num * Nat.pow 2 (-e).toNat
      _ < 2 ^ (num.log2 + 1) * 2 ^ (-e).toNat :=
        Nat.mul_lt_mul_of_pos_right hnum (Nat.pow_pos (by decide))
      _ = 2 ^ (num.log2 + 1 + (-e).toNat) := (Nat.pow_add ..).symm
      _ ≤ 2 ^ (den.log2 + 53) := Nat.pow_le_pow_right (by decide) (by omega)
      _ = 2 ^ den.log2 * 2 ^ 53 := Nat.pow_add ..
      _ ≤ den * Nat.pow 2 53 := Nat.mul_le_mul_right _ hlow

theorem shifted_of_nonpos (he : e ≤ 0) : shifted num den e = (num * Nat.pow 2 (-e).toNat, den) := by
  rw [shifted]
  split
  · obtain rfl : e = 0 := by omega
    simp
  · rfl

theorem div_shifted_pred_lt (hden : den ≠ 0)
    (h : (shifted num den e).1 / (shifted num den e).2 < Nat.pow 2 52) :
    (shifted num den (e - 1)).1 / (shifted num den (e - 1)).2 < Nat.pow 2 53 := by
  have hpos : 0 < den := Nat.pos_of_ne_zero hden
  by_cases he : e ≤ 0
  · obtain ⟨k, rfl⟩ : ∃ k : Nat, e = -k := ⟨(-e).toNat, by omega⟩
    have hexponent : (-(-(k : Int))).toNat = k := by omega
    have hdoubled : (-(-(k : Int) - 1)).toNat = k + 1 := by omega
    rw [shifted_of_nonpos he, hexponent] at h
    rw [shifted_of_nonpos (by omega), hdoubled]
    rw [Nat.div_lt_iff_lt_mul hpos] at h ⊢
    calc num * Nat.pow 2 (k + 1)
      _ = 2 * (num * Nat.pow 2 k) := by rw [Nat.pow_eq, Nat.pow_succ, Nat.pow_eq]; ring
      _ < 2 * (Nat.pow 2 52 * den) := Nat.mul_lt_mul_of_pos_left h (by decide)
      _ = Nat.pow 2 53 * den := by rw [← Nat.mul_assoc]
  · obtain ⟨k, rfl⟩ : ∃ k : Nat, e = k + 1 := ⟨(e - 1).toNat, by omega⟩
    have hshifted (n : Nat) : shifted num den n = (num, den * Nat.pow 2 n) :=
      if_pos (Int.natCast_nonneg n)
    have hexponent : ((k : Int) + 1) = (k + 1 : Nat) := rfl
    have hscaled (n : Nat) : 0 < den * Nat.pow 2 n :=
      Nat.mul_pos hpos (Nat.pow_pos (by decide : 0 < 2))
    rw [hexponent, hshifted, Nat.div_lt_iff_lt_mul (hscaled _)] at h
    rw [Int.add_sub_cancel, hshifted, Nat.div_lt_iff_lt_mul (hscaled _)]
    calc num
      _ < Nat.pow 2 52 * (den * Nat.pow 2 (k + 1)) := h
      _ = Nat.pow 2 53 * (den * Nat.pow 2 k) := by
        rw [Nat.pow_eq, Nat.pow_eq, Nat.pow_eq, Nat.pow_eq, Nat.pow_succ]; ring

theorem div_shifted_scale_lt (hden : den ≠ 0) :
    (shifted num den (scale num den)).1 / (shifted num den (scale num den)).2 < Nat.pow 2 53 := by
  rw [scale]
  dsimp only
  split
  · next hsmall =>
    by_cases hleast : (num.log2 : Int) - den.log2 - 52 ≤ minExponent
    · rw [Int.max_eq_left (by omega)]
      exact div_shifted_lt hden hleast
    · rw [Int.max_eq_right (by omega)]
      exact div_shifted_pred_lt hden hsmall
  · exact div_shifted_lt hden (Int.le_max_right ..)

theorem zero_inFormat : (zero s).InFormat := by
  cases s <;> exact ⟨by decide, by decide, by decide⟩

theorem ofRatio_inFormat : (ofRatio s num den).InFormat := by
  have hquotient :
      (shifted num den (scale num den)).1 / (shifted num den (scale num den)).2 < Nat.pow 2 53 := by
    by_cases hden : den = 0
    · subst hden
      rw [shifted]
      split <;> simp
    · exact div_shifted_scale_lt hden
  have hleast : minExponent ≤ scale num den := Int.le_max_left ..
  rw [ofRatio]
  split
  · exact zero_inFormat
  · dsimp only
    have hm := roundDiv_le (shifted num den (scale num den)).1 (shifted num den (scale num den)).2
    generalize roundDiv (shifted num den (scale num den)).1 (shifted num den (scale num den)).2 = m
      at hm
    by_cases hcarry : m = Nat.pow 2 53
    · rw [if_pos hcarry]
      dsimp only
      split
      · trivial
      · next hgreatest => exact ⟨by decide, by omega, by omega⟩
    · rw [if_neg hcarry]
      dsimp only
      split
      · trivial
      · next hgreatest => exact ⟨by omega, hleast, by omega⟩

theorem InFormat.negate (h : x.InFormat) : x.negate.InFormat := by
  cases x with
  | finite => exact h
  | _ => trivial

theorem add_inFormat : (x.add y).InFormat := by
  unfold Binary64.add
  split
  · dsimp only
    split
    · exact zero_inFormat
    · exact ofRatio_inFormat
  · split <;> trivial
  all_goals trivial

theorem ofDecimal_inFormat {coefficient : Nat} {exponent : Int} :
    (ofDecimal s coefficient exponent).InFormat := by
  rw [ofDecimal]
  split
  · exact zero_inFormat
  · dsimp only
    split
    · trivial
    · split
      · exact zero_inFormat
      · split <;> exact ofRatio_inFormat

theorem unsigned?_inFormat {cs : List Char} (h : unsigned? s cs = some x) : x.InFormat := by
  rw [unsigned?] at h
  dsimp only at h
  split at h
  · cases h
    trivial
  · split at h
    · cases h
      trivial
    · split at h
      all_goals
        split at h
        · cases h
        · obtain ⟨p, -, rfl⟩ := Option.map_eq_some_iff.1 h
          exact ofDecimal_inFormat

theorem ofChars?_inFormat {cs : List Char} (h : ofChars? cs = some x) : x.InFormat := by
  rw [ofChars?] at h
  split at h <;> exact unsigned?_inFormat h

structure Positional.Small (p : Positional) : Prop where
  ne_nil : p.digits ≠ []
  digits : ∀ c ∈ p.digits, c.isDigit
  length : p.digits.length ≤ 3000
  point : p.point.natAbs ≤ 5000

theorem ofNat_small {n k : Nat} {unit : Int} (hk : 0 < k) (hn : n < 10 ^ k) (hle : k ≤ 2500)
    (hunit : unit.natAbs ≤ 2500) : (Positional.ofNat n unit).Small := by
  have hlength : (Nat.toDigits 10 n).length ≤ k := (Nat.length_toDigits_le_iff (by decide) hk).2 hn
  have hdigits : ∀ c ∈ Nat.toDigits 10 n, c.isDigit := fun _ => Numeral.isDigit_of_mem
  have hkept :
      ((Nat.toDigits 10 n).reverse.dropWhile (· == '0')).reverse <+: Nat.toDigits 10 n := by
    rw [← List.reverse_suffix, List.reverse_reverse]
    exact List.dropWhile_suffix _
  have hshort := hkept.length_le
  have hpoint : (((Nat.toDigits 10 n).length : Int) + unit).natAbs ≤ 5000 := by omega
  rw [Positional.ofNat]
  split
  · refine ⟨List.cons_ne_nil _ _, fun c hc => ?_, by simp, hpoint⟩
    obtain rfl := List.mem_singleton.1 hc
    rfl
  · next hne =>
    refine ⟨by simpa using hne, fun c hc => hdigits c (hkept.subset hc), ?_, hpoint⟩
    dsimp only
    omega

/-- Numbers of the format are fractions of numbers with fewer digits. -/
def reach : Nat := 1100

theorem toRatio_lt (h : (Binary64.finite s m e).InFormat) :
    (toRatio m e).1 < 10 ^ reach ∧ (toRatio m e).2 < 10 ^ reach := by
  obtain ⟨hm, hleast, hgreatest⟩ := h
  rw [minExponent] at hleast
  rw [maxExponent] at hgreatest
  have hpow (k : Nat) (h : k < 1100) : 2 ^ k < 10 ^ reach :=
    (Nat.pow_le_pow_left (by decide) k).trans_lt (Nat.pow_lt_pow_right (by decide) h)
  rw [toRatio]
  split
  · constructor
    · calc m * Nat.pow 2 e.toNat
        _ ≤ 2 ^ 53 * 2 ^ e.toNat := Nat.mul_le_mul_right _ hm
        _ = 2 ^ (53 + e.toNat) := (Nat.pow_add ..).symm
        _ < 10 ^ reach := hpow _ (by omega)
    · exact hpow 0 (by decide)
  · constructor
    · exact lt_of_le_of_lt hm (hpow 53 (by decide))
    · exact hpow (-e).toNat (by omega)

theorem decimalExponent_le {k l : Nat} (hk : 0 < k) (hl : 0 < l) (hnum : num < 10 ^ k)
    (hden : den < 10 ^ l) :
    -(l : Int) - 1 ≤ decimalExponent num den ∧ decimalExponent num den ≤ k := by
  have hnum := (Nat.length_toDigits_le_iff (by decide) hk).2 hnum
  have hden := (Nat.length_toDigits_le_iff (by decide) hl).2 hden
  rw [decimalExponent]
  split <;> omega

theorem inUnits_lt {k l : Nat} {unit : Int} (hnum : num < 10 ^ k) (hunit : (-unit).toNat ≤ l) :
    (inUnits num den unit).1 < 10 ^ (k + l) := by
  rw [inUnits]
  split
  · exact hnum.trans_le (Nat.pow_le_pow_right (by decide) (Nat.le_add_right k l))
  · calc num * Nat.pow 10 (-unit).toNat
      _ < 10 ^ k * 10 ^ (-unit).toNat := Nat.mul_lt_mul_of_pos_right hnum (Nat.pow_pos (by decide))
      _ = 10 ^ (k + (-unit).toNat) := (Nat.pow_add ..).symm
      _ ≤ 10 ^ (k + l) := Nat.pow_le_pow_right (by decide) (by omega)

section

variable {digits : Nat} (h : (Binary64.finite s m e).InFormat) (hdigits : digits ≤ 17)

include h hdigits

theorem ofNat_small_of_le {n : Nat} {unit : Int}
    (hunit : unit = decimalExponent (toRatio m e).1 (toRatio m e).2 - digits + 1)
    (hn : n ≤ (inUnits (toRatio m e).1 (toRatio m e).2 unit).1 /
      (inUnits (toRatio m e).1 (toRatio m e).2 unit).2 + 2) :
    (Positional.ofNat n unit).Small := by
  obtain ⟨hnum, hden⟩ := toRatio_lt h
  have hexponent := decimalExponent_le (by decide) (by decide) hnum hden
  have hreach : reach = 1100 := rfl
  have hunit : (-unit).toNat ≤ 1200 := by omega
  have hunits : (inUnits (toRatio m e).1 (toRatio m e).2 unit).1 < 10 ^ (reach + 1200) :=
    inUnits_lt hnum hunit
  generalize hk : reach + 1200 = k at hunits
  apply ofNat_small (Nat.succ_pos k) ?_ (by omega) (by omega)
  calc n
    _ ≤ (inUnits (toRatio m e).1 (toRatio m e).2 unit).1 + 2 :=
      hn.trans (Nat.add_le_add_right (Nat.div_le_self ..) 2)
    _ < 10 ^ k + 2 := Nat.add_lt_add_right hunits 2
    _ ≤ 10 ^ k * 10 := by
      have hpos : 1 ≤ 10 ^ k := Nat.pow_pos (by decide)
      omega
    _ = 10 ^ (k + 1) := (Nat.pow_succ ..).symm

theorem leading_small : (leading digits m e).Small := by
  rw [leading]
  exact ofNat_small_of_le h hdigits rfl ((roundDiv_le _ _).trans (Nat.le_succ _))

theorem onGrid?_small {p : Positional} (hp : onGrid? m e digits = some p) : p.Small := by
  rw [onGrid?] at hp
  dsimp only at hp
  generalize hunit : decimalExponent (toRatio m e).1 (toRatio m e).2 - digits + 1 = unit at hp
  have hsmall {n : Nat} := ofNat_small_of_le h hdigits hunit.symm (n := n)
  generalize inUnits (toRatio m e).1 (toRatio m e).2 unit = u at hp hsmall
  have hnearest : roundDiv u.1 u.2 ≤ u.1 / u.2 + 1 := roundDiv_le _ _
  have hother : (if roundDiv u.1 u.2 = u.1 / u.2 then roundDiv u.1 u.2 + 1 else u.1 / u.2) ≤
      u.1 / u.2 + 2 := by
    split <;> omega
  generalize (if roundDiv u.1 u.2 = u.1 / u.2 then roundDiv u.1 u.2 + 1 else u.1 / u.2) = other
    at hp hother
  split at hp
  · cases hp
    exact hsmall (hnearest.trans (Nat.le_succ _))
  · split at hp
    · cases hp
      exact hsmall hother
    · cases hp

end

theorem shortest_small (h : (Binary64.finite s m e).InFormat) : (shortest m e).Small := by
  rw [shortest]
  cases hfound : (List.range 17).findSome? fun n => onGrid? m e (n + 1) with
  | none => exact leading_small h (Nat.le_refl _)
  | some p =>
    obtain ⟨n, hn, hp⟩ := List.exists_of_findSome?_eq_some hfound
    exact onGrid?_small h (List.mem_range.1 hn) hp

end VolumeExport.Binary64
