import VolumeExport.Proofs.Markup.Entry
import VolumeExport.Proofs.Numeral

namespace VolumeExport.Markup

open Numeral

def IsOctal (w : List Char) : Prop := w ≠ [] ∧ ∀ c ∈ w, '0' ≤ c ∧ c ≤ '7'

instance (w : List Char) : Decidable (IsOctal w) :=
  decidable_of_iff (w ≠ [] ∧ w.all fun c => '0' ≤ c ∧ c ≤ '7') (by simp [IsOctal])

namespace IsOctal

variable {w : List Char}

theorem toNat_of_octal {c : Char} (h : '0' ≤ c ∧ c ≤ '7') : 48 ≤ c.toNat ∧ c.toNat ≤ 55 := by
  have hlow : '0'.toNat ≤ c.toNat := Char.le_def.1 h.1
  have hhigh : c.toNat ≤ '7'.toNat := Char.le_def.1 h.2
  exact ⟨hlow, hhigh⟩

theorem isDigit (h : IsOctal w) : ∀ c ∈ w, c.isDigit := by
  intro c hc
  have hsmall := toNat_of_octal (h.2 c hc)
  rw [Char.isDigit_iff_toNat]
  exact ⟨hsmall.1, hsmall.2.trans (by decide)⟩

theorem digitOf_lt (h : IsOctal w) : ∀ c ∈ w, digitOf c < 8 := by
  intro c hc
  have hsmall := toNat_of_octal (h.2 c hc)
  have hvalue : digitOf c = c.toNat - 48 := rfl
  omega

theorem isWord (h : IsOctal w) : IsWord w := by
  refine ⟨h.1, fun c hc => ?_⟩
  rw [Char.isAlphanum, h.isDigit c hc, Bool.or_true]

end IsOctal

namespace Tag

variable {c : Char} {cs : List Char}

theorem isWritten_of_isDigit (hc : c.isDigit) :
    (truthWords.any fun w => isWritten w.1 (c :: cs)) = false := by
  have hne (d : Char) (hd : d.isDigit = false) : c ≠ d := ne_of_isDigit hc hd
  simp (disch := decide) [truthWords, isWritten, hne]

theorem unsigned_of_isDigit (hc : c.isDigit) : unsigned (c :: cs) = c :: cs := by
  rw [unsigned]
  · rintro _ ⟨⟩
    cases hc
  · rintro _ ⟨⟩
    cases hc

theorem dropWhile_of_isDigit (h : ∀ c ∈ cs, c.isDigit) : cs.dropWhile isDigitMark = [] := by
  rw [List.dropWhile_eq_nil_iff]
  intro c hc
  simp [isDigitMark, h c hc]

theorem isReal_of_isDigit (h : ∀ c ∈ cs, c.isDigit) : isReal cs = false := by
  cases cs with
  | nil => rfl
  | cons c cs =>
    obtain ⟨hc, hcs⟩ := List.forall_mem_cons.1 h
    have hne (d : Char) (hd : d.isDigit = false) : c ≠ d := ne_of_isDigit hc hd
    rw [isReal, unsigned_of_isDigit hc]
    simp (disch := decide) [hne, dropWhile_of_isDigit hcs, sixties]
    rintro _ _ ⟨⟩
    cases hc

theorem isInt_of_isOctal (h : IsOctal cs) : isInt cs := by
  obtain ⟨c, cs, rfl⟩ := List.exists_cons_of_ne_nil h.1
  obtain ⟨hc, hcs⟩ := List.forall_mem_cons.1 h.isDigit
  have hocts : ∀ d ∈ cs, '0' ≤ d ∧ d ≤ '7' := fun d hd => h.2 d (List.mem_cons_of_mem c hd)
  rw [isInt, unsigned_of_isDigit hc]
  -- After a zero the other digits count, else the first one.
  by_cases hzero : c = '0'
  · subst hzero
    cases cs with
    | nil => rfl
    | cons d ds =>
      have hne (e : Char) (he : e.isDigit = false) : d ≠ e := ne_of_isDigit (hcs d (by simp)) he
      have hall : (d :: ds).all (fun c => ('0' ≤ c && c ≤ '7') || c = '_') := by
        rw [List.all_eq_true]
        intro e he
        simp [hocts e he]
      split
      · rfl
      · next heq => cases heq; exact absurd rfl (hne 'b' (by decide))
      · next heq => cases heq; exact absurd rfl (hne 'x' (by decide))
      · next heq => cases heq; exact hall
      · next hother heq => cases heq; exact (hother rfl).elim
      · next heq => cases heq
  · split
    · next heq => cases heq; exact absurd rfl hzero
    · next heq => cases heq; exact absurd rfl hzero
    · next heq => cases heq; exact absurd rfl hzero
    · next heq => cases heq; exact absurd rfl hzero
    · next heq => cases heq; simp [dropWhile_of_isDigit hcs, hc]
    · next heq => cases heq

theorem ofPlain_of_isOctal (h : IsOctal cs) : ofPlain cs = .int := by
  have hint := isInt_of_isOctal h
  have hreal := isReal_of_isDigit h.isDigit
  have hline : withoutLineFeed cs = cs := by
    apply if_neg
    intro hlast
    cases h.isDigit '\n' (List.mem_of_getLast? hlast)
  have htruth : (truthWords.any fun w => isWritten w.1 cs) = false := by
    obtain ⟨c, cs, rfl⟩ := List.exists_cons_of_ne_nil h.1
    exact isWritten_of_isDigit (h.isDigit c List.mem_cons_self)
  simp [ofPlain, hline, htruth, hreal, hint]

end Tag

namespace Scalar

variable {w : List Char}

theorem withoutUnderscores_of_isDigit (h : ∀ c ∈ w, c.isDigit) : withoutUnderscores w = w := by
  rw [withoutUnderscores, List.filter_eq_self]
  intro c hc
  simpa using ne_of_isDigit (h c hc) (by decide)

theorem numeral_of_octal (h : IsOctal w) :
    numeral 8 w = .ok (Nat.ofDigitChars 8 w 0 : Nat) := by
  have hread := read_of_lt h.1 h.isDigit h.digitOf_lt
  have hlimited : limited 8 = false := rfl
  rw [numeral, hread, hlimited]
  rfl

theorem numeral_of_decimal (h : IsOctal w) :
    numeral 10 w = if w.length ≤ maxDigits then .ok (Nat.ofDigitChars 10 w 0 : Nat)
      else .error (.noNumeral (.tooLong w.length)) := by
  have hbase : ∀ c ∈ w, digitOf c < 10 := fun c hc => (h.digitOf_lt c hc).trans (by decide)
  have hread := read_of_lt h.1 h.isDigit hbase
  have hlimited : limited 10 = true := rfl
  rw [numeral, hread, hlimited, Bool.true_and]
  by_cases hlength : w.length ≤ maxDigits
  · simp [hlength, Nat.not_lt.2 hlength]
  · simp [hlength, Nat.lt_of_not_le hlength]

/-- What digits without quotes stand for depends on the first one. -/
theorem int_of_isOctal (h : IsOctal w) :
    int w = if w.head? = some '0' then .ok (Nat.ofDigitChars 8 w 0 : Nat)
      else if w.length ≤ maxDigits then .ok (Nat.ofDigitChars 10 w 0 : Nat)
      else .error (.noNumeral (.tooLong w.length)) := by
  have hoctal := numeral_of_octal h
  have hdecimal := numeral_of_decimal h
  obtain ⟨c, cs, rfl⟩ := List.exists_cons_of_ne_nil h.1
  obtain ⟨hc, hcs⟩ := List.forall_mem_cons.1 h.isDigit
  have hsign : sign (c :: cs) = (false, c :: cs) := by
    simp [sign, Tag.unsigned_of_isDigit hc, ne_of_isDigit hc (d := '-') (by decide)]
  have hcolon : (c :: cs).contains ':' = false := by
    rw [List.contains_eq_mem, decide_eq_false_iff_not]
    exact fun hmem => absurd rfl (ne_of_isDigit (h.isDigit ':' hmem) (d := ':') (by decide))
  rw [int, withoutUnderscores_of_isDigit h.isDigit, hsign]
  by_cases hzero : c = '0'
  · subst hzero
    cases cs with
    | nil => rfl
    | cons d ds =>
      have hne (e : Char) (he : e.isDigit = false) : d ≠ e := ne_of_isDigit (hcs d (by simp)) he
      simp [hoctal, throw, throwThe, MonadExceptOf.throw]
      split
      · next heq => cases heq
      · next heq => cases heq; exact absurd rfl (hne 'b' (by decide))
      · next heq => cases heq; exact absurd rfl (hne 'x' (by decide))
      · rfl
      · next heq => cases heq
      · next hother _ => exact (hother _ rfl).elim
  · have hmem : ¬(':' = c ∨ ':' ∈ cs) := by simpa using hcolon
    simp [hzero, hmem, hdecimal]

end Scalar

end VolumeExport.Markup
