import VolumeExport.Proofs.Numeral
import VolumeExport.Proofs.Spelling

namespace VolumeExport

namespace Text

variable {c : Char} {d : Nat} {cs : List Char}

theorem digitValue?_cases (h : digitValue? c = some d) :
    c.isDigit ∧ d = c.toNat - 0x30 ∨
      ∃ z ∈ digitZeros, z ≤ c.toNat ∧ c.toNat < z + 10 ∧ 0x80 ≤ c.toNat ∧ d = c.toNat - z := by
  rw [digitValue?] at h
  split at h
  · next =>
    split at h
    · next hdigit =>
      cases h
      exact .inl ⟨hdigit, rfl⟩
    · cases h
  · next hlarge =>
    obtain ⟨z, hz, rfl⟩ := Option.map_eq_some_iff.1 h
    have hrange := List.find?_some hz
    simp only [Bool.and_eq_true, decide_eq_true_eq] at hrange
    exact .inr ⟨z, List.mem_of_find?_eq_some hz, hrange.1, hrange.2, Nat.le_of_not_lt hlarge, rfl⟩

theorem digitValue?_lt (h : digitValue? c = some d) : d < 10 := by
  rcases digitValue?_cases h with ⟨hdigit, rfl⟩ | ⟨z, -, hle, hlt, -, rfl⟩
  · exact Numeral.digitOf_lt hdigit
  · omega

theorem between_of_mem_digitZeros : ∀ z ∈ digitZeros, z + 10 ≤ 0x80 ∨ 0xa0 < z ∧ z + 10 ≤ 0x1680 ∨
    0x1680 < z ∧ z + 10 ≤ 0x2000 ∨ 0x3000 < z := by decide

theorem isBlank_of_digitValue? (h : digitValue? c = some d) : isBlank c = false := by
  rcases digitValue?_cases h with ⟨hdigit, -⟩ | ⟨z, hz, hle, hlt, hlarge, -⟩
  · exact Numeral.isBlank_of_isDigit hdigit
  · have hbetween := between_of_mem_digitZeros z hz
    simp only [isBlank, Bool.or_eq_false_iff, Bool.and_eq_false_imp, decide_eq_true_eq,
      decide_eq_false_iff_not, not_le, beq_eq_false_iff_ne, ne_eq]
    omega

theorem around_trim (cs : List Char) : Around (trim cs) cs := by
  refine ⟨cs.takeWhile isBlank, ((trimLeft cs).reverse.takeWhile isBlank).reverse, ?_, ?_, ?_⟩
  · exact fun c hc => List.mem_takeWhile_imp hc
  · exact fun c hc => List.mem_takeWhile_imp (List.mem_reverse.1 hc)
  · have hright : trim cs ++ ((trimLeft cs).reverse.takeWhile isBlank).reverse = trimLeft cs := by
      rw [trim, trimRight, ← List.reverse_append, List.takeWhile_append_dropWhile,
        List.reverse_reverse]
    rw [hright]
    exact List.takeWhile_append_dropWhile.symm

theorem trim_eq_nil_iff : trim cs = [] ↔ Blank cs := by
  constructor
  · intro h
    obtain ⟨left, right, hleft, hright, heq⟩ := around_trim cs
    rw [h, List.nil_append] at heq
    rw [heq]
    exact List.forall_mem_append.2 ⟨hleft, hright⟩
  · exact trim_blank

end Text

namespace Numeral

open Text

/-- Digits of any script, one at least. An underscore may stand between two of them. -/
inductive Figures : List Nat → List Char → Prop
  | last {d c} : digitValue? c = some d → Figures [d] [c]
  | next {d c ds cs} : digitValue? c = some d → Figures ds cs → Figures (d :: ds) (c :: cs)
  | apart {d c ds cs} : digitValue? c = some d → Figures ds cs →
      Figures (d :: ds) (c :: '_' :: cs)

/-- A number in no more digits than are read, with a sign or without one. -/
inductive Signed : Int → List Char → Prop
  | bare {ds cs} : Figures ds cs → ds.length ≤ maxDigits → Signed (ofDigits 10 ds) cs
  | plus {ds cs} : Figures ds cs → ds.length ≤ maxDigits → Signed (ofDigits 10 ds) ('+' :: cs)
  | minus {ds cs} : Figures ds cs → ds.length ≤ maxDigits →
      Signed (-(ofDigits 10 ds : Int)) ('-' :: cs)

def Spells (text : String) (n : Int) : Prop := ∃ cs, Around cs text.toList ∧ Signed n cs

inductive Behind : List Nat → List Char → Prop
  | nothing : Behind [] []
  | figures {ds cs} : Figures ds cs → Behind ds cs
  | apart {ds cs} : Figures ds cs → Behind ds ('_' :: cs)

variable {c : Char} {d : Nat} {ds : List Nat} {cs rest : List Char} {text : String} {n : Int}

theorem Figures.isBlank (h : Figures ds cs) : ∀ c ∈ cs, isBlank c = false := by
  induction h with
  | last hc => exact List.forall_mem_singleton.2 (isBlank_of_digitValue? hc)
  | next hc _ ih => exact List.forall_mem_cons.2 ⟨isBlank_of_digitValue? hc, ih⟩
  | apart hc _ ih =>
    exact List.forall_mem_cons.2 ⟨isBlank_of_digitValue? hc, List.forall_mem_cons.2 ⟨rfl, ih⟩⟩

theorem Signed.isBlank (h : Signed n cs) : ∀ c ∈ cs, isBlank c = false := by
  cases h with
  | bare h => exact h.isBlank
  | plus h => exact List.forall_mem_cons.2 ⟨rfl, h.isBlank⟩
  | minus h => exact List.forall_mem_cons.2 ⟨rfl, h.isBlank⟩

theorem Signed.isTrimmed (h : Signed n cs) : IsTrimmed cs :=
  ⟨fun c hc => h.isBlank c (List.mem_of_mem_head? hc),
    fun c hc => h.isBlank c (List.mem_of_getLast? hc)⟩

/-! ### Reading digits -/

theorem le_of_letterValue? (h : letterValue? c = some d) : 10 ≤ d := by
  rw [letterValue?] at h
  split at h
  · cases h
    exact Nat.le_add_left 10 _
  · split at h
    · cases h
      exact Nat.le_add_left 10 _
    · cases h

theorem digit?_ten (c : Char) : digit? 10 c = digitValue? c := by
  rw [digit?]
  cases hvalue : digitValue? c with
  | some d =>
    rw [Option.some_or, Option.filter_some, if_pos (decide_eq_true (digitValue?_lt hvalue))]
  | none =>
    rw [Option.none_or, Option.filter_eq_none_iff]
    intro d hd
    have hle := le_of_letterValue? hd
    simpa using hle

theorem figures_cons_iff :
    Figures ds (c :: cs) ↔ ∃ d more, ds = d :: more ∧ digitValue? c = some d ∧ Behind more cs := by
  constructor
  · intro h
    cases h with
    | last hc => exact ⟨_, _, rfl, hc, .nothing⟩
    | next hc h => exact ⟨_, _, rfl, hc, .figures h⟩
    | apart hc h => exact ⟨_, _, rfl, hc, .apart h⟩
  · rintro ⟨d, more, rfl, hc, hmore⟩
    cases hmore with
    | nothing => exact .last hc
    | figures h => exact .next hc h
    | apart h => exact .apart hc h

theorem not_figures_nil : ¬Figures ds [] := nofun

theorem not_figures (h : digitValue? c = none) : ¬Figures ds (c :: cs) := by
  intro hfigures
  obtain ⟨_, _, -, hc, -⟩ := figures_cons_iff.1 hfigures
  cases h.symm.trans hc

theorem behind_iff (hc : c ≠ '_') : Behind ds (c :: cs) ↔ Figures ds (c :: cs) := by
  constructor
  · intro h
    cases h with
    | figures h => exact h
    | apart => exact absurd rfl hc
  · exact .figures

theorem behind_underscore_iff : Behind ds ('_' :: cs) ↔ Figures ds cs := by
  constructor
  · intro h
    cases h with
    | figures h => exact absurd h (not_figures rfl)
    | apart h => exact h
  · exact .apart

theorem moreDigits?_iff : moreDigits? 10 cs = some (ds, []) ↔ Behind ds cs := by
  fun_induction moreDigits? 10 cs generalizing ds with
  | case1 =>
    constructor
    · rintro ⟨⟩
      exact .nothing
    · intro h
      cases h with
      | nothing => rfl
      | figures h => exact absurd h not_figures_nil
  | case2 =>
    rw [behind_underscore_iff]
    constructor
    · rintro ⟨⟩
    · exact fun h => absurd h not_figures_nil
  | case3 c cs ih =>
    rw [behind_underscore_iff, figures_cons_iff]
    simp only [digit?_ten, Option.bind_eq_bind, Option.bind_eq_some_iff, Option.pure_def,
      Option.some.injEq, Prod.mk.injEq, Prod.exists]
    constructor
    · rintro ⟨d, hd, more, rest, hmore, rfl, rfl⟩
      exact ⟨d, more, rfl, hd, ih.1 hmore⟩
    · rintro ⟨d, more, rfl, hd, hmore⟩
      exact ⟨d, hd, more, [], ih.2 hmore, rfl, rfl⟩
  | case4 c cs hc d hd ih =>
    rw [behind_iff fun h => hc h, figures_cons_iff]
    simp only [Option.bind_eq_bind, Option.bind_eq_some_iff, Option.pure_def,
      Option.some.injEq, Prod.mk.injEq, Prod.exists]
    rw [digit?_ten] at hd
    constructor
    · rintro ⟨more, rest, hmore, rfl, rfl⟩
      exact ⟨d, more, rfl, hd, ih.1 hmore⟩
    · rintro ⟨d', more, rfl, hd', hmore⟩
      cases hd.symm.trans hd'
      exact ⟨more, [], ih.2 hmore, rfl, rfl⟩
  | case5 c cs hc hd =>
    rw [digit?_ten] at hd
    rw [behind_iff fun h => hc h]
    constructor
    · rintro ⟨⟩
    · exact fun h => absurd h (not_figures hd)

theorem digits?_iff : digits? 10 cs = some (ds, []) ↔ Figures ds cs := by
  cases cs with
  | nil => exact ⟨nofun, fun h => absurd h not_figures_nil⟩
  | cons c cs =>
    rw [figures_cons_iff]
    simp only [digits?, digit?_ten, Option.bind_eq_bind, Option.bind_eq_some_iff, Option.pure_def,
      Option.some.injEq, Prod.mk.injEq, Prod.exists]
    constructor
    · rintro ⟨d, hd, more, rest, hmore, rfl, rfl⟩
      exact ⟨d, more, rfl, hd, moreDigits?_iff.1 hmore⟩
    · rintro ⟨d, more, rfl, hd, hmore⟩
      exact ⟨d, hd, more, [], moreDigits?_iff.2 hmore, rfl, rfl⟩

theorem suffix_of_moreDigits? {base : Nat} (h : moreDigits? base cs = some (ds, rest)) :
    rest <:+ cs := by
  fun_induction moreDigits? base cs generalizing ds with
  | case1 =>
    cases h
    exact List.suffix_refl _
  | case2 => cases h
  | case3 c cs ih =>
    simp only [Option.bind_eq_bind, Option.bind_eq_some_iff, Option.pure_def] at h
    obtain ⟨_, -, ⟨more, rest'⟩, hmore, h⟩ := h
    cases h
    exact ((ih hmore).trans (List.suffix_cons c cs)).trans (List.suffix_cons '_' (c :: cs))
  | case4 c cs _ d hd ih =>
    simp only [Option.bind_eq_bind, Option.bind_eq_some_iff, Option.pure_def] at h
    obtain ⟨⟨more, rest'⟩, hmore, h⟩ := h
    cases h
    exact (ih hmore).trans (List.suffix_cons c cs)
  | case5 =>
    cases h
    exact List.suffix_refl _

theorem suffix_of_digits? {base : Nat} (h : digits? base cs = some (ds, rest)) : rest <:+ cs := by
  cases cs with
  | nil => cases h
  | cons c cs =>
    simp only [digits?, Option.bind_eq_bind, Option.bind_eq_some_iff, Option.pure_def] at h
    obtain ⟨_, -, ⟨more, rest'⟩, hmore, h⟩ := h
    cases h
    exact (suffix_of_moreDigits? hmore).trans (List.suffix_cons c cs)

/-! ### Reading numbers -/

theorem sign_cases (cs : List Char) :
    (∃ more, cs = '-' :: more ∧ sign cs = (true, more)) ∨
      (∃ more, cs = '+' :: more ∧ sign cs = (false, more)) ∨ sign cs = (false, cs) := by
  fun_cases sign cs with
  | case1 more => exact .inl ⟨more, rfl, rfl⟩
  | case2 more => exact .inr (.inl ⟨more, rfl, rfl⟩)
  | case3 => exact .inr (.inr rfl)

theorem signed_iff : Signed n cs ↔ ∃ ds, Figures ds (sign cs).2 ∧ ds.length ≤ maxDigits ∧
    n = if (sign cs).1 then -(ofDigits 10 ds : Int) else ofDigits 10 ds := by
  constructor
  · intro h
    cases h with
    | @bare ds cs h hlength =>
      have hne : cs ≠ [] := fun hnil => not_figures_nil (hnil ▸ h)
      obtain ⟨c, cs, rfl⟩ := List.exists_cons_of_ne_nil hne
      obtain ⟨_, _, -, hc, -⟩ := figures_cons_iff.1 h
      have hsign : sign (c :: cs) = (false, c :: cs) := by
        rw [sign]
        · rintro _ ⟨⟩
          cases hc
        · rintro _ ⟨⟩
          cases hc
      rw [hsign]
      exact ⟨ds, h, hlength, rfl⟩
    | plus h hlength => exact ⟨_, h, hlength, rfl⟩
    | minus h hlength => exact ⟨_, h, hlength, rfl⟩
  · rintro ⟨ds, h, hlength, rfl⟩
    rcases sign_cases cs with ⟨more, rfl, hsign⟩ | ⟨more, rfl, hsign⟩ | hsign
    · rw [hsign] at h ⊢
      exact .minus h hlength
    · rw [hsign] at h ⊢
      exact .plus h hlength
    · rw [hsign] at h ⊢
      exact .bare h hlength

theorem afterMark_ten (cs : List Char) : afterMark 10 cs = cs := by
  fun_cases afterMark 10 cs with
  | case1 _ _ hmark => cases hmark.2
  | case2 _ _ hmark => cases hmark.2
  | case3 => rfl
  | case4 => rfl

theorem eq_nil_of_padding (htrimmed : IsTrimmed cs) (hrest : rest <:+ cs)
    (hpadding : rest.all isPadding) : rest = [] := by
  by_contra hne
  have hlast : rest.getLast? = some (rest.getLast hne) := List.getLast?_eq_some_getLast hne
  have hmem := List.all_eq_true.1 hpadding _ (List.getLast_mem hne)
  rw [isPadding, Bool.and_eq_true] at hmem
  have hblank := htrimmed.2 (rest.getLast hne) (by
    obtain ⟨before, rfl⟩ := hrest
    rw [List.getLast?_append, hlast]
    rfl)
  rw [hblank] at hmem
  cases hmem.1

theorem suffix_sign (cs : List Char) : (sign cs).2 <:+ cs := by
  rcases sign_cases cs with ⟨more, rfl, hsign⟩ | ⟨more, rfl, hsign⟩ | hsign
  · rw [hsign]
    exact List.suffix_cons _ _
  · rw [hsign]
    exact List.suffix_cons _ _
  · simp only [hsign, List.suffix_rfl]

theorem dropWhile_isPadding (h : IsTrimmed cs) : cs.dropWhile isPadding = cs := by
  cases cs with
  | nil => rfl
  | cons c cs =>
    have hblank : isBlank c = false := h.1 c rfl
    rw [List.dropWhile_cons_of_neg]
    rw [isPadding, hblank]
    exact Bool.false_ne_true

/-- A trimmed text is read as the number that it is, with a sign or without one. -/
theorem read_eq_ok_iff (h : IsTrimmed text.toList) :
    read 10 text = .ok n ↔ Signed n text.toList := by
  rw [read, dropWhile_isPadding h, signed_iff]
  simp only [afterMark_ten]
  constructor
  · intro hread
    split at hread
    · cases hread
    · next ds rest hdigits =>
      split at hread
      · cases hread
      · next hlength =>
        split at hread
        · cases hread
        · next hpadding =>
          have hsuffix := (suffix_of_digits? hdigits).trans (suffix_sign text.toList)
          have hrest : rest = [] := eq_nil_of_padding h hsuffix (by simpa using hpadding)
          rw [hrest] at hdigits
          exact ⟨ds, digits?_iff.1 hdigits, by simpa [limited] using hlength,
            (Except.ok.inj hread).symm⟩
  · rintro ⟨ds, hfigures, hlength, rfl⟩
    have hlimit : ¬(limited 10 && maxDigits < ds.length) = true := by
      simpa using fun _ => hlength
    simp only [digits?_iff.2 hfigures, if_neg hlimit]
    rfl

/-- A text is read without the blanks around it as the number that it spells. -/
theorem read_strip_eq_ok_iff : read 10 (strip text) = .ok n ↔ Spells text n := by
  have htrimmed : IsTrimmed (strip text).toList := by
    rw [strip, String.toList_ofList]
    exact isTrimmed_trim text.toList
  rw [read_eq_ok_iff htrimmed, strip, String.toList_ofList]
  constructor
  · exact fun h => ⟨_, around_trim text.toList, h⟩
  · rintro ⟨cs, haround, h⟩
    rwa [haround.trim_eq h.isTrimmed]

end Numeral

end VolumeExport
