import VolumeExport.Proofs.Spelling

namespace VolumeExport.Affinity

variable {depth : Nat} {c : Char} {cs before behind : List Char} {ts us vs : List (List Char)}

theorem isCut_iff : isCut depth c ↔ c = ',' ∧ depth = 0 := by
  rw [isCut, Bool.and_eq_true, decide_eq_true_iff, decide_eq_true_iff]

theorem terms_of_cut (cs : List Char) : terms 0 (',' :: cs) = [] :: terms 0 cs := rfl

theorem terms_of_uncut (h : isCut depth c = false) (cs : List Char) :
    terms depth (c :: cs) = (terms (deeper depth c) cs).modifyHead (c :: ·) :=
  terms_append (t := [c]) ⟨h, trivial⟩ cs

theorem intercalate_modifyHead (h : ts ≠ []) (c : Char) :
    [','].intercalate (ts.modifyHead (c :: ·)) = c :: [','].intercalate ts := by
  obtain ⟨t, ts, rfl⟩ := List.exists_cons_of_ne_nil h
  cases ts with
  | nil => rfl
  | cons u us =>
    rw [List.modifyHead_cons, List.intercalate_cons_cons, List.intercalate_cons_cons]
    rfl

/-- Nothing of a text is lost. -/
theorem intercalate_terms (depth : Nat) (cs : List Char) :
    [','].intercalate (terms depth cs) = cs := by
  induction cs generalizing depth with
  | nil => rfl
  | cons c cs ih =>
    cases hcut : isCut depth c with
    | true =>
      obtain ⟨rfl, rfl⟩ := isCut_iff.1 hcut
      rw [terms_of_cut, List.intercalate_cons_of_ne_nil (terms_ne_nil 0 cs), ih]
      rfl
    | false => rw [terms_of_uncut hcut, intercalate_modifyHead (terms_ne_nil _ cs), ih]

/-- No bracket is open behind terms that others follow. -/
theorem depthAfter_of_terms (h : terms depth cs = us ++ vs) (hus : us ≠ []) (hvs : vs ≠ []) :
    depthAfter depth ([','].intercalate us) = 0 := by
  obtain ⟨u, us, rfl⟩ := List.exists_cons_of_ne_nil hus
  induction cs generalizing depth u us with
  | nil =>
    obtain ⟨-, hnil⟩ := List.cons.inj h
    exact absurd (List.append_eq_nil_iff.1 hnil.symm).2 hvs
  | cons c cs ih =>
    cases hcut : isCut depth c with
    | true =>
      obtain ⟨rfl, rfl⟩ := isCut_iff.1 hcut
      obtain ⟨rfl, hrest⟩ := List.cons.inj h
      cases us with
      | nil => rfl
      | cons v us =>
        rw [List.intercalate_cons_cons]
        exact ih v us hrest (List.cons_ne_nil v us)
    | false =>
      obtain ⟨t, ts, hterms⟩ := List.exists_cons_of_ne_nil (terms_ne_nil (deeper depth c) cs)
      rw [terms_of_uncut hcut, hterms] at h
      obtain ⟨rfl, rfl⟩ := List.cons.inj h
      have hdepth := ih t us hterms (List.cons_ne_nil t us)
      rwa [← depthAfter_cons, ← intercalate_modifyHead (List.cons_ne_nil t us)] at hdepth

/-- Where no bracket is open the terms in front of a comma do not depend on what follows. -/
theorem terms_append_comma (h : depthAfter depth before = 0) (behind : List Char) :
    terms depth (before ++ ',' :: behind) = terms depth before ++ terms 0 behind := by
  induction before generalizing depth with
  | nil =>
    obtain rfl : depth = 0 := h
    rfl
  | cons c before ih =>
    cases hcut : isCut depth c with
    | true =>
      obtain ⟨rfl, rfl⟩ := isCut_iff.1 hcut
      have hbefore : depthAfter 0 before = 0 := h
      rw [List.cons_append, terms_of_cut, terms_of_cut, ih hbefore]
      rfl
    | false =>
      obtain ⟨t, ts, hterms⟩ := List.exists_cons_of_ne_nil (terms_ne_nil (deeper depth c) before)
      rw [List.cons_append, terms_of_uncut hcut, terms_of_uncut hcut, ih h, hterms]
      rfl

/-- The comma between two texts separates terms: those in front of it make up the one text, those
behind it the other. -/
def Separates (ts : List (List Char)) (before behind : List Char) : Prop :=
  ∃ us vs, us ≠ [] ∧ vs ≠ [] ∧ ts = us ++ vs ∧
    [','].intercalate us = before ∧ [','].intercalate vs = behind

theorem separates_iff :
    Separates (terms 0 (before ++ ',' :: behind)) before behind ↔ depthAfter 0 before = 0 := by
  constructor
  · rintro ⟨us, vs, hus, hvs, hterms, rfl, -⟩
    exact depthAfter_of_terms hterms hus hvs
  · intro h
    exact ⟨terms 0 before, terms 0 behind, terms_ne_nil 0 before, terms_ne_nil 0 behind,
      terms_append_comma h behind, intercalate_terms 0 before, intercalate_terms 0 behind⟩

/-- The terms of a text with commas between them are the text, and a comma of the text separates two
of them if and only if no bracket is open in front of it. Hence two texts with a comma between them
are read one after the other if the first leaves no bracket open. -/
theorem cut_outside_brackets :
    (∀ text : String, [','].intercalate (terms 0 text.toList) = text.toList ∧
      ∀ before behind, text.toList = before ++ ',' :: behind →
        (Separates (terms 0 text.toList) before behind ↔ depthAfter 0 before = 0)) ∧
    ∀ a b : String, depthAfter 0 a.toList = 0 → parse (a ++ "," ++ b) = parse a ++ parse b := by
  constructor
  · intro text
    refine ⟨intercalate_terms 0 text.toList, fun before behind htext => ?_⟩
    rw [htext]
    exact separates_iff
  · intro a b h
    have htext : (a ++ "," ++ b).toList = a.toList ++ ',' :: b.toList := by
      rw [String.toList_append, String.toList_append, List.append_assoc]
      rfl
    rw [parse, parseChars, htext, terms_append_comma h, List.filterMap_append]
    rfl

/-- A bracket that closes nothing, commas in brackets, and a bracket that is left open. -/
theorem cut_outside_brackets_unbalanced :
    (Separates (terms 0 "x],zone:[a,b],disk:[c,d".toList) "x],zone:[a,b]".toList
        "disk:[c,d".toList ↔ depthAfter 0 "x],zone:[a,b]".toList = 0) ∧
    depthAfter 0 "x],zone:[a,b]".toList = 0 ∧
    parse ("x],zone:[a,b]" ++ "," ++ "disk:[c,d") = parse "x],zone:[a,b]" ++ parse "disk:[c,d" := by
  have hflat : depthAfter 0 "x],zone:[a,b]".toList = 0 := by decide
  exact ⟨(cut_outside_brackets.1 "x],zone:[a,b],disk:[c,d").2 _ _ (by decide), hflat,
    cut_outside_brackets.2 _ _ hflat⟩

end VolumeExport.Affinity
