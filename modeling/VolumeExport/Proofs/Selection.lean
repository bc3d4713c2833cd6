import VolumeExport.Affinity
import VolumeExport.Selector

namespace VolumeExport

namespace Selector

variable {cs t rest key : List Char}

theorem items_eq_splitOn (cs : List Char) : items cs = cs.splitOn ',' := by
  induction cs with
  | nil => rfl
  | cons c cs ih =>
    rw [items, List.splitOn_cons_eq_if_modifyHead, ih]
    by_cases hc : c = ','
    · rw [if_pos hc, if_pos (beq_iff_eq.2 hc)]
    · rw [if_neg hc, if_neg (mt beq_iff_eq.1 hc)]
      cases hsplit : cs.splitOn ',' with
      | nil => exact absurd hsplit (List.splitOn_ne_nil _ _)
      | cons t ts => rfl

theorem cut_ne_nil (cs : List Char) : cut cs ≠ [] := by
  cases cs with
  | nil => nofun
  | cons c cs =>
    rw [cut]
    split
    · nofun
    · split
      · nofun
      · nofun

theorem cut_comma (h : isInside rest = false) : cut (',' :: rest) = [] :: cut rest := by
  rw [cut, h]
  rfl

/-- A text whose commas all stand inside parentheses is not cut. -/
theorem cut_append (h : ∀ a b, t = a ++ ',' :: b → isInside (b ++ rest)) :
    cut (t ++ rest) = (cut rest).modifyHead (t ++ ·) := by
  induction t with
  | nil =>
    obtain ⟨u, us, hcut⟩ := List.exists_cons_of_ne_nil (cut_ne_nil rest)
    rw [List.nil_append, hcut]
    rfl
  | cons c t ih =>
    have hc : (c = ',' && !isInside (t ++ rest)) = false := by
      rw [Bool.and_eq_false_iff, decide_eq_false_iff_not, Bool.not_eq_false']
      by_cases hc : c = ','
      · exact .inr (h [] t (hc ▸ rfl))
      · exact .inl hc
    obtain ⟨u, us, hcut⟩ := List.exists_cons_of_ne_nil (cut_ne_nil rest)
    rw [List.cons_append, cut, hc, ih fun a b hab => h (c :: a) b (hab ▸ rfl), hcut]
    rfl

def Flat (cs : List Char) : Prop := ∀ c ∈ cs, c ≠ '(' ∧ c ≠ ')'

instance (cs : List Char) : Decidable (Flat cs) :=
  List.decidableBAll (fun c => c ≠ '(' ∧ c ≠ ')') cs

theorem isInside_append (h : Flat t) : isInside (t ++ rest) = isInside rest := by
  have hclosing : t.contains ')' = false := by
    rw [List.contains_eq_mem]
    exact decide_eq_false fun hmem => (h _ hmem).2 rfl
  rw [isInside, isInside, List.takeWhile_append_of_pos fun c hc => decide_eq_true (h c hc).1,
    List.contains_append, hclosing, Bool.false_or]

theorem Flat.append (h : Flat t) (hrest : Flat rest) : Flat (t ++ rest) :=
  fun c hc => (List.mem_append.1 hc).elim (h c) (hrest c)

theorem flat_intercalate {ts : List (List Char)} (h : ∀ t ∈ ts, Flat t) :
    Flat ([','].intercalate ts) := by
  induction ts with
  | nil => nofun
  | cons t ts ih =>
    obtain ⟨ht, hts⟩ := List.forall_mem_cons.1 h
    cases ts with
    | nil => rwa [List.intercalate_singleton]
    | cons u us =>
      rw [List.intercalate_cons_cons]
      exact (ht.append (by decide)).append (ih hts)

theorem cut_append_of_not_mem (h : ',' ∉ t) : cut (t ++ rest) = (cut rest).modifyHead (t ++ ·) :=
  cut_append fun _ _ ht => absurd (ht ▸ List.mem_append_right _ List.mem_cons_self) h

theorem cut_append_closing (h : Flat t) :
    cut (t ++ ')' :: rest) = (cut rest).modifyHead (t ++ ')' :: ·) := by
  have hclosing : cut (')' :: rest) = (cut rest).modifyHead (')' :: ·) :=
    cut_append_of_not_mem (t := [')']) (by decide)
  rw [cut_append, hclosing, List.modifyHead_modifyHead]
  · rfl
  · rintro a b rfl
    rw [isInside_append fun c hc => h c (List.mem_append_right _ (List.mem_cons_of_mem _ hc))]
    rfl

theorem splitAt?_eq_none {m : Char} {mark : List Char} (h : m ∉ cs) :
    splitAt? (m :: mark) cs = none := by
  induction cs with
  | nil => rfl
  | cons c cs ih =>
    obtain ⟨hc, hcs⟩ := not_or.1 (mt List.mem_cons.2 h)
    rw [splitAt?, List.isPrefixOf_cons_cons, beq_false_of_ne hc, ih hcs]
    rfl

theorem splitAt?_append {m : Char} {mark : List Char} (h : m ∉ key) :
    splitAt? (m :: mark) (key ++ (m :: mark) ++ rest) = some (key, rest) := by
  induction key with
  | nil =>
    have hprefix : (m :: mark).isPrefixOf (m :: (mark ++ rest)) :=
      List.isPrefixOf_iff_prefix.2 (List.prefix_append (m :: mark) rest)
    rw [List.nil_append, List.cons_append, splitAt?, if_pos hprefix]
    exact congrArg (fun r => some ([], r)) List.drop_left
  | cons c key ih =>
    obtain ⟨hc, hkey⟩ := not_or.1 (mt List.mem_cons.2 h)
    rw [List.cons_append, List.cons_append, splitAt?, List.isPrefixOf_cons_cons, beq_false_of_ne hc,
      ih hkey]
    rfl

end Selector

namespace Affinity

open Selector (Flat)

/-- A character of label values: a letter or digit of ASCII, or one of three signs. -/
def isLabelChar (c : Char) : Bool := c.isAlphanum || c = '-' || c = '_' || c = '.'

namespace Rule

/-- The key and the values have nothing but the characters of labels; keys may have slashes too. -/
structure Plain (r : Rule) : Prop where
  key : ∀ c ∈ r.key.toList, isLabelChar c ∨ c = '/'
  values : ∀ v ∈ r.values, ∀ c ∈ v.toList, isLabelChar c

instance (r : Rule) : Decidable r.Plain :=
  decidable_of_iff (r.key.toList.all (fun c => isLabelChar c || c = '/') ∧
    r.values.all (·.toList.all isLabelChar))
    ⟨fun h => ⟨by simpa using h.1, by simpa using h.2⟩,
      fun h => ⟨by simpa using h.key, by simpa using h.values⟩⟩

/-- There is a key, and the rule asks for one of its values exactly if it has any. -/
structure Sound (r : Rule) : Prop where
  key : r.key ≠ ""
  operator : r.operator = .oneOf ↔ r.values ≠ []

/-- What a rule asks of labels, as a term of a selector. -/
def asked (r : Rule) : Selector.Term :=
  match r.operator with
  | .oneOf => .oneOf r.key.toList (r.values.map String.toList)
  | .present => .present r.key.toList

end Rule

theorem sound_of_mem_parse {text : String} {r : Rule} (h : r ∈ parse text) : r.Sound := by
  obtain ⟨t, -, ht⟩ := List.mem_filterMap.1 h
  rw [rule?] at ht
  split at ht
  · cases ht
  · next hkey =>
    cases ht
    refine ⟨fun h => hkey (String.ofList_eq_empty_iff.1 h), ?_⟩
    dsimp only
    split
    · next hvalues =>
      rw [hvalues]
      exact ⟨nofun, fun h => absurd rfl h⟩
    · next hvalues => exact iff_of_true rfl (mt List.map_eq_nil_iff.1 hvalues)

variable {r : Rule} {rules : List Rule} {rest : List Char} {c : Char}

theorem Rule.Plain.not_mem_key (h : r.Plain) (hc : ¬isLabelChar c) (hslash : c ≠ '/') :
    c ∉ r.key.toList :=
  fun hmem => (h.key c hmem).elim hc hslash

theorem Rule.Plain.not_mem_value (h : r.Plain) (hc : ¬isLabelChar c) {v : String}
    (hv : v ∈ r.values) : c ∉ v.toList :=
  fun hmem => hc (h.values v hv c hmem)

def Rule.listing (r : Rule) : List Char := [','].intercalate (r.values.map String.toList)

theorem toList_term (r : Rule) : r.term.toList =
    match r.operator with
    | .oneOf => r.key.toList ++ Selector.inMark ++ (r.listing ++ [')'])
    | .present => r.key.toList := by
  rw [Rule.term]
  cases r.operator with
  | oneOf =>
    simp only [String.toList_append, String.toList_intercalate]
    rw [List.append_assoc]
    rfl
  | present => rfl

theorem Rule.Sound.term_ne_nil (h : r.Sound) : r.term.toList ≠ [] := by
  have hkey : r.key.toList ≠ [] := mt String.toList_eq_nil_iff.1 h.key
  rw [toList_term]
  cases r.operator with
  | oneOf => exact List.append_ne_nil_of_left_ne_nil (List.append_ne_nil_of_left_ne_nil hkey _) _
  | present => exact hkey

theorem Rule.Plain.flat_key (h : r.Plain) : Flat r.key.toList := by
  refine fun c hc => ⟨?_, ?_⟩
  · rintro rfl
    exact h.not_mem_key (by decide) (by decide) hc
  · rintro rfl
    exact h.not_mem_key (by decide) (by decide) hc

theorem Rule.Plain.flat_listing (h : r.Plain) : Flat r.listing := by
  refine Selector.flat_intercalate (List.forall_mem_map.2 fun v hv c hc => ⟨?_, ?_⟩)
  · rintro rfl
    exact h.not_mem_value (by decide) hv hc
  · rintro rfl
    exact h.not_mem_value (by decide) hv hc

/-- A term is not cut, whatever stands behind it. -/
theorem Rule.Plain.cut_term (h : r.Plain) : Selector.cut (r.term.toList ++ rest) =
    (Selector.cut rest).modifyHead (r.term.toList ++ ·) := by
  have hkey : ',' ∉ r.key.toList := h.not_mem_key (by decide) (by decide)
  rw [toList_term]
  cases r.operator with
  | present => exact Selector.cut_append_of_not_mem hkey
  | oneOf =>
    have hopening : ',' ∉ r.key.toList ++ Selector.inMark :=
      fun hmem => (List.mem_append.1 hmem).elim hkey (by decide)
    dsimp only
    rw [List.append_assoc, List.append_assoc r.listing, List.singleton_append,
      Selector.cut_append_of_not_mem hopening, Selector.cut_append_closing h.flat_listing,
      List.modifyHead_modifyHead]
    congr 1
    funext u
    simp only [Function.comp_apply, List.append_assoc, List.singleton_append]

theorem Rule.Plain.isInside_term (h : r.Plain) (hrest : Selector.isInside rest = false) :
    Selector.isInside (r.term.toList ++ rest) = false := by
  rw [toList_term]
  cases r.operator with
  | present => rwa [Selector.isInside_append h.flat_key]
  | oneOf =>
    have hopening : Flat [' ', 'i', 'n', ' '] := by decide
    dsimp only
    rw [show Selector.inMark = [' ', 'i', 'n', ' '] ++ ['('] from rfl, List.append_assoc,
      ← List.append_assoc r.key.toList, List.append_assoc,
      Selector.isInside_append (h.flat_key.append hopening)]
    rfl

def written (rules : List Rule) : List Char := [','].intercalate (rules.map (·.term.toList))

theorem toList_selector (rules : List Rule) : (selector rules).toList = written rules := by
  rw [selector, String.toList_intercalate, List.map_map]
  rfl

theorem written_singleton (r : Rule) : written [r] = r.term.toList ++ [] := by
  rw [written, List.map_singleton, List.intercalate_singleton, List.append_nil]

theorem written_cons_cons (r r' : Rule) (rules : List Rule) :
    written (r :: r' :: rules) = r.term.toList ++ ',' :: written (r' :: rules) :=
  List.intercalate_cons_cons.trans (List.append_assoc ..)

theorem isInside_written (h : ∀ r ∈ rules, r.Plain) :
    Selector.isInside (written rules) = false := by
  induction rules with
  | nil => rfl
  | cons r rules ih =>
    obtain ⟨hr, hrules⟩ := List.forall_mem_cons.1 h
    cases rules with
    | nil =>
      rw [written_singleton]
      exact hr.isInside_term rfl
    | cons r' rules =>
      rw [written_cons_cons]
      exact hr.isInside_term ((Selector.isInside_append (t := [',']) (by decide)).trans (ih hrules))

theorem cut_written (h : ∀ r ∈ rules, r.Plain) (hne : rules ≠ []) :
    Selector.cut (written rules) = rules.map (·.term.toList) := by
  induction rules with
  | nil => exact absurd rfl hne
  | cons r rules ih =>
    obtain ⟨hr, hrules⟩ := List.forall_mem_cons.1 h
    cases rules with
    | nil =>
      rw [written_singleton, hr.cut_term, Selector.cut, List.modifyHead_cons, List.append_nil]
      rfl
    | cons r' rules =>
      rw [written_cons_cons, hr.cut_term, Selector.cut_comma (isInside_written hrules),
        ih hrules (List.cons_ne_nil _ _), List.modifyHead_cons, List.append_nil]
      rfl

theorem Rule.Plain.term_term (h : r.Plain) (hr : r.Sound) :
    Selector.term r.term.toList = r.asked := by
  have hblank : ' ' ∉ r.key.toList := h.not_mem_key (by decide) (by decide)
  have hequals : '=' ∉ r.key.toList := h.not_mem_key (by decide) (by decide)
  rw [toList_term, Rule.asked]
  cases hoperator : r.operator with
  | present =>
    have hnone : Selector.oneOf? r.key.toList = none := by
      rw [Selector.oneOf?, Selector.inMark, Selector.splitAt?_eq_none hblank]
      rfl
    rw [Selector.term, hnone, Selector.splitAt?_eq_none hequals]
  | oneOf =>
    have hvalues : Selector.items r.listing = r.values.map String.toList := by
      rw [Selector.items_eq_splitOn]
      exact List.splitOn_intercalate ','
        (List.forall_mem_map.2 fun v hv => h.not_mem_value (by decide) hv)
        (mt List.map_eq_nil_iff.1 (hr.operator.1 hoperator))
    have hsome : Selector.oneOf? (r.key.toList ++ Selector.inMark ++ (r.listing ++ [')'])) =
        some (.oneOf r.key.toList (r.values.map String.toList)) := by
      rw [Selector.oneOf?, Selector.inMark, Selector.splitAt?_append hblank]
      dsimp only [Option.bind_eq_bind, Option.bind_some]
      rw [List.getLast?_concat, if_pos rfl, List.dropLast_concat, hvalues]
    dsimp only
    rw [Selector.term, hsome]

/-- Rules written as a selector and read again. -/
theorem terms_selector (h : ∀ r ∈ rules, r.Plain) (hsound : ∀ r ∈ rules, r.Sound) :
    Selector.terms (selector rules) = rules.map Rule.asked := by
  rw [Selector.terms, toList_selector, Selector.termsOfChars]
  by_cases hne : rules = []
  · subst hne
    rfl
  · have hfull : ∀ t ∈ rules.map (·.term.toList), decide (t ≠ []) :=
      List.forall_mem_map.2 fun r hr => decide_eq_true (hsound r hr).term_ne_nil
    rw [cut_written h hne, List.filter_eq_self.2 hfull, List.map_map]
    exact List.map_congr_left fun r hr => (h r hr).term_term (hsound r hr)

end Affinity

end VolumeExport
