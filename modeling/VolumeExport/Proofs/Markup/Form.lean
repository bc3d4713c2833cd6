import VolumeExport.Proofs.Markup.Check

namespace VolumeExport.Markup

namespace Value

def given? (name : String) (es : List (Value × Value)) : Option Value :=
  (look name es).filter (!·.isNull)

theorem given?_eq_some_iff {name : String} {es : List (Value × Value)} {v : Value} :
    given? name es = some v ↔ look name es = some v ∧ v.isNull = false := by
  rw [given?, Option.filter_eq_some_iff, Bool.not_eq_true']

end Value

namespace Schema

variable {path : Path} {v : Value} {es : List (Value × Value)} {s : Schema} {r r' : Report}
  {fields : List (String × Bool × Schema)} {name : String}

theorem append_eq_nil_iff :
    (do return (← r) ++ (← r') : Report) = .ok [] ↔ r = .ok [] ∧ r' = .ok [] := by
  cases r with
  | error e => exact ⟨nofun, fun h => nomatch h.1⟩
  | ok lines =>
    cases r' with
    | error e => exact ⟨nofun, fun h => nomatch h.2⟩
    | ok more =>
      change Except.ok (lines ++ more) = Except.ok [] ↔ _
      simp

theorem concat_cons (r : Report) (reports : List Report) :
    concat (r :: reports) = do return (← r) ++ (← concat reports) := by
  rw [concat, concat, List.mapM_cons]
  cases r with
  | error e => rfl
  | ok lines => cases reports.mapM id <;> rfl

/-- Nothing is wrong with a whole exactly if nothing is wrong with its parts. -/
theorem concat_eq_nil_iff {reports : List Report} :
    concat reports = .ok [] ↔ ∀ r ∈ reports, r = .ok [] := by
  induction reports with
  | nil => exact ⟨fun _ => nofun, fun _ => rfl⟩
  | cons r reports ih => rw [concat_cons, append_eq_nil_iff, ih, List.forall_mem_cons]

theorem kind_eq_nil_iff {kind : String} {fits : Bool} :
    (if fits then .ok [] else wrongKind path v kind) = .ok [] ↔ fits := by
  cases fits with
  | true => simp
  | false =>
    refine ⟨fun h => ?_, nofun⟩
    obtain ⟨text, -, h⟩ := eq_ok_of_bind h
    cases h

theorem text?_eq_some_iff {t : String} : v.text? = some t ↔ v = .text t := by
  cases v with
  | text => simp [Value.text?]
  | _ => exact ⟨nofun, nofun⟩

theorem isText_iff : isText v ↔ ∃ t, v = .text t := by
  simp only [isText, Option.isSome_iff_exists, text?_eq_some_iff]

theorem any_contains_iff {names : List String} :
    v.text?.any names.contains ↔ ∃ name ∈ names, v = .text name := by
  simp only [Option.any_eq_true_iff_get, ← text?_eq_some_iff]
  cases v.text? <;> simp

theorem unexpected_eq_nil_iff {names : List String} :
    unexpected path names es = .ok [] ↔ ∀ e ∈ es, ∃ name ∈ names, e.1 = .text name := by
  have hstrange (e : Value × Value) :
      (!e.1.text?.any names.contains) ↔ ¬∃ name ∈ names, e.1 = .text name := by
    rw [← any_contains_iff, Bool.not_eq_true', Bool.eq_false_iff]
  rw [unexpected]
  cases hfilter : es.filter fun e => !e.1.text?.any names.contains with
  | nil =>
    rw [List.filter_eq_nil_iff] at hfilter
    refine ⟨fun _ e he => ?_, fun _ => rfl⟩
    exact Classical.not_not.1 fun hnot => hfilter e he ((hstrange e).2 hnot)
  | cons e strange =>
    constructor
    · intro h
      rw [List.mapM_cons] at h
      obtain ⟨line, -, h⟩ := eq_ok_of_bind h
      obtain ⟨lines, -, h⟩ := eq_ok_of_bind h
      cases h
    · intro h
      obtain ⟨hmem, he⟩ := List.mem_filter.1 (hfilter ▸ List.mem_cons_self)
      exact absurd (h e hmem) ((hstrange e).1 he)

theorem text_eq_nil_iff : faults path .text v = .ok [] ↔ ∃ t, v = .text t := by
  rw [faults, kind_eq_nil_iff, isText_iff]

theorem word_eq_nil_iff {options : List String} :
    faults path (.word options) v = .ok [] ↔ ∃ word ∈ options, v = .text word := by
  rw [faults, ← any_contains_iff]
  split
  · next hfits => simp [hfits]
  · next hnot =>
    refine ⟨fun h => ?_, fun h => absurd h hnot⟩
    obtain ⟨text, -, h⟩ := eq_ok_of_bind h
    cases h

theorem exists_allFaults {options : List Schema}
    (h : ∀ s ∈ options, ∃ lines, faults path s v = .ok lines) :
    ∃ reports, allFaults path options v = .ok reports := by
  induction options with
  | nil => exact ⟨[], rfl⟩
  | cons s options ih =>
    obtain ⟨⟨lines, hlines⟩, hmore⟩ := List.forall_mem_cons.1 h
    obtain ⟨reports, hreports⟩ := ih hmore
    exact ⟨lines :: reports, by rw [allFaults, hlines, hreports]; rfl⟩

theorem of_allFaults {options : List Schema} {reports : List (List String)}
    (h : allFaults path options v = .ok reports) :
    (∀ s ∈ options, ∃ lines ∈ reports, faults path s v = .ok lines) ∧
      ([] ∈ reports → ∃ s ∈ options, faults path s v = .ok []) := by
  induction options generalizing reports with
  | nil =>
    cases h
    exact ⟨nofun, nofun⟩
  | cons s options ih =>
    obtain ⟨lines, hlines, h⟩ := eq_ok_of_bind h
    obtain ⟨more, hmore, h⟩ := eq_ok_of_bind h
    cases h
    obtain ⟨hall, hnil⟩ := ih hmore
    constructor
    · rw [List.forall_mem_cons]
      refine ⟨⟨lines, List.mem_cons_self, hlines⟩, fun s' hs' => ?_⟩
      obtain ⟨lines', hmem, hlines'⟩ := hall s' hs'
      exact ⟨lines', List.mem_cons_of_mem _ hmem, hlines'⟩
    · intro hmem
      cases hmem with
      | head => exact ⟨s, List.mem_cons_self, hlines⟩
      | tail _ hmem =>
        obtain ⟨s', hs', hfits⟩ := hnil hmem
        exact ⟨s', List.mem_cons_of_mem _ hs', hfits⟩

/-- A value has one of some forms if no check of them is cut short and one finds nothing. -/
theorem any_eq_nil_iff {options : List Schema} (hne : options ≠ []) :
    faults path (.any options) v = .ok [] ↔
      (∀ s ∈ options, ∃ lines, faults path s v = .ok lines) ∧
        ∃ s ∈ options, faults path s v = .ok [] := by
  rw [faults]
  constructor
  · intro h
    obtain ⟨reports, hreports, h⟩ := eq_ok_of_bind h
    obtain ⟨hall, hnil⟩ := of_allFaults hreports
    refine ⟨fun s hs => (hall s hs).imp fun _ hlines => hlines.2, ?_⟩
    by_cases hempty : reports.any (·.isEmpty)
    · obtain ⟨lines, hmem, hlines⟩ := List.any_eq_true.1 hempty
      obtain rfl := List.isEmpty_iff.1 hlines
      exact hnil hmem
    · rw [if_neg hempty] at h
      obtain ⟨s, hs⟩ := List.exists_mem_of_ne_nil options hne
      obtain ⟨lines, hmem, hlines⟩ := hall s hs
      obtain rfl := List.flatten_eq_nil_iff.1 (Except.ok.inj h) lines hmem
      exact ⟨s, hs, hlines⟩
  · rintro ⟨hchecked, s, hs, hfits⟩
    obtain ⟨reports, hreports⟩ := exists_allFaults hchecked
    obtain ⟨lines, hmem, hlines⟩ := (of_allFaults hreports).1 s hs
    rw [hfits] at hlines
    cases hlines
    rw [hreports, Except.ok_bind, if_pos (List.any_eq_true.2 ⟨[], hmem, rfl⟩)]
    rfl

theorem exists_kind_iff {kind : String} {fits : Bool} :
    (∃ lines, (if fits then .ok [] else wrongKind path v kind) = .ok lines) ↔
      fits ∨ ∃ t, v.plainText = .ok t := by
  cases fits with
  | true => simp
  | false =>
    simp only [Bool.false_eq_true, if_false, false_or, wrongKind]
    constructor
    · rintro ⟨lines, h⟩
      obtain ⟨t, ht, -⟩ := eq_ok_of_bind h
      exact ⟨t, ht⟩
    · rintro ⟨t, ht⟩
      rw [ht]
      exact ⟨_, rfl⟩

theorem mapping_eq_nil_iff : faults path .mapping v = .ok [] ↔ v.entries?.isSome := by
  rw [faults, kind_eq_nil_iff]

theorem dictionary_eq_nil_iff :
    faults path (.dictionary s) v = .ok [] ↔ ∃ es, v.entries? = some es ∧
      ∀ e ∈ es, ∃ key, e.1 = .text key ∧ faults (path ++ [key]) s e.2 = .ok [] := by
  rw [faults]
  cases hes : v.entries? with
  | none =>
    refine ⟨fun h => ?_, nofun⟩
    obtain ⟨text, -, h⟩ := eq_ok_of_bind h
    cases h
  | some es =>
    have hkeys : concat ((es.filter fun e => !isText e.1).map fun e => wrongKey path e.1) = .ok [] ↔
        ∀ e ∈ es, ∃ key, e.1 = .text key := by
      have hwrong (e : Value × Value) : wrongKey path e.1 ≠ .ok [] := by
        intro h
        obtain ⟨text, -, h⟩ := eq_ok_of_bind h
        cases h
      rw [concat_eq_nil_iff, List.forall_mem_map]
      simp [hwrong, isText_iff]
    have hvalues {f : Value × Value → Report} :
        concat (es.map f) = .ok [] ↔ ∀ e ∈ es, f e = .ok [] := by
      rw [concat_eq_nil_iff, List.forall_mem_map]
    simp only [Option.some.injEq, exists_eq_left']
    constructor
    · intro h e he
      obtain ⟨keys, hok, h⟩ := eq_ok_of_bind h
      split at h
      · next hne =>
        cases h
        exact absurd rfl hne
      · next hnil =>
        rw [Classical.not_not] at hnil
        obtain ⟨key, hkey⟩ := hkeys.1 (hnil ▸ hok) e he
        have hvalue := hvalues.1 h e he
        rw [hkey] at hvalue
        exact ⟨key, hkey, hvalue⟩
    · intro h
      rw [hkeys.2 fun e he => (h e he).imp fun _ hkey => hkey.1, Except.ok_bind, if_neg nofun,
        hvalues]
      intro e he
      obtain ⟨key, hkey, hvalue⟩ := h e he
      rw [hkey]
      exact hvalue

theorem list_eq_nil_iff :
    faults path (.list s) v = .ok [] ↔ ∃ vs, v.ordered? = some vs ∧
      ∀ p ∈ vs.zipIdx, faults (path ++ [toString p.2]) s p.1 = .ok [] := by
  rw [faults]
  cases hvs : v.ordered? with
  | none =>
    refine ⟨fun h => ?_, nofun⟩
    obtain ⟨text, -, h⟩ := eq_ok_of_bind h
    cases h
  | some vs =>
    simp only [Option.some.injEq, exists_eq_left']
    rw [concat_eq_nil_iff, List.mapIdx_eq_zipIdx_map, List.forall_mem_map]

theorem record_eq_nil_iff :
    faults path (.record fields) v = .ok [] ↔ ∃ es, v.entries? = some es ∧
      (∀ e ∈ es, ∃ name ∈ fields.map (·.1), e.1 = .text name) ∧
      fieldFaults path fields es = .ok [] := by
  rw [faults]
  cases hes : v.entries? with
  | none =>
    refine ⟨fun h => ?_, nofun⟩
    obtain ⟨text, -, h⟩ := eq_ok_of_bind h
    cases h
  | some es =>
    simp only [Option.some.injEq, exists_eq_left']
    rw [append_eq_nil_iff, unexpected_eq_nil_iff]

theorem fieldFaults_cons_eq_nil_iff {required : Bool} :
    fieldFaults path ((name, required, s) :: fields) es = .ok [] ↔
      (∀ v, Value.look name es = some v →
        (required = false ∧ v.isNull) ∨ faults (path ++ [name]) s v = .ok []) ∧
      (required → (Value.look name es).isSome) ∧ fieldFaults path fields es = .ok [] := by
  rw [fieldFaults]
  cases Value.look name es with
  | none =>
    rw [append_eq_nil_iff]
    cases required <;> simp [pure, Except.pure]
  | some v =>
    dsimp only
    split
    · next hnull =>
      rw [append_eq_nil_iff]
      simp_all [pure, Except.pure]
    · next hnull =>
      rw [append_eq_nil_iff]
      simp_all

theorem given_eq_nil_iff :
    fieldFaults path ((name, false, s) :: fields) es = .ok [] ↔
      (∀ v, Value.given? name es = some v → faults (path ++ [name]) s v = .ok []) ∧
        fieldFaults path fields es = .ok [] := by
  rw [fieldFaults_cons_eq_nil_iff]
  simp only [Value.given?_eq_some_iff, and_imp, true_and, Bool.false_eq_true, false_imp_iff]
  refine and_congr_left fun _ => forall₂_congr fun v _ => ?_
  cases v.isNull <;> simp

theorem required_eq_nil_iff :
    fieldFaults path ((name, true, s) :: fields) es = .ok [] ↔
      (∃ v, Value.look name es = some v ∧ faults (path ++ [name]) s v = .ok []) ∧
        fieldFaults path fields es = .ok [] := by
  rw [fieldFaults_cons_eq_nil_iff, ← and_assoc]
  refine and_congr_left fun _ => ?_
  cases Value.look name es <;> simp

theorem givens_eq_nil_iff {α : Type} {f : α → String} {as : List α} :
    fieldFaults path (as.map fun a => (f a, false, s)) es = .ok [] ↔
      ∀ a ∈ as, ∀ v, Value.given? (f a) es = some v → faults (path ++ [f a]) s v = .ok [] := by
  induction as with
  | nil => exact ⟨fun _ => nofun, fun _ => rfl⟩
  | cons a as ih => rw [List.map_cons, given_eq_nil_iff, ih, List.forall_mem_cons]

end Schema

end VolumeExport.Markup
