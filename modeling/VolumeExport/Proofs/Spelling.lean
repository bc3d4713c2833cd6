import Mathlib.Data.List.TakeWhile
import VolumeExport.Proofs.Selection

namespace VolumeExport

namespace Text

variable {cs x left right : List Char}

def Blank (cs : List Char) : Prop := ∀ c ∈ cs, isBlank c

instance (cs : List Char) : Decidable (Blank cs) :=
  List.decidableBAll (fun c => isBlank c) cs

theorem Blank.not_mem (h : Blank cs) {c : Char} (hc : isBlank c = false) : c ∉ cs := by
  intro hmem
  rw [h c hmem] at hc
  cases hc

theorem trimLeft_append (h : Blank left) (cs : List Char) : trimLeft (left ++ cs) = trimLeft cs :=
  List.dropWhile_append_of_pos h

theorem trimRight_append (h : Blank right) (cs : List Char) :
    trimRight (cs ++ right) = trimRight cs := by
  have hreverse : Blank right.reverse := fun c hc => h c (List.mem_reverse.1 hc)
  rw [trimRight, List.reverse_append, List.dropWhile_append_of_pos hreverse, trimRight]

theorem trim_append_left (h : Blank left) (cs : List Char) : trim (left ++ cs) = trim cs := by
  rw [trim, trimLeft_append h, trim]

theorem trim_blank (h : Blank cs) : trim cs = [] := by
  rw [← List.append_nil cs, trim_append_left h]
  rfl

theorem trim_append_right (h : Blank right) (hx : IsTrimmed x) : trim (x ++ right) = x := by
  cases x with
  | nil => exact trim_blank h
  | cons c x =>
    have hleft : trimLeft (c :: x ++ right) = c :: x ++ right := trimLeft_eq_self hx.1
    rw [trim, hleft, trimRight_append h, trimRight_eq_self hx.2]

def Around (x cs : List Char) : Prop :=
  ∃ left right, Blank left ∧ Blank right ∧ cs = left ++ (x ++ right)

theorem around_self (x : List Char) : Around x x :=
  ⟨[], [], nofun, nofun, (List.append_nil x).symm⟩

theorem around_spaces (x : List Char) : Around x (' ' :: (x ++ [' '])) :=
  ⟨[' '], [' '], by decide, by decide, rfl⟩

theorem Around.trim_eq (h : Around x cs) (hx : IsTrimmed x) : trim cs = x := by
  obtain ⟨left, right, hleft, hright, rfl⟩ := h
  rw [trim_append_left hleft, trim_append_right hright hx]

theorem Around.not_mem (h : Around x cs) {c : Char} (hc : isBlank c = false) (hx : c ∉ x) :
    c ∉ cs := by
  obtain ⟨left, right, hleft, hright, rfl⟩ := h
  rw [List.mem_append, List.mem_append]
  exact not_or.2 ⟨hleft.not_mem hc, not_or.2 ⟨hx, hright.not_mem hc⟩⟩

end Text

namespace Affinity

open Text (Blank Around IsTrimmed)

variable {α : Type} {r : Rule} {rules : List Rule} {t rest : List Char} {ts : List (List Char)}
  {depth : Nat} {c : Char}

/-- Items that are written one after the other, with blank texts among them. -/
inductive Strewn (writes : α → List Char → Prop) : List α → List (List Char) → Prop
  | nil : Strewn writes [] []
  | item {x xs t ts} : writes x t → Strewn writes xs ts → Strewn writes (x :: xs) (t :: ts)
  | blank {xs t ts} : Blank t → Strewn writes xs ts → Strewn writes xs (t :: ts)

theorem Strewn.forall {writes : α → List Char → Prop} {p : List Char → Prop} {xs : List α}
    (h : Strewn writes xs ts) (hitem : ∀ x ∈ xs, ∀ t, writes x t → p t)
    (hblank : ∀ t, Blank t → p t) : ∀ t ∈ ts, p t := by
  induction h with
  | nil => exact fun _ ht => nomatch ht
  | item hx _ ih =>
    obtain ⟨hhead, htail⟩ := List.forall_mem_cons.1 hitem
    exact List.forall_mem_cons.2 ⟨hhead _ hx, ih htail⟩
  | blank ht _ ih => exact List.forall_mem_cons.2 ⟨hblank _ ht, ih hitem⟩

/-- Where items can be read and blank texts count for nothing, the items are read. -/
theorem Strewn.filterMap_eq {writes : α → List Char → Prop} {read : List Char → Option α}
    {xs : List α} (h : Strewn writes xs ts) (hitem : ∀ x ∈ xs, ∀ t, writes x t → read t = some x)
    (hblank : ∀ t, Blank t → read t = none) : ts.filterMap read = xs := by
  induction h with
  | nil => rfl
  | item hx _ ih =>
    obtain ⟨hhead, htail⟩ := List.forall_mem_cons.1 hitem
    rw [List.filterMap_cons_some (hhead _ hx), ih htail]
  | blank ht _ ih => rw [List.filterMap_cons_none (hblank _ ht), ih hitem]

abbrev Shows (v : String) (t : List Char) : Prop := Around v.toList t

/-- Values between commas. -/
def Lists (values : List String) (cs : List Char) : Prop :=
  ∃ ts, Strewn Shows values ts ∧ cs = [','].intercalate ts

/-- The ways to write one rule. -/
inductive Spells : Rule → List Char → Prop
  | key {key t} : Around key.toList t → Spells ⟨key, .present, []⟩ t
  | colon {key t blank} : Around key.toList t → Blank blank →
      Spells ⟨key, .present, []⟩ (t ++ ':' :: blank)
  | listed {key operator values t inner list} : Around key.toList t → Lists values inner →
      Around ('[' :: inner ++ [']']) list → Spells ⟨key, operator, values⟩ (t ++ ':' :: list)

/-- The ways to write rules between commas. -/
def Spelled (rules : List Rule) (text : String) : Prop :=
  ∃ ts, Strewn Spells rules ts ∧ text.toList = [','].intercalate ts

structure Rule.Neat (r : Rule) : Prop extends r.Sound where
  trimmed : IsTrimmed r.key.toList
  values : ∀ v ∈ r.values, v ≠ "" ∧ IsTrimmed v.toList

/-- The key and the values have none of the signs between them. -/
structure Rule.Spellable (r : Rule) : Prop extends r.Neat where
  freeKey : ∀ c ∈ [',', ':', '[', ']'], c ∉ r.key.toList
  freeValues : ∀ v ∈ r.values, ∀ c ∈ [',', '[', ']'], c ∉ v.toList

theorem isTrimmed_iff {cs : List Char} : IsTrimmed cs ↔ Text.trim cs = cs :=
  ⟨Text.trim_eq_self, fun h => h ▸ Text.isTrimmed_trim cs⟩

instance (r : Rule) : Decidable r.Spellable :=
  decidable_of_iff
    ((r.key ≠ "" ∧ (r.operator = .oneOf ↔ r.values ≠ [])) ∧
      (Text.trim r.key.toList = r.key.toList ∧
        ∀ v ∈ r.values, v ≠ "" ∧ Text.trim v.toList = v.toList) ∧
      [',', ':', '[', ']'].all (· ∉ r.key.toList) ∧
      r.values.all fun v => [',', '[', ']'].all (· ∉ v.toList)) (by
    simp only [List.all_eq_true, decide_eq_true_eq, ← isTrimmed_iff]
    exact ⟨fun h => ⟨⟨⟨h.1.1, h.1.2⟩, h.2.1.1, h.2.1.2⟩, h.2.2.1, h.2.2.2⟩,
      fun h => ⟨⟨h.key, h.operator⟩, ⟨h.trimmed, h.values⟩, h.freeKey, h.freeValues⟩⟩)

/-! ### Terms between commas -/

def Uncut : Nat → List Char → Prop
  | _, [] => True
  | depth, c :: cs => isCut depth c = false ∧ Uncut (deeper depth c) cs

theorem depthAfter_cons (depth : Nat) (c : Char) (t : List Char) :
    depthAfter depth (c :: t) = depthAfter (deeper depth c) t :=
  rfl

theorem depthAfter_append (depth : Nat) (t rest : List Char) :
    depthAfter depth (t ++ rest) = depthAfter (depthAfter depth t) rest :=
  List.foldl_append

theorem Uncut.append (h : Uncut depth t) (hrest : Uncut (depthAfter depth t) rest) :
    Uncut depth (t ++ rest) := by
  induction t generalizing depth with
  | nil => exact hrest
  | cons c t ih => exact ⟨h.1, ih h.2 hrest⟩

theorem terms_ne_nil (depth : Nat) (t : List Char) : terms depth t ≠ [] := by
  cases t with
  | nil => nofun
  | cons c t =>
    rw [terms]
    split
    · nofun
    · split
      · nofun
      · nofun

theorem terms_append (h : Uncut depth t) (rest : List Char) :
    terms depth (t ++ rest) = (terms (depthAfter depth t) rest).modifyHead (t ++ ·) := by
  induction t generalizing depth with
  | nil =>
    obtain ⟨u, us, hterms⟩ := List.exists_cons_of_ne_nil (terms_ne_nil depth rest)
    have hnil : depthAfter depth [] = depth := rfl
    rw [List.nil_append, hnil, hterms]
    rfl
  | cons c t ih =>
    obtain ⟨u, us, hterms⟩ :=
      List.exists_cons_of_ne_nil (terms_ne_nil (depthAfter (deeper depth c) t) rest)
    rw [List.cons_append, terms, h.1, ih h.2, depthAfter_cons, hterms]
    rfl

theorem depthAfter_of_flat (hopen : '[' ∉ t) (hclose : ']' ∉ t) : depthAfter depth t = depth := by
  induction t with
  | nil => rfl
  | cons c t ih =>
    rw [List.mem_cons, not_or] at hopen hclose
    have hsame : deeper depth c = depth := by
      rw [deeper, if_neg (Ne.symm hopen.1), if_neg (Ne.symm hclose.1)]
    rw [depthAfter_cons, hsame, ih hopen.2 hclose.2]

theorem uncut_of_not_mem (h : ',' ∉ t) : Uncut depth t := by
  induction t generalizing depth with
  | nil => trivial
  | cons c t ih =>
    rw [List.mem_cons, not_or] at h
    constructor
    · rw [isCut, decide_eq_false (Ne.symm h.1), Bool.false_and]
    · exact ih h.2

theorem uncut_of_flat (hopen : '[' ∉ t) (hclose : ']' ∉ t) : Uncut (depth + 1) t := by
  induction t with
  | nil => trivial
  | cons c t ih =>
    rw [List.mem_cons, not_or] at hopen hclose
    have hsame : deeper (depth + 1) c = depth + 1 := by
      rw [deeper, if_neg (Ne.symm hopen.1), if_neg (Ne.symm hclose.1)]
    constructor
    · rw [isCut, decide_eq_false (Nat.succ_ne_zero depth), Bool.and_false]
    · rw [hsame]
      exact ih hopen.2 hclose.2

/-- A text that is one term, also with others behind it. -/
def Whole (t : List Char) : Prop := Uncut 0 t ∧ depthAfter 0 t = 0

theorem whole_of_flat (hcomma : ',' ∉ t) (hopen : '[' ∉ t) (hclose : ']' ∉ t) : Whole t :=
  ⟨uncut_of_not_mem hcomma, depthAfter_of_flat hopen hclose⟩

theorem whole_of_blank (h : Blank t) : Whole t :=
  whole_of_flat (h.not_mem rfl) (h.not_mem rfl) (h.not_mem rfl)

theorem Whole.append (h : Whole t) (hrest : Whole rest) : Whole (t ++ rest) := by
  constructor
  · apply h.1.append
    rw [h.2]
    exact hrest.1
  · rw [depthAfter_append, h.2, hrest.2]

theorem whole_bracketed (hopen : '[' ∉ t) (hclose : ']' ∉ t) : Whole ('[' :: t ++ [']']) := by
  have hinner : Whole ('[' :: t ++ [']']) ↔
      Uncut 1 (t ++ [']']) ∧ depthAfter 1 (t ++ [']']) = 0 :=
    ⟨fun h => ⟨h.1.2, h.2⟩, fun h => ⟨⟨rfl, h.1⟩, h.2⟩⟩
  rw [hinner, depthAfter_append, depthAfter_of_flat hopen hclose]
  exact ⟨(uncut_of_flat hopen hclose).append (uncut_of_not_mem (by decide)), rfl⟩

theorem terms_intercalate (h : ∀ t ∈ ts, Whole t) (hne : ts ≠ []) :
    terms 0 ([','].intercalate ts) = ts := by
  induction ts with
  | nil => exact absurd rfl hne
  | cons t ts ih =>
    obtain ⟨ht, hts⟩ := List.forall_mem_cons.1 h
    cases ts with
    | nil =>
      rw [List.intercalate_singleton, ← List.append_nil t, terms_append ht.1, ht.2]
      rfl
    | cons u us =>
      have hcomma (rest : List Char) : terms 0 (',' :: rest) = [] :: terms 0 rest := rfl
      rw [List.intercalate_cons_cons, List.append_assoc, List.singleton_append, terms_append ht.1,
        ht.2, hcomma, ih hts (List.cons_ne_nil _ _), List.modifyHead_cons, List.append_nil]

/-! ### Values in brackets -/

theorem items_eq (cs : List Char) : items cs = Selector.items cs := by
  induction cs with
  | nil => rfl
  | cons c cs ih =>
    rw [items, ih]
    rfl

theorem items_intercalate (h : ∀ t ∈ ts, ',' ∉ t) (hne : ts ≠ []) :
    items ([','].intercalate ts) = ts := by
  rw [items_eq, Selector.items_eq_splitOn]
  exact List.splitOn_intercalate ',' h hne

def value? (t : List Char) : Option String :=
  if Text.trim t = [] then none else some (String.ofList (Text.trim t))

theorem map_values (cs : List Char) :
    (values cs).map String.ofList = (items (unbracketed cs)).filterMap value? := by
  rw [values]
  induction items (unbracketed cs) with
  | nil => rfl
  | cons t ts ih =>
    by_cases ht : Text.trim t = []
    · have hvalue : value? t = none := if_pos ht
      rw [List.map_cons, List.filter_cons_of_neg (by simpa using ht), ih,
        List.filterMap_cons_none hvalue]
    · have hvalue : value? t = some (String.ofList (Text.trim t)) := if_neg ht
      rw [List.map_cons, List.filter_cons_of_pos (by simpa using ht), List.map_cons, ih,
        List.filterMap_cons_some hvalue]

theorem neat_of_value? {v : String} (h : value? t = some v) : v ≠ "" ∧ IsTrimmed v.toList := by
  rw [value?] at h
  split at h
  · cases h
  · next hne =>
    cases h
    rw [String.toList_ofList]
    exact ⟨mt String.ofList_eq_empty_iff.1 hne, Text.isTrimmed_trim t⟩

theorem value?_blank (h : Blank t) : value? t = none := if_pos (Text.trim_blank h)

theorem value?_of_shows {v : String} (hv : v ≠ "") (htrimmed : IsTrimmed v.toList)
    (h : Shows v t) : value? t = some v := by
  rw [value?, h.trim_eq htrimmed, if_neg (mt String.toList_eq_nil_iff.1 hv), String.ofList_toList]

theorem unbracketed_blank (h : Blank t) : unbracketed t = [] := by
  rw [unbracketed, Text.trim_blank h]
  rfl

theorem unbracketed_of_around {inner : List Char} (h : Around ('[' :: inner ++ [']']) t) :
    unbracketed t = inner := by
  have htrimmed : IsTrimmed ('[' :: inner ++ [']']) := by
    constructor
    · intro c hc
      cases hc
      rfl
    · intro c hc
      rw [List.getLast?_concat] at hc
      cases hc
      rfl
  rw [unbracketed, h.trim_eq htrimmed]
  change (if (inner ++ [']']).getLast? = some ']' then (inner ++ [']']).dropLast else _) = inner
  rw [List.getLast?_concat, if_pos rfl, List.dropLast_concat]

/-- The values of a list are read, whatever blanks are in it. -/
theorem Lists.filterMap_items {vs : List String} {inner : List Char} (h : Lists vs inner)
    (hvalues : ∀ v ∈ vs, (v ≠ "" ∧ IsTrimmed v.toList) ∧ ',' ∉ v.toList) :
    (items inner).filterMap value? = vs := by
  obtain ⟨ts, hts, rfl⟩ := h
  have hread : ts.filterMap value? = vs :=
    hts.filterMap_eq (fun v hv t ht => value?_of_shows (hvalues v hv).1.1 (hvalues v hv).1.2 ht)
      fun _ ht => value?_blank ht
  by_cases hne : ts = []
  · subst hne
    exact hread
  · have hfree : ∀ t ∈ ts, ',' ∉ t :=
      hts.forall (fun v hv t ht => ht.not_mem rfl (hvalues v hv).2) fun _ ht => ht.not_mem rfl
    rw [items_intercalate hfree hne, hread]

theorem not_mem_intercalate (h : ∀ t ∈ ts, c ∉ t) (hc : c ≠ ',') : c ∉ [','].intercalate ts := by
  induction ts with
  | nil => nofun
  | cons t ts ih =>
    obtain ⟨ht, hts⟩ := List.forall_mem_cons.1 h
    cases ts with
    | nil =>
      rw [List.intercalate_singleton]
      exact ht
    | cons u us =>
      rw [List.intercalate_cons_cons, List.mem_append, List.mem_append, List.mem_singleton]
      exact not_or.2 ⟨not_or.2 ⟨ht, hc⟩, ih hts⟩

theorem Lists.not_mem {vs : List String} {inner : List Char} (h : Lists vs inner) (hc : c ≠ ',')
    (hblank : Text.isBlank c = false) (hvalues : ∀ v ∈ vs, c ∉ v.toList) : c ∉ inner := by
  obtain ⟨ts, hts, rfl⟩ := h
  have hfree : ∀ t ∈ ts, c ∉ t :=
    hts.forall (fun v hv _ ht => ht.not_mem hblank (hvalues v hv)) fun _ ht => ht.not_mem hblank
  exact not_mem_intercalate hfree hc

/-! ### Single terms -/

theorem forall_ne_colon (h : ':' ∉ t) : ∀ c ∈ t, decide (c ≠ ':') :=
  fun _ hc => decide_eq_true (ne_of_mem_of_not_mem hc h)

theorem takeWhile_append_colon (h : ':' ∉ t) (rest : List Char) :
    (t ++ ':' :: rest).takeWhile (· ≠ ':') = t := by
  rw [List.takeWhile_append_of_pos (forall_ne_colon h), List.takeWhile_cons_of_neg (by decide),
    List.append_nil]

theorem dropWhile_append_colon (h : ':' ∉ t) (rest : List Char) :
    (t ++ ':' :: rest).dropWhile (· ≠ ':') = ':' :: rest := by
  rw [List.dropWhile_append_of_pos (forall_ne_colon h), List.dropWhile_cons_of_neg (by decide)]

theorem rule?_blank (h : Blank t) : rule? t = none := by
  have hkey : Blank (t.takeWhile (· ≠ ':')) := fun c hc => h c (List.takeWhile_subset _ hc)
  exact if_pos (Text.trim_blank hkey)

theorem rule?_eq (hr : r.Sound) (hkey : Text.trim (t.takeWhile (· ≠ ':')) = r.key.toList)
    (hvalues : (values ((t.dropWhile (· ≠ ':')).drop 1)).map String.ofList = r.values) :
    rule? t = some r := by
  have hne : r.key.toList ≠ [] := mt String.toList_eq_nil_iff.1 hr.key
  have hoperator : (if values ((t.dropWhile (· ≠ ':')).drop 1) = [] then .present else .oneOf) =
      r.operator := by
    split
    · next hnone =>
      rw [hnone] at hvalues
      cases h : r.operator with
      | present => rfl
      | oneOf => exact absurd hvalues.symm (hr.operator.1 h)
    · next hsome =>
      rw [hr.operator.2 (hvalues ▸ mt List.map_eq_nil_iff.1 hsome)]
  rw [rule?, hkey, if_neg hne, String.ofList_toList, hoperator, hvalues]

namespace Spells

variable (h : Spells r t) (hr : r.Spellable)
include h hr

/-- A rule is one term, whatever is written behind it. -/
theorem whole : Whole t := by
  have hkey {u : List Char} (hu : Around r.key.toList u) : Whole u :=
    whole_of_flat (hu.not_mem rfl (hr.freeKey _ (by decide)))
      (hu.not_mem rfl (hr.freeKey _ (by decide))) (hu.not_mem rfl (hr.freeKey _ (by decide)))
  have hcolon : Whole [':'] := ⟨⟨rfl, trivial⟩, rfl⟩
  cases h with
  | key ht => exact hkey ht
  | colon ht hbehind => exact (hkey ht).append (hcolon.append (whole_of_blank hbehind))
  | listed ht hvalues hlist =>
    obtain ⟨left, right, hleft, hright, rfl⟩ := hlist
    have hopen := hvalues.not_mem (c := '[') (by decide) rfl
      fun v hv => hr.freeValues v hv _ (by decide)
    have hclose := hvalues.not_mem (c := ']') (by decide) rfl
      fun v hv => hr.freeValues v hv _ (by decide)
    exact (hkey ht).append (hcolon.append
      ((whole_of_blank hleft).append ((whole_bracketed hopen hclose).append (whole_of_blank hright))))

/-- A rule is read, however it is written. -/
theorem rule?_eq_some : rule? t = some r := by
  have hkey {u : List Char} (hu : Around r.key.toList u) :
      ':' ∉ u ∧ Text.trim u = r.key.toList :=
    ⟨hu.not_mem rfl (hr.freeKey _ (by decide)), hu.trim_eq hr.trimmed⟩
  cases h with
  | key ht =>
    obtain ⟨hfree, htrim⟩ := hkey ht
    apply rule?_eq hr.toSound
    · rw [List.takeWhile_eq_self_iff.2 (forall_ne_colon hfree), htrim]
    · rw [List.dropWhile_eq_nil_iff.2 (forall_ne_colon hfree)]
      rfl
  | colon ht hbehind =>
    obtain ⟨hfree, htrim⟩ := hkey ht
    apply rule?_eq hr.toSound
    · rw [takeWhile_append_colon hfree, htrim]
    · rw [dropWhile_append_colon hfree, List.drop_one, List.tail_cons, map_values,
        unbracketed_blank hbehind]
      rfl
  | listed ht hvalues hlist =>
    obtain ⟨hfree, htrim⟩ := hkey ht
    apply rule?_eq hr.toSound
    · rw [takeWhile_append_colon hfree, htrim]
    · rw [dropWhile_append_colon hfree, List.drop_one, List.tail_cons, map_values,
        unbracketed_of_around hlist]
      exact hvalues.filterMap_items fun v hv =>
        ⟨hr.values v hv, hr.freeValues v hv _ (by decide)⟩

end Spells

theorem parse_of_spelled {text : String} (hrules : ∀ r ∈ rules, r.Spellable)
    (h : Spelled rules text) : parse text = rules := by
  obtain ⟨ts, hts, htext⟩ := h
  have hread : ts.filterMap rule? = rules :=
    hts.filterMap_eq (fun r hr t ht => ht.rule?_eq_some (hrules r hr)) fun _ ht => rule?_blank ht
  rw [parse, parseChars, htext]
  by_cases hne : ts = []
  · subst hne
    exact hread
  · have hwhole : ∀ t ∈ ts, Whole t :=
      hts.forall (fun r hr t ht => ht.whole (hrules r hr)) fun _ => whole_of_blank
    rw [terms_intercalate hwhole hne, hread]

theorem neat_of_mem_parse {text : String} (h : r ∈ parse text) : r.Neat := by
  have hsound := sound_of_mem_parse h
  obtain ⟨t, -, ht⟩ := List.mem_filterMap.1 h
  rw [rule?] at ht
  split at ht
  · cases ht
  · cases ht
    constructor
    · exact hsound
    · rw [String.toList_ofList]
      exact Text.isTrimmed_trim _
    · rw [map_values]
      intro v hv
      obtain ⟨u, -, hu⟩ := List.mem_filterMap.1 hv
      exact neat_of_value? hu

/-- Rules are read back from every text that writes them, and every rule that is read from any
text has a trimmed key and, exactly if it asks for one of them, trimmed values. -/
theorem parse_spelled :
    (∀ rules text, (∀ r ∈ rules, r.Spellable) → Spelled rules text → parse text = rules) ∧
    ∀ text, ∀ r ∈ parse text, r.Neat :=
  ⟨fun _ _ => parse_of_spelled, fun _ _ => neat_of_mem_parse⟩

/-- Blanks around a key, a bracket and the values, a blank value, a blank term and empty brackets. -/
theorem parse_spelled_blanks :
    Spelled [⟨"zone", .oneOf, ["a", "b"]⟩, ⟨"disk", .present, []⟩] " zone : [a,, b ] , ,disk:[ ]" ∧
    parse " zone : [a,, b ] , ,disk:[ ]" =
      [⟨"zone", .oneOf, ["a", "b"]⟩, ⟨"disk", .present, []⟩] := by
  have hvalues : Lists ["a", "b"] ['a', ',', ',', ' ', 'b', ' '] :=
    ⟨[['a'], [], [' ', 'b', ' ']],
      .item (Text.around_self _) (.blank nofun (.item (Text.around_spaces _) .nil)), rfl⟩
  have hnone : Lists [] [' '] := ⟨[[' ']], .blank (by decide) .nil, rfl⟩
  have hspelled : Spelled [⟨"zone", .oneOf, ["a", "b"]⟩, ⟨"disk", .present, []⟩]
      " zone : [a,, b ] , ,disk:[ ]" :=
    ⟨_, .item (.listed (Text.around_spaces _) hvalues (Text.around_spaces _))
      (.blank (t := [' ']) (by decide)
        (.item (.listed (Text.around_self _) hnone (Text.around_self _)) .nil)), by decide⟩
  exact ⟨hspelled, parse_spelled.1 _ _ (by decide) hspelled⟩

end Affinity

end VolumeExport
