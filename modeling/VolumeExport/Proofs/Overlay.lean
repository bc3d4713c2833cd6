import VolumeExport.Proofs.Markup.Form
import VolumeExport.Proofs.Markup.Renaming
import VolumeExport.Proofs.Misconfiguration

namespace VolumeExport

open Markup

namespace Markup.Value

inductive IsScalar : Value → Prop
  | text (s) : IsScalar (.text s)
  | int (n) : IsScalar (.int n)
  | real (x) : IsScalar (.real x)
  | nan (node) : IsScalar (.nan node)
  | bool (b) : IsScalar (.bool b)

/-- Values that differ in their marks and nodes alone. -/
def Alike (v w : Value) : Prop := ∃ ρ σ, ρ.Injective ∧ w = v.rename ρ σ

theorem alike_text {t : String} : Alike (.text t) (.text t) :=
  ⟨id, id, Function.injective_id, rfl⟩

theorem alike_null : Alike .null .null := ⟨id, id, Function.injective_id, rfl⟩

theorem isNull_iff {v : Value} : v.isNull = true ↔ v = .null := by
  cases v <;> simp [isNull]

def part (name : String) (v : Value) : Value := (v.field? name).getD .null

end Markup.Value

namespace Markup.Schema

variable {path : Path} {v : Value}

theorem write_eq_ok_iff {n : Int} :
    (∃ t, Numeral.write n = .ok t) ↔ Numeral.oversized n = false := by
  rw [Numeral.write, Numeral.oversized, decide_eq_false_iff_not, Nat.not_le]
  split
  · next h => exact ⟨fun _ => h, fun _ => ⟨_, rfl⟩⟩
  · next h =>
    constructor
    · rintro ⟨_, ⟨⟩⟩
    · exact fun hsmall => absurd hsmall h

theorem scalar_eq_nil_iff :
    faults path (.any [.text, .whole, .number, .truth]) v = .ok [] ↔
      v.IsScalar ∧ ∀ n, v = .int n → Numeral.oversized n = false := by
  have hkinds {P : Schema → Prop} : (∀ s ∈ [.text, .whole, .number, .truth], P s) ↔
      P .text ∧ P .whole ∧ P .number ∧ P .truth := by simp
  have hkind {P : Schema → Prop} : (∃ s ∈ [.text, .whole, .number, .truth], P s) ↔
      P .text ∨ P .whole ∨ P .number ∨ P .truth := by simp
  rw [any_eq_nil_iff (List.cons_ne_nil _ _), hkinds, hkind]
  simp only [faults, kind_eq_nil_iff, exists_kind_iff]
  cases v with
  | text s => simp [isText, Value.text?, Value.IsScalar.text, Value.plainText]
  | int n =>
    simp [isText, Value.text?, isWhole, isNumber, isTruth, Value.IsScalar.int, Value.plainText,
      Value.shown, Value.shownIn, write_eq_ok_iff]
  | real x =>
    simp [isText, Value.text?, isWhole, isNumber, isTruth, Value.IsScalar.real, Value.plainText,
      Value.shown, Value.shownIn]
  | nan node =>
    simp [isText, Value.text?, isWhole, isNumber, isTruth, Value.IsScalar.nan, Value.plainText,
      Value.shown, Value.shownIn]
  | bool b =>
    simp [isText, Value.text?, isWhole, isNumber, isTruth, Value.IsScalar.bool, Value.plainText,
      Value.shown, Value.shownIn]
  | _ =>
    simp [isText, Value.text?, isWhole, isNumber, isTruth]
    rintro ⟨⟩

theorem isTruth_iff : isTruth v ↔ ∃ b, v = .bool b := by
  cases v <;> simp [isTruth]

theorem flag_eq_nil_iff :
    faults path (.any [.text, .truth]) v = .ok [] ↔ (∃ t, v = .text t) ∨ ∃ b, v = .bool b := by
  have hkinds {P : Schema → Prop} : (∀ s ∈ [.text, .truth], P s) ↔ P .text ∧ P .truth := by simp
  have hkind {P : Schema → Prop} : (∃ s ∈ [.text, .truth], P s) ↔ P .text ∨ P .truth := by simp
  rw [any_eq_nil_iff (List.cons_ne_nil _ _), hkinds, hkind]
  simp only [faults, kind_eq_nil_iff, exists_kind_iff, isText_iff, isTruth_iff]
  refine and_iff_right_of_imp ?_
  rintro (⟨t, rfl⟩ | ⟨b, rfl⟩)
  · exact ⟨.inl ⟨t, rfl⟩, .inr ⟨t, rfl⟩⟩
  · exact ⟨.inr ⟨_, rfl⟩, .inl ⟨b, rfl⟩⟩

end Markup.Schema

namespace Volume

/-- A value that has the form of entries. -/
def IsEntry (e : Value) : Prop :=
  ∃ es, e.entries? = some es ∧
    (∀ p ∈ es, ∃ name ∈ ["name", "value", "data", "enabled"], p.1 = .text name) ∧
    (∃ name, Value.look "name" es = some (.text name)) ∧
    (∀ v, Value.given? "value" es = some v → v.IsScalar) ∧
    (∀ v, Value.given? "data" es = some v → v.entries?.isSome) ∧
    ∀ v, Value.given? "enabled" es = some v → (∃ t, v = .text t) ∨ ∃ b, v = .bool b

/-- An entry whose value is a number with too many digits. -/
def IsHuge (e : Value) : Prop := ∃ n, e.field? "value" = some (.int n) ∧ Numeral.oversized n

def name? (e : Value) : Option String := (e.field? "name").bind Value.text?

inductive Lists (text : String) : List Value → Prop
  | blank : Text.strip text = "" → Lists text []
  | null : Text.strip text ≠ "" → Value.read text = .ok .null → Lists text []
  | items {v items} : Text.strip text ≠ "" → Value.read text = .ok v → v.items? = some items →
      Lists text items

/-- The last of some entries that has a name. -/
def last? (name : String) (items : List Value) : Option Value :=
  items.reverse.find? fun e => name? e = some name

/-- What is declared once and what is declared another time declare the same. -/
inductive Agree : Option Value → Option Value → Prop
  | absent : Agree none none
  | declared {e e'} : (e.part "value").Alike (e'.part "value") →
      (e.part "data").Alike (e'.part "data") → Agree (some e) (some e')

def Config.Key.all : List String :=
  [serverType, backendClass, customConfig, leaseTime, graceTime, groupId, permissionsKey, requests,
    limits]

variable {e e' : Value} {entries defaults : Entries} {name key text : String} {items : List Value}

namespace Entries

theorem faults_eq_nil_iff :
    Schema.faults [] schema e = .ok [] ↔ IsEntry e ∧ ¬IsHuge e := by
  rw [schema, Schema.record_eq_nil_iff, IsEntry, ← exists_and_right]
  refine exists_congr fun es => ?_
  rw [and_assoc, and_assoc]
  refine and_congr_right fun hes => and_congr_right fun _ => ?_
  have hhuge : ¬IsHuge e ↔ ∀ v, Value.given? "value" es = some v →
      ∀ n, v = .int n → Numeral.oversized n = false := by
    simp only [IsHuge, Value.field?, hes, Option.bind_some, Value.given?_eq_some_iff]
    constructor
    · rintro hnot v ⟨hlook, -⟩ n rfl
      exact Bool.eq_false_iff.2 fun hbig => hnot ⟨n, hlook, hbig⟩
    · rintro hsmall ⟨n, hlook, hbig⟩
      rw [hsmall _ ⟨hlook, rfl⟩ n rfl] at hbig
      cases hbig
  have hname : (∃ v, Value.look "name" es = some v ∧ ∃ t, v = .text t) ↔
      ∃ name, Value.look "name" es = some (.text name) := by
    constructor
    · rintro ⟨v, hlook, t, rfl⟩
      exact ⟨t, hlook⟩
    · rintro ⟨t, hlook⟩
      exact ⟨_, hlook, t, rfl⟩
  have hvalue : (∀ v, Value.given? "value" es = some v →
      v.IsScalar ∧ ∀ n, v = .int n → Numeral.oversized n = false) ↔
        (∀ v, Value.given? "value" es = some v → v.IsScalar) ∧ ¬IsHuge e := by
    rw [hhuge, ← forall_and]
    exact forall_congr' fun v => imp_and
  rw [Schema.required_eq_nil_iff, Schema.given_eq_nil_iff, Schema.given_eq_nil_iff,
    Schema.given_eq_nil_iff]
  simp only [Schema.text_eq_nil_iff, Schema.scalar_eq_nil_iff, Schema.mapping_eq_nil_iff,
    Schema.flag_eq_nil_iff, hname, hvalue]
  constructor
  · rintro ⟨hnamed, ⟨hscalar, hsmall⟩, hdata, henabled, -⟩
    exact ⟨⟨hnamed, hscalar, hdata, henabled⟩, hsmall⟩
  · rintro ⟨⟨hnamed, hscalar, hdata, henabled⟩, hsmall⟩
    exact ⟨hnamed, ⟨hscalar, hsmall⟩, hdata, henabled, rfl⟩

theorem checked_of_form (hform : IsEntry e) (hsmall : ¬IsHuge e) :
    ∃ name, name? e = some name ∧ checked e = .ok name := by
  have hfaults := faults_eq_nil_iff.2 ⟨hform, hsmall⟩
  obtain ⟨es, hes, -, ⟨name, hname⟩, -⟩ := hform
  have hnamed : (e.field? "name").bind Value.text? = some name := by
    rw [Value.field?, hes, Option.bind_some, hname]
    rfl
  refine ⟨name, hnamed, ?_⟩
  rw [checked, hfaults, hes, hnamed]
  rfl

theorem checked_eq_ok_iff :
    checked e = .ok name ↔ (IsEntry e ∧ ¬IsHuge e) ∧ name? e = some name := by
  constructor
  · intro h
    have hform := faults_eq_nil_iff.1 (faults_of_checked h)
    obtain ⟨name', hname, h'⟩ := checked_of_form hform.1 hform.2
    rw [h] at h'
    cases h'
    exact ⟨hform, hname⟩
  · rintro ⟨hform, hname⟩
    obtain ⟨name', hname', h⟩ := checked_of_form hform.1 hform.2
    rw [hname] at hname'
    cases hname'
    exact h

theorem checked_of_huge (hform : IsEntry e) (hhuge : IsHuge e) :
    checked e = .error (.unwritable .tooLarge) := by
  obtain ⟨es, hes, hnames, ⟨name, hname⟩, -⟩ := hform
  obtain ⟨n, hvalue, hbig⟩ := hhuge
  rw [Value.field?, hes, Option.bind_some] at hvalue
  have hwrite : Numeral.write n = .error .tooLarge := by
    rw [Numeral.write, if_neg]
    exact Nat.not_lt.2 (of_decide_eq_true hbig)
  have hfault (path : Schema.Path) (options : List Schema) :
      Schema.faults path (.any (.text :: options)) (.int n) = .error .tooLarge := by
    rw [Schema.faults, Schema.allFaults, Schema.faults]
    simp only [Schema.isText, Value.text?, Schema.wrongKind, Value.plainText, Value.shown,
      Value.shownIn, hwrite]
    rfl
  have hfaults : Schema.faults [] schema e = .error .tooLarge := by
    rw [schema, Schema.faults, hes]
    simp only [List.map_cons, List.map_nil]
    rw [Schema.unexpected_eq_nil_iff.2 hnames, Schema.fieldFaults, hname, Schema.fieldFaults,
      hvalue]
    dsimp only
    rw [hfault, Schema.text_eq_nil_iff.2 ⟨name, rfl⟩]
    rfl
  rw [checked, hes, hfaults]
  rfl

/-- Every entry of a text counts until a later one has its name. -/
def collect (entries : Entries) (items : List Value) : Entries :=
  items.foldl (fun es e => insert es ((name? e).getD "") e) entries

theorem foldlM_eq_ok_iff {after : Entries} :
    (items.foldlM (fun es e => return insert es (← checked e) e) entries : Except Fault Entries) =
        .ok after ↔
      (∀ e ∈ items, IsEntry e ∧ ¬IsHuge e) ∧ collect entries items = after := by
  induction items generalizing entries with
  | nil => simp [collect, pure, Except.pure]
  | cons e items ih =>
    rw [List.foldlM_cons, List.forall_mem_cons]
    constructor
    · intro h
      obtain ⟨es, hes, h⟩ := eq_ok_of_bind h
      obtain ⟨name, hname, hes⟩ := eq_ok_of_bind hes
      obtain ⟨hform, hname⟩ := checked_eq_ok_iff.1 hname
      cases hes
      obtain ⟨hforms, hafter⟩ := ih.1 h
      refine ⟨⟨hform, hforms⟩, ?_⟩
      rw [collect, List.foldl_cons, hname]
      exact hafter
    · rintro ⟨⟨hform, hforms⟩, rfl⟩
      obtain ⟨name, hname, hchecked⟩ := checked_of_form hform.1 hform.2
      rw [hchecked]
      refine ih.2 ⟨hforms, ?_⟩
      rw [collect, collect, List.foldl_cons, hname]
      rfl

theorem parse_of_lists (h : Lists text items) :
    parse text = items.foldlM (fun es e => return insert es (← checked e) e) [] := by
  cases h with
  | blank hblank =>
    rw [parse, if_pos hblank]
    rfl
  | null hne hread =>
    rw [parse, if_neg hne, document, hread]
    rfl
  | @items v _ hne hread hitems =>
    have hnull : v.isNull = false := by
      cases v with
      | null => cases hitems
      | _ => rfl
    rw [parse, if_neg hne, document, hread, Except.mapError, Except.ok_bind, ofValue, hnull, hitems]
    rfl

theorem lists_of_parse (h : parse text = .ok entries) : ∃ items, Lists text items := by
  rw [parse] at h
  split at h
  · next hblank => exact ⟨[], .blank hblank⟩
  · next hne =>
    obtain ⟨v, hv, h⟩ := eq_ok_of_bind h
    rw [ofValue] at h
    split at h
    · next hnull =>
      obtain rfl : v = .null := by
        cases v <;> first | rfl | cases hnull
      exact ⟨[], .null hne (read_of_document hv)⟩
    · split at h
      · next items hitems => exact ⟨items, .items hne (read_of_document hv) hitems⟩
      · cases h

theorem parse_eq_ok_iff (h : Lists text items) :
    parse text = .ok entries ↔
      (∀ e ∈ items, IsEntry e ∧ ¬IsHuge e) ∧ collect [] items = entries := by
  rw [parse_of_lists h, foldlM_eq_ok_iff]

theorem parse_of_huge (h : Lists text items) (hforms : ∀ e ∈ items, IsEntry e)
    (hhuge : ∃ e ∈ items, IsHuge e) : parse text = .error (.unwritable .tooLarge) := by
  rw [parse_of_lists h]
  clear h
  generalize ([] : Entries) = entries
  induction items generalizing entries with
  | nil =>
    obtain ⟨e, he, -⟩ := hhuge
    cases he
  | cons e items ih =>
    obtain ⟨hform, hforms⟩ := List.forall_mem_cons.1 hforms
    rw [List.foldlM_cons]
    by_cases hbig : IsHuge e
    · rw [checked_of_huge hform hbig]
      rfl
    · obtain ⟨name, -, hchecked⟩ := checked_of_form hform hbig
      rw [hchecked]
      refine ih hforms ?_ _
      obtain ⟨e', he', hbig'⟩ := hhuge
      cases he' with
      | head => exact absurd hbig' hbig
      | tail _ he' => exact ⟨e', he', hbig'⟩

def names (entries : Entries) : List String := entries.map (·.1)

theorem get?_cons (p : String × Value) (entries : Entries) :
    get? (p :: entries) key = if p.1 = key then some p.2 else get? entries key := by
  rw [get?, List.lookup_cons, get?]
  by_cases h : p.1 = key
  · simp [h]
  · rw [beq_false_of_ne (Ne.symm h), if_neg h]

theorem get?_insert : get? (insert entries name e) key =
    if name = key then some e else get? entries key := by
  induction entries with
  | nil =>
    rw [insert, get?_cons]
  | cons p entries ih =>
    obtain ⟨n, e'⟩ := p
    rw [insert]
    by_cases hn : n = name
    · subst hn
      rw [if_pos rfl, get?_cons, get?_cons]
      split <;> rfl
    · rw [if_neg hn, get?_cons, ih, get?_cons]
      by_cases h : n = key
      · rw [if_pos h, if_neg fun hname => hn (h.trans hname.symm), if_pos h]
      · rw [if_neg h, if_neg h]

theorem names_cons (p : String × Value) (entries : Entries) :
    names (p :: entries) = p.1 :: names entries := rfl

theorem names_insert : (insert entries name e).names =
    if name ∈ entries.names then entries.names else entries.names ++ [name] := by
  induction entries with
  | nil => simp [insert, names]
  | cons p entries ih =>
    obtain ⟨n, e'⟩ := p
    rw [insert]
    by_cases hn : n = name
    · simp [hn, names_cons]
    · rw [if_neg hn, names_cons, names_cons, ih]
      by_cases hmem : name ∈ names entries
      · rw [if_pos hmem, if_pos (List.mem_cons_of_mem _ hmem)]
      · rw [if_neg hmem, if_neg, List.cons_append]
        exact List.not_mem_cons_of_ne_of_not_mem (Ne.symm hn) hmem

theorem nodup_insert (h : entries.names.Nodup) : (insert entries name e).names.Nodup := by
  rw [names_insert]
  split
  · exact h
  · next hnew =>
    refine List.nodup_append.2 ⟨h, by simp, fun n hn n' hn' => ?_⟩
    rw [List.mem_singleton] at hn'
    rintro rfl
    exact hnew (hn' ▸ hn)

theorem nodup_collect (h : entries.names.Nodup) : (collect entries items).names.Nodup := by
  induction items generalizing entries with
  | nil => exact h
  | cons e items ih => exact ih (nodup_insert h)

theorem last?_cons (hname : name? e = some name) :
    last? key (e :: items) = (last? key items).or (if name = key then some e else none) := by
  rw [last?, List.reverse_cons, List.find?_append, List.find?_singleton, last?]
  simp [hname]

theorem get?_collect (hnamed : ∀ e ∈ items, (name? e).isSome) :
    get? (collect entries items) key = (last? key items).or (get? entries key) := by
  induction items generalizing entries with
  | nil => rfl
  | cons e items ih =>
    obtain ⟨hname, hnamed⟩ := List.forall_mem_cons.1 hnamed
    obtain ⟨name, hname⟩ := Option.isSome_iff_exists.1 hname
    have hcollect : collect entries (e :: items) =
        collect (insert entries name e) items := by
      rw [collect, List.foldl_cons, hname]
      rfl
    rw [hcollect, ih hnamed, get?_insert, last?_cons hname, Option.or_assoc]
    split <;> rfl

theorem get?_eq_none (h : key ∉ entries.names) : get? entries key = none := by
  rw [get?, List.lookup_eq_none_iff]
  intro p hp
  rw [bne_iff_ne]
  rintro rfl
  exact h (List.mem_map_of_mem hp)

theorem get?_withDefaults (h : entries.names.Nodup) :
    get? (entries.withDefaults defaults) key = (get? entries key).or (get? defaults key) := by
  induction entries generalizing defaults with
  | nil => rfl
  | cons p entries ih =>
    rw [names_cons, List.nodup_cons] at h
    have hover : Entries.withDefaults (p :: entries) defaults =
        Entries.withDefaults entries (insert defaults p.1 p.2) := rfl
    rw [hover, ih h.2, get?_insert, get?_cons]
    by_cases hp : p.1 = key
    · rw [get?_eq_none (hp ▸ h.1), if_pos hp, if_pos hp]
      rfl
    · rw [if_neg hp, if_neg hp]

end Entries

namespace Config

/-- Two readings of a field give alike values, or fail alike. -/
inductive SameRead : Except Fault Value → Except Fault Value → Prop
  | same (r) : SameRead r r
  | alike {v w} : v.Alike w → SameRead (.ok v) (.ok w)

theorem SameRead.bind {α : Type} {r r' : Except Fault Value} {f : Value → Except Fault α}
    (h : SameRead r r') (hf : ∀ v w : Value, v.Alike w → f w = f v) : (r >>= f) = (r' >>= f) := by
  cases h with
  | same r => rfl
  | alike hvw => exact (hf _ _ hvw).symm

variable {v w : Value} {merged merged' : Entries}

theorem isVoid_rename {ρ : Mark → Mark} {σ : Nat → Nat} : isVoid (v.rename ρ σ) = isVoid v := by
  cases v with
  | list vs => cases vs <;> rfl
  | set vs => cases vs <;> rfl
  | map es => cases es <;> rfl
  | _ => rfl

theorem stripped_alike (h : v.Alike w) : stripped w = stripped v := by
  obtain ⟨ρ, σ, hρ, rfl⟩ := h
  rw [stripped, Value.plainText_rename hρ, stripped]

theorem textOf_rename {ρ : Mark → Mark} {σ : Nat → Nat} (hρ : ρ.Injective)
    {es : List (Value × Value)} :
    textOf (Value.renameEntries ρ σ es) name = textOf es name := by
  rw [textOf, Value.look_rename, textOf]
  cases Value.look name es with
  | none => rfl
  | some v => exact stripped_alike ⟨ρ, σ, hρ, rfl⟩

theorem permissionsOf_alike (h : v.Alike w) : permissionsOf w = permissionsOf v := by
  obtain ⟨ρ, σ, hρ, rfl⟩ := h
  rw [permissionsOf, isVoid_rename, mapping, Value.entries?_rename hρ, permissionsOf, mapping]
  cases v.entries? with
  | none => rfl
  | some es => simp only [Option.map_some, Except.ok_bind, textOf_rename hρ]

theorem quantities_rename {ρ : Mark → Mark} {σ : Nat → Nat} (hρ : ρ.Injective)
    {es : List (Value × Value)} :
    quantities key (Value.renameEntries ρ σ es) = quantities key es := by
  rw [quantities, Value.renameEntries_eq_map, List.foldlM_map, quantities]
  simp only [Value.shown_rename hρ, Value.plainText_rename hρ, isQuantity, Value.number?_rename]

theorem resources_alike (h : v.Alike w) : resources key text w = resources key text v := by
  obtain ⟨ρ, σ, hρ, rfl⟩ := h
  rw [resources, mappingIfAny, isVoid_rename, mapping, Value.entries?_rename hρ, resources,
    mappingIfAny, mapping]
  split
  · split
    · rfl
    · cases v.entries? with
      | none => rfl
      | some es => exact quantities_rename hρ
  · rfl

theorem field_of_get? {f : String} (hget : entries.get? name = some e)
    (hmapping : e.entries?.isSome) : field entries name f = .ok (e.part f) := by
  obtain ⟨es, hes⟩ := Option.isSome_iff_exists.1 hmapping
  have hfound : mappingIfAny e = .ok es := by
    rw [mappingIfAny]
    split
    · next hvoid =>
      cases e with
      | map es' =>
        cases hes
        obtain rfl := List.isEmpty_iff.1 hvoid
        rfl
      | cycle => cases hvoid
      | _ => cases hes
    · rw [mapping, hes]
  rw [field, hget, Option.getD_some, hfound, Value.part, Value.field?, hes]
  rfl

theorem ofEntries_eq (entries : Entries) : ofEntries entries = do
    let backend ← value entries Key.backendClass
    let group ← value entries Key.groupId
    let server ← value entries Key.serverType
    let custom ← value entries Key.customConfig
    let lease ← period Key.leaseTime (← value entries Key.leaseTime)
    let grace ← period Key.graceTime (← value entries Key.graceTime)
    let groupId ← wholeIfSet Key.groupId group
    let permissions ← data entries permissionsKey >>= permissionsOf
    let requested ← value entries Key.requests
    let requests ← data entries Key.requests >>= resources Key.requests requested
    let limited ← value entries Key.limits
    let limits ← data entries Key.limits >>= resources Key.limits limited
    return {
      serverType := if server = "" then Settings.supportedServerType else server
      backendClass := if backend = "" then none else some backend
      customConfig := custom
      leaseTime := lease
      graceTime := grace
      groupId := groupId
      permissions := permissions
      requests := requests
      limits := limits } := by
  simp only [ofEntries, bind_assoc]

/-- Entries that read alike, name by name, give one configuration. -/
theorem ofEntries_congr
    (h : ∀ name ∈ Key.all, ∀ f ∈ ["value", "data"],
      SameRead (field merged name f) (field merged' name f)) :
    ofEntries merged = ofEntries merged' := by
  have hvalue {name : String} (hname : name ∈ Key.all) :
      value merged name = value merged' name := by
    apply (h name hname "value" (by simp)).bind
    intro v w hvw
    obtain ⟨ρ, σ, hρ, rfl⟩ := hvw
    rw [Value.isNull_rename, stripped_alike ⟨ρ, σ, hρ, rfl⟩]
  have hpermissions : (data merged permissionsKey >>= permissionsOf) =
      (data merged' permissionsKey >>= permissionsOf) :=
    (h permissionsKey (by simp [Key.all]) "data" (by simp)).bind fun _ _ => permissionsOf_alike
  have hresources {name : String} (hname : name ∈ Key.all) (text : String) :
      (data merged name >>= resources name text) = (data merged' name >>= resources name text) :=
    (h name hname "data" (by simp)).bind fun _ _ => resources_alike
  simp (disch := decide) only [ofEntries_eq, hvalue, hpermissions, hresources]

end Config

variable {items' : List Value} {text' : String}

/-- A declared entry stands in for the default of its name as a whole. -/
theorem get?_merged (h : Lists text items) (hparse : Entries.parse text = .ok entries) :
    (entries.withDefaults defaults).get? name = (last? name items).or (defaults.get? name) := by
  obtain ⟨hforms, rfl⟩ := (Entries.parse_eq_ok_iff h).1 hparse
  have hnamed : ∀ e ∈ items, (name? e).isSome := fun e he => by
    obtain ⟨name, hname, -⟩ := Entries.checked_of_form (hforms e he).1 (hforms e he).2
    rw [hname]
    rfl
  have hnodup : (Entries.collect [] items).names.Nodup := Entries.nodup_collect List.nodup_nil
  rw [Entries.get?_withDefaults hnodup, Entries.get?_collect hnamed, Option.or_assoc]
  rfl

theorem field_merged {f : String} (h : Lists text items)
    (hparse : Entries.parse text = .ok entries) (hlast : last? name items = some e) :
    Config.field (entries.withDefaults defaults) name f = .ok (e.part f) := by
  have hmem : e ∈ items := List.mem_reverse.1 (List.mem_of_find?_eq_some hlast)
  obtain ⟨es, hes, -⟩ := (((Entries.parse_eq_ok_iff h).1 hparse).1 e hmem).1
  apply Config.field_of_get?
  · rw [get?_merged h hparse, hlast]
    rfl
  · rw [hes]
    rfl

theorem ofText_congr (h : Lists text items) (h' : Lists text' items')
    (hforms : ∀ e ∈ items, IsEntry e ∧ ¬IsHuge e) (hforms' : ∀ e ∈ items', IsEntry e ∧ ¬IsHuge e)
    (hagree : ∀ name ∈ Config.Key.all, Agree (last? name items) (last? name items')) :
    Config.ofText defaults text = Config.ofText defaults text' := by
  have hparse := (Entries.parse_eq_ok_iff h).2 ⟨hforms, rfl⟩
  have hparse' := (Entries.parse_eq_ok_iff h').2 ⟨hforms', rfl⟩
  rw [Config.ofText, hparse, Config.ofText, hparse']
  apply Config.ofEntries_congr
  intro name hname f hf
  have hget : _ = (last? name items).or (defaults.get? name) := get?_merged h hparse
  have hget' : _ = (last? name items').or (defaults.get? name) := get?_merged h' hparse'
  have hdeclares := hagree name hname
  cases hlast : last? name items with
  | none =>
    rw [hlast] at hdeclares hget
    cases hlast' : last? name items' with
    | some e' =>
      rw [hlast'] at hdeclares
      cases hdeclares
    | none =>
      rw [hlast'] at hget'
      rw [Config.field, hget, Config.field, hget']
      exact .same _
  | some e =>
    rw [hlast] at hdeclares
    cases hlast' : last? name items' with
    | none =>
      rw [hlast'] at hdeclares
      cases hdeclares
    | some e' =>
      rw [hlast'] at hdeclares
      obtain _ | ⟨hvalue, hdata⟩ := hdeclares
      rw [field_merged h hparse hlast, field_merged h' hparse' hlast']
      rcases List.mem_pair.1 hf with rfl | rfl
      · exact .alike hvalue
      · exact .alike hdata

/-- A text is read if all its entries have their form, and only the last entries of the names that
are known make a difference. -/
theorem last_entries_declare (defaults : Entries) :
    (∀ text, (∃ entries, Entries.parse text = .ok entries) ↔
      ∃ items, Lists text items ∧ ∀ e ∈ items, IsEntry e ∧ ¬IsHuge e) ∧
    (∀ text items, Lists text items → (∀ e ∈ items, IsEntry e) → (∃ e ∈ items, IsHuge e) →
      Entries.parse text = .error (.unwritable .tooLarge)) ∧
    (∀ text items entries name, Lists text items → Entries.parse text = .ok entries →
      (entries.withDefaults defaults).get? name = (last? name items).or (defaults.get? name)) ∧
    (∀ text text' items items', Lists text items → Lists text' items' →
      (∀ e ∈ items, IsEntry e ∧ ¬IsHuge e) → (∀ e ∈ items', IsEntry e ∧ ¬IsHuge e) →
      (∀ name ∈ Config.Key.all, Agree (last? name items) (last? name items')) →
      Config.ofText defaults text = Config.ofText defaults text') ∧
    (Entries.AllSound False defaults → ∀ text,
      FailsAs (Fault.From (Documents defaults text)) (Config.ofText defaults text)) := by
  refine ⟨fun text => ?_, fun _ _ => Entries.parse_of_huge, fun _ _ _ _ => get?_merged,
    fun _ _ _ _ => ofText_congr, ofText_failsAs_of_sound⟩
  constructor
  · rintro ⟨entries, hparse⟩
    obtain ⟨items, h⟩ := Entries.lists_of_parse hparse
    exact ⟨items, h, ((Entries.parse_eq_ok_iff h).1 hparse).1⟩
  · rintro ⟨items, h, hforms⟩
    exact ⟨_, (Entries.parse_eq_ok_iff h).2 ⟨hforms, rfl⟩⟩

/-- Whether the entries have their form and pass a check. -/
def listed (check : List Value → Bool) (v : Value) : Bool :=
  v.items?.any fun items =>
    items.all (fun e => decide (Schema.faults [] Entries.schema e = .ok [])) && check items

theorem exists_lists {check : List Value → Bool} {v : Value} (htext : Text.strip text ≠ "")
    (hread : Value.read text = .ok v) (h : listed check v = true) :
    ∃ items, Lists text items ∧ (∀ e ∈ items, IsEntry e ∧ ¬IsHuge e) ∧ check items = true := by
  obtain ⟨items, hitems, hboth⟩ := (Option.any_eq_true _ _).1 h
  obtain ⟨hforms, hcheck⟩ := Bool.and_eq_true_iff.1 hboth
  refine ⟨items, .items htext hread hitems, fun e he => ?_, hcheck⟩
  exact Entries.faults_eq_nil_iff.1 (of_decide_eq_true (List.all_eq_true.1 hforms e he))

/-- Whether one of the names that count is declared with a text, and no other one. -/
def declaresOnly (key value : String) (items : List Value) : Bool :=
  Config.Key.all.all fun name =>
    if name = key then
      (last? name items).any fun e =>
        decide ((e.part "value").text? = some value) && (e.part "data").isNull
    else (last? name items).isNone

theorem agree_of_declaresOnly {value : String} {items' : List Value}
    (h : declaresOnly key value items = true) (h' : declaresOnly key value items' = true) :
    ∀ name ∈ Config.Key.all, Agree (last? name items) (last? name items') := by
  intro name hname
  have hone := List.all_eq_true.1 h name hname
  have hother := List.all_eq_true.1 h' name hname
  by_cases hkey : name = key
  · rw [if_pos hkey, Option.any_eq_true] at hone hother
    obtain ⟨e, hlast, he⟩ := hone
    obtain ⟨e', hlast', he'⟩ := hother
    rw [Bool.and_eq_true_iff, decide_eq_true_iff, Schema.text?_eq_some_iff, Value.isNull_iff] at he he'
    rw [hlast, hlast']
    refine .declared ?_ ?_
    · rw [he.1, he'.1]
      exact Value.alike_text
    · rw [he.2, he'.2]
      exact Value.alike_null
  · rw [if_neg hkey, Option.isNone_iff_eq_none] at hone hother
    rw [hone, hother]
    exact .absent

def leased : Entries :=
  [(Config.Key.leaseTime,
    .map [(.text "name", .text Config.Key.leaseTime), (.text "value", .text "45")])]

/-- The lease time twice, with an entry of no known name in between. -/
def repeated : String :=
  "- \x7bname: LeaseTime, value: '60'\x7d\n- \x7bname: x\x7d\n" ++
    "- \x7bname: LeaseTime, value: '75', enabled: false\x7d"

def single : String := "- \x7bname: LeaseTime, value: '75'\x7d"

theorem last_entries_declare_repeated :
    ∃ items items', Lists repeated items ∧ Lists single items' ∧
      (∀ name ∈ Config.Key.all, Agree (last? name items) (last? name items')) ∧
      Config.ofText leased repeated = Config.ofText leased single ∧
      (Config.ofText leased repeated).toOption.map (·.leaseTime) = some 75 := by
  obtain ⟨v, hread, hcheck⟩ := exists_ok_of_check (Value.read repeated)
    (listed (declaresOnly Config.Key.leaseTime "75")) (by decide +kernel)
  obtain ⟨v', hread', hcheck'⟩ := exists_ok_of_check (Value.read single)
    (listed (declaresOnly Config.Key.leaseTime "75")) (by decide +kernel)
  obtain ⟨items, hlists, hforms, hitems⟩ := exists_lists (by decide +kernel) hread hcheck
  obtain ⟨items', hlists', hforms', hitems'⟩ := exists_lists (by decide +kernel) hread' hcheck'
  have hagree := agree_of_declaresOnly hitems hitems'
  exact ⟨items, items', hlists, hlists', hagree,
    (last_entries_declare leased).2.2.2.1 _ _ _ _ hlists hlists' hforms hforms' hagree,
    by decide +kernel⟩

def undated : String :=
  "- \x7bname: NFSServerResourceLimits, value: '\x7bcpu: 2020-13-45\x7d'\x7d"

/-- A date without a month in the text of resources is not refused. -/
theorem ofText_unrefused :
    ¬∀ (defaults : Entries) (text : String) (items : List Value), Lists text items →
      (∀ e ∈ items, IsEntry e ∧ ¬IsHuge e) →
      (∃ declared, Config.ofText defaults text = .ok declared) ∨
        ∃ cause, Config.ofText defaults text = .error (.refused cause) := by
  intro h
  obtain ⟨entries, hparse, -⟩ := exists_ok_of_check (Entries.parse undated)
    (fun _ => true) (by decide +kernel)
  obtain ⟨items, hlists⟩ := Entries.lists_of_parse hparse
  have hresult : Config.ofText [] undated = .error (.unfit (.noDate .noMonth)) := by
    decide +kernel
  have hreported := h [] undated items hlists ((Entries.parse_eq_ok_iff hlists).1 hparse).1
  rw [hresult] at hreported
  obtain ⟨_, ⟨⟩⟩ | ⟨_, ⟨⟩⟩ := hreported

end Volume

end VolumeExport
