import VolumeExport.Proofs.Markup.Reals
import VolumeExport.Proofs.Overlay
import VolumeExport.Proofs.Quantity

namespace VolumeExport

open Markup

namespace Volume

def textEntries (texts : List (String × String)) : List (Value × Value) :=
  texts.map fun p => (.text p.1, .text p.2)

inductive Content
  | value (text : String)
  | data (texts : List (String × String))

def Content.entry (name : String) : Content → Value
  | .value text => .map [(.text "name", .text name), (.text "value", .text text)]
  | .data texts => .map [(.text "name", .text name), (.text "data", .map (textEntries texts))]

def Permissions.texts (p : Permissions) : List (String × String) :=
  [("UID", (p.uid.map toString).getD ""), ("GID", (p.gid.map toString).getD ""),
    ("mode", p.mode.getD "")]

namespace Config

def contents (c : Config) : List (String × Option Content) :=
  [(Key.serverType, some (.value c.serverType)),
    (Key.backendClass, c.backendClass.map .value),
    (Key.customConfig, some (.value c.customConfig)),
    (Key.leaseTime, some (.value (toString c.leaseTime))),
    (Key.graceTime, some (.value (toString c.graceTime))),
    (Key.groupId, (c.groupId.map toString).map .value),
    (permissionsKey, (c.permissions.map Permissions.texts).map .data),
    (Key.requests, some (.data c.requests.toList)),
    (Key.limits, some (.data c.limits.toList))]

/-- The entries that say what a configuration holds. -/
def toEntries (c : Config) : Entries :=
  c.contents.filterMap fun p => p.2.map fun content => (p.1, content.entry p.1)

def quantityTexts (c : Config) : List String := (c.requests.toList ++ c.limits.toList).map (·.2)

end Config

/-- The texts of values that count as numbers, although their texts are no quantities. -/
def misread : List String := [Value.boolText true, Value.boolText false, Binary64.nan.text]

/-- A text that may stand for a quantity in a configuration. -/
def Stored (text : String) : Prop := (Quantity.ofText? text).isSome ∨ text ∈ misread

theorem isSome_iff_of_stored {text : String} (h : Stored text) :
    (Quantity.ofText? text).isSome ↔ text ∉ misread := by
  have hno : ∀ t ∈ misread, Quantity.ofText? t = none := by decide
  constructor
  · intro hsome hmem
    rw [hno text hmem] at hsome
    cases hsome
  · exact h.resolve_right

def IsSet (text : String) : Prop := Text.strip text = text ∧ text ≠ ""

def IsWritable (n : Int) : Prop := Numeral.write n = .ok (toString n)

structure Permissions.WellFormed (p : Permissions) : Prop where
  uid : ∀ n, p.uid = some n → IsWritable n
  gid : ∀ n, p.gid = some n → IsWritable n
  mode : ∀ m, p.mode = some m → IsSet m ∧ ∃ n, Numeral.read 8 m = .ok n

namespace Config

/-- What holds of a configuration that was read. -/
structure WellFormed (c : Config) : Prop where
  serverType : IsSet c.serverType
  backendClass : ∀ s, c.backendClass = some s → IsSet s
  customConfig : Text.strip c.customConfig = c.customConfig
  leaseTime : c.leaseTime ≠ 0 ∧ IsWritable c.leaseTime
  graceTime : c.graceTime ≠ 0 ∧ IsWritable c.graceTime
  groupId : ∀ n, c.groupId = some n → IsWritable n
  permissions : ∀ p, c.permissions = some p → p.WellFormed
  requests : ∀ p ∈ c.requests.toList, Stored p.2
  limits : ∀ p ∈ c.limits.toList, Stored p.2

variable {entries : Entries} {name key f text t : String} {n : Int} {v : Value} {c : Config}

theorem whole_eq_ok (h : whole key text = .ok n) : Numeral.read 10 text = .ok n := by
  rw [whole] at h
  split at h
  · next m hread =>
    cases h
    exact hread
  · cases h

theorem isWritable_of_whole (h : whole key text = .ok n) : IsWritable n :=
  Numeral.write_of_read (whole_eq_ok h)

theorem isWritable_of_period (h : period key text = .ok n) : n ≠ 0 ∧ IsWritable n := by
  have hread : Numeral.read 10 "90" = .ok defaultPeriod := by decide
  have hdefault : defaultPeriod ≠ 0 ∧ IsWritable defaultPeriod :=
    ⟨by decide, Numeral.write_of_read hread⟩
  rw [period] at h
  split at h
  · cases h
    exact hdefault
  · obtain ⟨m, hm, h⟩ := eq_ok_of_bind h
    obtain rfl := Except.ok.inj h
    split
    · exact hdefault
    · next hne => exact ⟨hne, isWritable_of_whole hm⟩

theorem isWritable_of_wholeIfSet {o : Option Int} (h : wholeIfSet key text = .ok o) :
    ∀ n, o = some n → IsWritable n := by
  rintro n rfl
  rw [wholeIfSet] at h
  split at h
  · cases h
  · obtain ⟨m, hm, h⟩ := eq_ok_of_bind h
    cases h
    exact isWritable_of_whole hm

theorem strip_of_stripped (h : stripped v = .ok t) : Text.strip t = t := by
  rw [stripped] at h
  obtain ⟨s, -, h⟩ := eq_ok_of_bind h
  cases h
  exact Text.strip_strip s

theorem strip_of_value (h : value entries name = .ok t) : Text.strip t = t := by
  rw [value] at h
  obtain ⟨v, -, h⟩ := eq_ok_of_bind h
  split at h
  · cases h
    rfl
  · exact strip_of_stripped h

theorem strip_of_textOf {es : List (Value × Value)} (h : textOf es name = .ok t) :
    Text.strip t = t := by
  rw [textOf] at h
  split at h
  · exact strip_of_stripped h
  · cases h
    rfl

theorem permissionsOf_wellFormed {o : Option Permissions} (h : permissionsOf v = .ok o) :
    ∀ p, o = some p → p.WellFormed := by
  rintro p rfl
  rw [permissionsOf] at h
  split at h
  · cases h
  · obtain ⟨es, -, h⟩ := eq_ok_of_bind h
    obtain ⟨uid, -, h⟩ := eq_ok_of_bind h
    obtain ⟨gid, -, h⟩ := eq_ok_of_bind h
    obtain ⟨mode, hmode, h⟩ := eq_ok_of_bind h
    dsimp only at h
    split at h
    · cases h
    · next hoctal =>
      obtain ⟨u, hu, h⟩ := eq_ok_of_bind h
      obtain ⟨g, hg, h⟩ := eq_ok_of_bind h
      cases h
      refine ⟨isWritable_of_wholeIfSet hu, isWritable_of_wholeIfSet hg, fun m hm => ?_⟩
      dsimp only at hm
      split at hm
      · cases hm
      · next hne =>
        cases hm
        refine ⟨⟨strip_of_textOf hmode, hne⟩, ?_⟩
        cases hread : Numeral.read 8 mode with
        | ok n => exact ⟨n, rfl⟩
        | error e =>
          rw [hread] at hoctal
          exact absurd ⟨hne, rfl⟩ hoctal

theorem plainText_of_number {x : Binary64} (h : v.number? = some x) (hv : v.InFormat)
    (ht : v.plainText = .ok t) : Stored t := by
  cases v with
  | bool b =>
    cases ht
    cases b with
    | true => exact .inr (by decide)
    | false => exact .inr (by decide)
  | int n =>
    have hplain : Value.plainText (.int n) = Numeral.write n := rfl
    rw [hplain] at ht
    exact .inl (Quantity.isSome_of_write ht)
  | real y =>
    cases ht
    by_cases hnan : y = .nan
    · rw [hnan]
      exact .inr (by decide)
    · exact .inl (Quantity.isSome_of_inFormat (hv y rfl) hnan)
  | nan node =>
    cases ht
    exact .inr (by decide)
  | _ => cases h

theorem stored_of_isQuantity (h : isQuantity v = .ok true) (hv : v.InFormat)
    (ht : v.plainText = .ok t) : Stored t := by
  rw [isQuantity] at h
  split at h
  · next hsome =>
    obtain ⟨x, hx⟩ := Option.isSome_iff_exists.1 hsome
    exact plainText_of_number hx hv ht
  · rw [ht] at h
    exact .inl (Except.ok.inj h)

theorem stored_of_quantities {es : List (Value × Value)} {d : Dict String}
    (hes : ∀ e ∈ es, e.2.InFormat) (h : quantities key es = .ok d) :
    ∀ p ∈ d.toList, Stored p.2 := by
  rw [quantities] at h
  have hempty : ∀ p ∈ (∅ : Dict String).toList, Stored p.2 := List.forall_mem_nil _
  apply foldlM_inv (I := fun d : Dict String => ∀ p ∈ d.toList, Stored p.2) ?_ hempty h
  intro e he before after hbefore hafter
  obtain ⟨shown, -, hafter⟩ := eq_ok_of_bind hafter
  obtain ⟨name, -, hafter⟩ := eq_ok_of_bind hafter
  obtain ⟨fits, hfits, hafter⟩ := eq_ok_of_bind hafter
  split at hafter
  · next htrue =>
    obtain ⟨t, ht, hafter⟩ := eq_ok_of_bind hafter
    cases hafter
    intro p hp
    rcases Dict.mem_place hp with rfl | hp
    · rw [htrue] at hfits
      exact stored_of_isQuantity (eq_ok_of_mapError hfits) (hes e he) (eq_ok_of_mapError ht)
    · exact hbefore p hp
  · cases hafter

theorem entries?_of_mappingIfAny {es : List (Value × Value)} (h : mappingIfAny v = .ok es) :
    es = [] ∨ v.entries? = some es := by
  rw [mappingIfAny] at h
  split at h
  · cases h
    exact .inl rfl
  · rw [mapping] at h
    split at h
    · next es' hes =>
      cases h
      exact .inr hes
    · cases h

theorem formed_of_data (hformat : ∀ p ∈ entries, (p.2.part "data").Formed)
    (h : data entries name = .ok v) : v.Formed := by
  have hnull : Value.null.Formed := Value.formed_of_entries?_eq_none nofun rfl
  rw [data, field] at h
  obtain ⟨es, hes, h⟩ := eq_ok_of_bind h
  cases h
  cases hget : entries.get? name with
  | none =>
    rw [hget] at hes
    cases hes
    exact hnull
  | some e =>
    obtain ⟨before, after, heq, -⟩ := List.lookup_eq_some_iff.1 hget
    have he : (e.part "data").Formed := hformat (name, e) (by simp [heq])
    rw [hget, Option.getD_some] at hes
    rcases entries?_of_mappingIfAny hes with rfl | hentries
    · exact hnull
    · rwa [Value.part, Value.field?, hentries] at he

theorem stored_of_resources {d : Dict String} (hv : v.Formed) (h : resources key text v = .ok d) :
    ∀ p ∈ d.toList, Stored p.2 := by
  rw [resources] at h
  split at h
  · obtain ⟨es, hes, h⟩ := eq_ok_of_bind h
    refine stored_of_quantities ?_ h
    rcases entries?_of_mappingIfAny hes with rfl | hentries
    · exact List.forall_mem_nil _
    · exact hv.entries es hentries
  · obtain ⟨w, hw, h⟩ := eq_ok_of_bind h
    split at h
    · next es hentries =>
      exact stored_of_quantities ((Value.read_formed (read_of_document hw)).entries es hentries) h
    · cases h

theorem wellFormed_of_ofEntries (hformat : ∀ p ∈ entries, (p.2.part "data").Formed)
    (h : ofEntries entries = .ok c) : c.WellFormed := by
  rw [ofEntries] at h
  obtain ⟨backend, hbackend, h⟩ := eq_ok_of_bind h
  obtain ⟨group, hgroup, h⟩ := eq_ok_of_bind h
  obtain ⟨server, hserver, h⟩ := eq_ok_of_bind h
  obtain ⟨custom, hcustom, h⟩ := eq_ok_of_bind h
  obtain ⟨leaseText, -, h⟩ := eq_ok_of_bind h
  obtain ⟨lease, hlease, h⟩ := eq_ok_of_bind h
  obtain ⟨graceText, -, h⟩ := eq_ok_of_bind h
  obtain ⟨grace, hgrace, h⟩ := eq_ok_of_bind h
  obtain ⟨groupId, hgroupId, h⟩ := eq_ok_of_bind h
  obtain ⟨permissionsData, -, h⟩ := eq_ok_of_bind h
  obtain ⟨permissions, hpermissions, h⟩ := eq_ok_of_bind h
  obtain ⟨requestsText, -, h⟩ := eq_ok_of_bind h
  obtain ⟨requestsData, hrequestsData, h⟩ := eq_ok_of_bind h
  obtain ⟨requests, hrequests, h⟩ := eq_ok_of_bind h
  obtain ⟨limitsText, -, h⟩ := eq_ok_of_bind h
  obtain ⟨limitsData, hlimitsData, h⟩ := eq_ok_of_bind h
  obtain ⟨limits, hlimits, h⟩ := eq_ok_of_bind h
  cases h
  exact {
    serverType := by
      dsimp only
      split
      · exact ⟨by decide, by decide⟩
      · next hne => exact ⟨strip_of_value hserver, hne⟩
    backendClass := by
      rintro s hs
      dsimp only at hs
      split at hs
      · cases hs
      · next hne =>
        cases hs
        exact ⟨strip_of_value hbackend, hne⟩
    customConfig := strip_of_value hcustom
    leaseTime := isWritable_of_period hlease
    graceTime := isWritable_of_period hgrace
    groupId := isWritable_of_wholeIfSet hgroupId
    permissions := permissionsOf_wellFormed hpermissions
    requests := stored_of_resources (formed_of_data hformat hrequestsData) hrequests
    limits := stored_of_resources (formed_of_data hformat hlimitsData) hlimits }

theorem part_value (name : String) (content : Content) :
    (content.entry name).part "value" = match content with
      | .value text => .text text
      | .data _ => .null := by
  cases content with
  | value text =>
    simp [Content.entry, Value.part, Value.field?, Value.entries?, Value.unfold, Value.look]
  | data texts =>
    simp [Content.entry, Value.part, Value.field?, Value.entries?, Value.unfold, Value.look]

theorem part_data (name : String) (texts : List (String × String)) :
    ((Content.data texts).entry name).part "data" = .map (textEntries texts) := by
  simp [Content.entry, Value.part, Value.field?, Value.entries?, Value.unfold, Value.look]

theorem name?_entry (name : String) (content : Content) :
    name? (content.entry name) = some name := by
  cases content with
  | value text =>
    simp [Content.entry, name?, Value.field?, Value.entries?, Value.unfold, Value.look, Value.text?]
  | data texts =>
    simp [Content.entry, name?, Value.field?, Value.entries?, Value.unfold, Value.look, Value.text?]

theorem names_contents (c : Config) : c.contents.map (·.1) = Key.all := rfl

theorem get?_filterMap {contents : List (String × Option Content)}
    (h : (contents.map (·.1)).Nodup) {o : Option Content} (hmem : (name, o) ∈ contents) :
    Entries.get? (contents.filterMap fun p => p.2.map fun content => (p.1, content.entry p.1))
      name = o.map (·.entry name) := by
  induction contents with
  | nil => cases hmem
  | cons p contents ih =>
    rw [List.map_cons, List.nodup_cons] at h
    simp only [List.filterMap_cons]
    rcases List.mem_cons.1 hmem with rfl | hmem
    · cases o with
      | some content => simp only [Option.map_some, Entries.get?_cons, if_pos]
      | none =>
        apply Entries.get?_eq_none
        intro hname
        obtain ⟨q, hq, rfl⟩ := List.mem_map.1 hname
        obtain ⟨p, hp, hpq⟩ := List.mem_filterMap.1 hq
        obtain ⟨content, -, rfl⟩ := Option.map_eq_some_iff.1 hpq
        exact h.1 (List.mem_map.2 ⟨p, hp, rfl⟩)
    · have hne : p.1 ≠ name := fun heq => h.1 (List.mem_map.2 ⟨_, hmem, heq.symm⟩)
      cases hp : p.2 with
      | some content => simp only [Option.map_some, Entries.get?_cons, if_neg hne, ih h.2 hmem]
      | none => exact ih h.2 hmem

theorem get?_toEntries {o : Option Content} (hmem : (name, o) ∈ c.contents) :
    c.toEntries.get? name = o.map (·.entry name) :=
  get?_filterMap (by rw [names_contents]; decide) hmem

theorem field_toEntries {o : Option Content} (hmem : (name, o) ∈ c.contents) (f : String) :
    field c.toEntries name f =
      .ok ((o.map fun content => (content.entry name).part f).getD .null) := by
  have hget := get?_toEntries hmem
  cases o with
  | none =>
    rw [field, hget]
    rfl
  | some content =>
    apply field_of_get? hget
    cases content with
    | value text => rfl
    | data texts => rfl

theorem value_toEntries (o : Option String) (hmem : (name, o.map .value) ∈ c.contents)
    (ho : ∀ t, o = some t → Text.strip t = t) : value c.toEntries name = .ok (o.getD "") := by
  simp only [value, field_toEntries hmem, part_value, Except.ok_bind]
  cases o with
  | none => rfl
  | some t => exact congrArg Except.ok (ho t rfl)

theorem value_toEntries_some (hmem : (name, some (.value t)) ∈ c.contents)
    (ht : Text.strip t = t) : value c.toEntries name = .ok t := by
  refine value_toEntries (some t) hmem fun s hs => ?_
  cases hs
  exact ht

theorem data_toEntries (name : String) (o : Option (List (String × String)))
    (hmem : (name, o.map .data) ∈ c.contents) :
    data c.toEntries name = .ok ((o.map fun texts => .map (textEntries texts)).getD .null) ∧
      value c.toEntries name = .ok "" := by
  simp only [data, value, field_toEntries hmem, part_value, Except.ok_bind]
  cases o with
  | none => exact ⟨rfl, rfl⟩
  | some texts =>
    rw [Option.map_some, Option.map_some, part_data]
    exact ⟨rfl, rfl⟩

theorem whole_toString (h : IsWritable n) : whole key (toString n) = .ok n := by
  rw [whole, Numeral.read_write h]

theorem period_toString (h : IsWritable n) (hne : n ≠ 0) : period key (toString n) = .ok n := by
  rw [period, if_neg (Numeral.toString_ne_empty n), whole_toString h, Except.ok_bind, if_neg hne]
  rfl

theorem wholeIfSet_toString {o : Option Int} (h : ∀ n, o = some n → IsWritable n) :
    wholeIfSet key ((o.map toString).getD "") = .ok o := by
  cases o with
  | none => rfl
  | some n =>
    rw [wholeIfSet, Option.map_some, Option.getD_some, if_neg (Numeral.toString_ne_empty n),
      whole_toString (h n rfl)]
    rfl

theorem strip_getD {o : Option String} (h : ∀ s, o = some s → Text.strip s = s) :
    Text.strip (o.getD "") = o.getD "" := by
  cases o with
  | none => rfl
  | some s => exact h s rfl

theorem strip_getD_toString (o : Option Int) :
    Text.strip ((o.map toString).getD "") = (o.map toString).getD "" := by
  apply strip_getD
  intro s hs
  obtain ⟨n, -, rfl⟩ := Option.map_eq_some_iff.1 hs
  exact Numeral.strip_toString n

theorem ite_getD {o : Option String} (h : ∀ s, o = some s → s ≠ "") :
    (if o.getD "" = "" then none else some (o.getD "")) = o := by
  cases o with
  | none => rfl
  | some s => exact if_neg (h s rfl)

theorem textOf_textEntries {texts : List (String × String)}
    (hlook : Value.look name (textEntries texts) = some (.text t)) (ht : Text.strip t = t) :
    textOf (textEntries texts) name = .ok t := by
  rw [textOf, hlook]
  exact congrArg Except.ok ht

theorem permissionsOf_texts {p : Permissions} (h : p.WellFormed) :
    permissionsOf (.map (textEntries p.texts)) = .ok (some p) := by
  have huid : textOf (textEntries p.texts) "UID" = .ok ((p.uid.map toString).getD "") :=
    textOf_textEntries (by simp [textEntries, Permissions.texts, Value.look])
      (strip_getD_toString p.uid)
  have hgid : textOf (textEntries p.texts) "GID" = .ok ((p.gid.map toString).getD "") :=
    textOf_textEntries (by simp [textEntries, Permissions.texts, Value.look])
      (strip_getD_toString p.gid)
  have hmode : textOf (textEntries p.texts) "mode" = .ok (p.mode.getD "") :=
    textOf_textEntries (by simp [textEntries, Permissions.texts, Value.look])
      (strip_getD fun m hm => (h.mode m hm).1.1)
  have hoctal : ¬(p.mode.getD "" ≠ "" ∧ (Numeral.read 8 (p.mode.getD "")).toOption.isNone) := by
    rintro ⟨hne, hnone⟩
    cases hm : p.mode with
    | none =>
      rw [hm] at hne
      exact hne rfl
    | some m =>
      obtain ⟨n, hn⟩ := (h.mode m hm).2
      rw [hm, Option.getD_some, hn] at hnone
      cases hnone
  have hvoid : isVoid (.map (textEntries p.texts)) = false := rfl
  have hmapping : mapping (.map (textEntries p.texts)) = .ok (textEntries p.texts) := rfl
  rw [permissionsOf, hvoid, hmapping]
  simp only [Bool.false_eq_true, if_false, Except.ok_bind, huid, hgid, hmode, if_neg hoctal,
    wholeIfSet_toString h.uid, wholeIfSet_toString h.gid, ite_getD fun m hm => (h.mode m hm).1.2]
  rfl

def Refuses {α : Type} (key : String) (texts : List (String × String)) (r : Except Fault α) :
    Prop :=
  ∃ p ∈ texts, (Quantity.ofText? p.2).isNone ∧
    r = .error (.refused (.badQuantity (Text.quoted p.2) p.1 key))

theorem foldlM_texts {texts : List (String × String)}
    {add : Dict String → Value × Value → Except Fault (Dict String)}
    (hadd : ∀ d (p : String × String), add d (.text p.1, .text p.2) =
      if (Quantity.ofText? p.2).isSome then .ok (d.insert p.1 p.2)
      else .error (.refused (.badQuantity (Text.quoted p.2) p.1 key))) (d : Dict String) :
    let r := (textEntries texts).foldlM add d
    (∀ p ∈ texts, (Quantity.ofText? p.2).isSome) ∧
      r = .ok (texts.foldl (fun d p => d.insert p.1 p.2) d) ∨ Refuses key texts r := by
  induction texts generalizing d with
  | nil => exact .inl ⟨nofun, rfl⟩
  | cons p texts ih =>
    rw [textEntries, List.map_cons, List.foldlM_cons, hadd]
    by_cases hp : (Quantity.ofText? p.2).isSome
    · rw [if_pos hp, Except.ok_bind]
      rcases ih (d.insert p.1 p.2) with ⟨hall, heq⟩ | ⟨q, hq, hrefused⟩
      · exact .inl ⟨List.forall_mem_cons.2 ⟨hp, hall⟩, heq⟩
      · exact .inr ⟨q, List.mem_cons_of_mem _ hq, hrefused⟩
    · rw [if_neg hp]
      exact .inr ⟨p, List.mem_cons_self, by simpa using hp, rfl⟩

theorem quantities_texts (key : String) (texts : List (String × String)) :
    let r := quantities key (textEntries texts)
    (∀ p ∈ texts, (Quantity.ofText? p.2).isSome) ∧ r = .ok (Dict.ofList texts) ∨
      Refuses key texts r := by
  refine foldlM_texts (fun d p => ?_) ∅
  have hshown (t : String) : (Value.text t).shown = .ok (Text.quoted t) := rfl
  have hplain (t : String) : (Value.text t).plainText = .ok t := rfl
  have hquantity (t : String) : isQuantity (.text t) = .ok (Quantity.ofText? t).isSome := rfl
  simp only [hshown, hplain, hquantity, Except.mapError, Except.ok_bind]
  rfl

theorem resources_texts (texts : List (String × String)) :
    resources key "" (.map (textEntries texts)) = quantities key (textEntries texts) := by
  cases texts with
  | nil => rfl
  | cons p texts => rfl

/-- A configuration is read from the entries that it is written as, unless a text among its
quantities is none. -/
theorem ofEntries_toEntries (h : c.WellFormed) :
    let r := ofEntries c.toEntries
    (∀ t ∈ c.quantityTexts, (Quantity.ofText? t).isSome) ∧ r = .ok c ∨
      Refuses Key.requests c.requests.toList r ∨ Refuses Key.limits c.limits.toList r := by
  have hbackend : value c.toEntries Key.backendClass = .ok (c.backendClass.getD "") :=
    value_toEntries _ (by simp [contents]) fun s hs => (h.backendClass s hs).1
  have hgroup : value c.toEntries Key.groupId = .ok ((c.groupId.map toString).getD "") := by
    refine value_toEntries _ (by simp [contents]) fun s hs => ?_
    obtain ⟨n, -, rfl⟩ := Option.map_eq_some_iff.1 hs
    exact Numeral.strip_toString n
  have hserver : value c.toEntries Key.serverType = .ok c.serverType :=
    value_toEntries_some (by simp [contents]) h.serverType.1
  have hcustom : value c.toEntries Key.customConfig = .ok c.customConfig :=
    value_toEntries_some (by simp [contents]) h.customConfig
  have hlease : value c.toEntries Key.leaseTime = .ok (toString c.leaseTime) :=
    value_toEntries_some (by simp [contents]) (Numeral.strip_toString _)
  have hgrace : value c.toEntries Key.graceTime = .ok (toString c.graceTime) :=
    value_toEntries_some (by simp [contents]) (Numeral.strip_toString _)
  obtain ⟨hdata, -⟩ := data_toEntries (c := c) permissionsKey (c.permissions.map Permissions.texts)
    (by simp [contents])
  obtain ⟨hrequests, hrequested⟩ := data_toEntries (c := c) Key.requests (some c.requests.toList)
    (by simp [contents])
  obtain ⟨hlimits, hlimited⟩ := data_toEntries (c := c) Key.limits (some c.limits.toList)
    (by simp [contents])
  have hpermissions : (data c.toEntries permissionsKey >>= permissionsOf) = .ok c.permissions := by
    rw [hdata, Except.ok_bind]
    cases hp : c.permissions with
    | none => rfl
    | some p => exact permissionsOf_texts (h.permissions p hp)
  have hset := ite_getD (o := c.backendClass) fun s hs => (h.backendClass s hs).2
  rw [Option.map_some, Option.getD_some] at hrequests hlimits
  rw [ofEntries_eq, hbackend, hgroup, hserver, hcustom, hlease, hgrace, hpermissions, hrequests,
    hrequested, hlimits, hlimited]
  simp only [Except.ok_bind, period_toString h.leaseTime.2 h.leaseTime.1,
    period_toString h.graceTime.2 h.graceTime.1, wholeIfSet_toString h.groupId, resources_texts,
    if_neg h.serverType.2, hset]
  rcases quantities_texts Key.requests c.requests.toList with
    ⟨hallRequests, hokRequests⟩ | ⟨p, hp, hnone, herror⟩
  · rw [hokRequests, Dict.ofList_toList, Except.ok_bind]
    rcases quantities_texts Key.limits c.limits.toList with
      ⟨hallLimits, hokLimits⟩ | ⟨p, hp, hnone, herror⟩
    · rw [hokLimits, Dict.ofList_toList]
      refine .inl ⟨fun t ht => ?_, rfl⟩
      obtain ⟨p, hp, rfl⟩ := List.mem_map.1 ht
      exact (List.mem_append.1 hp).elim (hallRequests p) (hallLimits p)
    · rw [herror]
      exact .inr (.inr ⟨p, hp, hnone, rfl⟩)
  · rw [herror]
    exact .inr (.inl ⟨p, hp, hnone, rfl⟩)

theorem isEntry_entry (name : String) (content : Content) : IsEntry (content.entry name) := by
  cases content with
  | value text =>
    refine ⟨_, rfl, by simp, ⟨name, by simp [Value.look]⟩, ?_, ?_, ?_⟩
    · simp [Value.given?, Value.look, Value.IsScalar.text]
    · simp [Value.given?, Value.look]
    · simp [Value.given?, Value.look]
  | data texts =>
    refine ⟨_, rfl, by simp, ⟨name, by simp [Value.look]⟩, ?_, ?_, ?_⟩
    · simp [Value.given?, Value.look]
    · simp [Value.given?, Value.look, Value.entries?, Value.unfold]
    · simp [Value.given?, Value.look]

theorem checked_of_mem_toEntries {p : String × Value} (h : p ∈ c.toEntries) :
    Entries.checked p.2 = .ok p.1 := by
  obtain ⟨q, -, hq⟩ := List.mem_filterMap.1 h
  obtain ⟨content, -, rfl⟩ := Option.map_eq_some_iff.1 hq
  refine Entries.checked_eq_ok_iff.2 ⟨⟨isEntry_entry _ _, ?_⟩, ?_⟩
  · rintro ⟨n, hn, -⟩
    have hpart := part_value q.1 content
    rw [Value.part, hn] at hpart
    cases content with
    | value text => cases hpart
    | data texts => cases hpart
  · exact name?_entry q.1 content

/-- The entries of a configuration that was read have the form of entries and give the same
configuration, unless the text of a truth value or of no number is among its quantities; such a
text is refused. -/
theorem recoding_stable_iff (hformat : ∀ p ∈ entries, (p.2.part "data").Formed)
    (h : ofEntries entries = .ok c) :
    c.leaseTime ≠ 0 ∧ c.graceTime ≠ 0 ∧
      (∀ t ∈ c.quantityTexts, (Quantity.ofText? t).isSome ↔ t ∉ misread) ∧
      (∀ p ∈ c.toEntries, Entries.checked p.2 = .ok p.1) ∧
      (ofEntries c.toEntries = .ok c ↔ ∀ t ∈ c.quantityTexts, t ∉ misread) ∧
      (ofEntries c.toEntries = .ok c ∨
        Refuses Key.requests c.requests.toList (ofEntries c.toEntries) ∨
          Refuses Key.limits c.limits.toList (ofEntries c.toEntries)) := by
  have hwell := wellFormed_of_ofEntries hformat h
  have hstored : ∀ t ∈ c.quantityTexts, (Quantity.ofText? t).isSome ↔ t ∉ misread := by
    intro t ht
    obtain ⟨p, hp, rfl⟩ := List.mem_map.1 ht
    exact isSome_iff_of_stored ((List.mem_append.1 hp).elim (hwell.requests p) (hwell.limits p))
  have hread := ofEntries_toEntries hwell
  refine ⟨hwell.leaseTime.1, hwell.graceTime.1, hstored, fun p hp => checked_of_mem_toEntries hp,
    ?_, hread.imp_left And.right⟩
  constructor
  · intro hok
    rw [hok] at hread
    rcases hread with ⟨hall, -⟩ | ⟨p, -, -, herror⟩ | ⟨p, -, -, herror⟩
    · exact fun t ht => (hstored t ht).1 (hall t ht)
    · cases herror
    · cases herror
  · intro hall
    have hsome {p : String × String} (hp : p ∈ c.requests.toList ++ c.limits.toList)
        (hnone : (Quantity.ofText? p.2).isNone) : False := by
      have ht : p.2 ∈ c.quantityTexts := List.mem_map_of_mem hp
      have hquantity := (hstored _ ht).2 (hall _ ht)
      rw [Option.isNone_iff_eq_none.1 hnone] at hquantity
      cases hquantity
    rcases hread with ⟨-, hok⟩ | ⟨p, hp, hnone, -⟩ | ⟨p, hp, hnone, -⟩
    · exact hok
    · exact (hsome (List.mem_append_left _ hp) hnone).elim
    · exact (hsome (List.mem_append_right _ hp) hnone).elim

def limiting (v : Value) : Entries :=
  [(Key.limits, .map [(.text "name", .text Key.limits), (.text "data", .map [(.text "cpu", v)])])]

theorem formed_limiting (h : v.InFormat) : ∀ p ∈ limiting v, (p.2.part "data").Formed := by
  have hformed : (Value.map [(.text "cpu", v)]).Formed := by
    refine ⟨nofun, fun es hes => ?_⟩
    cases hes
    exact List.forall_mem_singleton.2 h
  rw [limiting, List.forall_mem_singleton]
  simpa [Value.part, Value.field?, Value.entries?, Value.unfold, Value.look] using hformed

theorem recoding_stable_iff_real :
    ∃ c, ofEntries (limiting (.real (.ofRatio false 1 2))) = .ok c ∧
      ofEntries c.toEntries = .ok c := by
  have hread : ofEntries (limiting (.real (.ofRatio false 1 2))) =
      .ok { Config.default with limits := .ofList [("cpu", "0.5")] } := by
    decide +kernel
  have hformat : (Value.real (.ofRatio false 1 2)).InFormat := by
    rintro _ ⟨⟩
    exact Binary64.ofRatio_inFormat
  obtain ⟨-, -, -, -, hagain, -⟩ := recoding_stable_iff (formed_limiting hformat) hread
  exact ⟨_, hread, hagain.2 (by decide)⟩

/-- A truth value counts as a quantity, but its text does not. -/
theorem recoding_unstable :
    ¬∀ (entries : Entries) (c : Config), (∀ p ∈ entries, Entries.checked p.2 = .ok p.1) →
      (∀ p ∈ entries, (p.2.part "data").Formed) → ofEntries entries = .ok c →
      ofEntries c.toEntries = .ok c := by
  intro h
  have hread : ofEntries (limiting (.bool true)) =
      .ok { Config.default with limits := .ofList [("cpu", "True")] } := by
    decide +kernel
  have hchecked : ∀ p ∈ limiting (.bool true), Entries.checked p.2 = .ok p.1 := by
    decide +kernel
  have hformat : (Value.bool true).InFormat := nofun
  have hagain := h (limiting (.bool true)) _ hchecked (formed_limiting hformat) hread
  revert hagain
  decide +kernel

end Config

end Volume

end VolumeExport
