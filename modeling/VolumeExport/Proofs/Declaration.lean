import VolumeExport.Proofs.Markup.Check
import VolumeExport.Volume.Config

namespace VolumeExport.Volume

open Markup

def Big (documents : String → Prop) : Prop :=
  ∃ t v, documents t ∧ Value.read t = .ok v ∧ v.oversized

/-- A fault has its cause in documents. -/
def Fault.From (documents : String → Prop) : Fault → Prop
  | .refused _ => True
  | .unfit e => e ≠ .malformed ∧ ∃ t, documents t ∧ Value.read t = .error e
  | .unwritable e => e = .tooLarge ∧ Big documents
  | .noMapping => False

variable {documents : String → Prop} {text name : String} {e v : Value} {entries defaults : Entries}

theorem failsAs_unwritable {α : Type} {b : Bool} {r : Except Numeral.Fault α}
    (h : FailsAs (Numeral.Overflow b) r) (hb : b → Big documents) :
    FailsAs (Fault.From documents) (r.mapError Fault.unwritable) :=
  h.mapError fun _ he => ⟨he.1, hb he.2⟩

theorem failsAs_refused {α : Type} (cause : Refusal) :
    FailsAs (Fault.From documents) (.error (.refused cause) : Except Fault α) :=
  failsAs_error trivial

theorem document_failsAs (h : documents text) (refusal : Refusal) :
    FailsAs (Fault.From documents) (Entries.document refusal text) := by
  have hread : FailsAs (fun e => Value.read text = .error e) (Value.read text) := fun e he => he
  rw [Entries.document]
  refine hread.mapError fun e he => ?_
  by_cases hne : e = .malformed
  · rw [if_pos hne]
    trivial
  · rw [if_neg hne]
    exact ⟨hne, text, h, he⟩

theorem read_of_document {refusal : Refusal} (h : Entries.document refusal text = .ok v) :
    Value.read text = .ok v := eq_ok_of_mapError h

/-- What the check of entries leaves of an entry, with its numbers. -/
structure Entries.Sound (big : Prop) (e : Value) : Prop where
  mapping : e.entries?.isSome
  data : ∀ es v, e.entries? = some es → Value.look "data" es = some v →
    v.isNull ∨ v.entries?.isSome
  big : e.oversized → big

namespace Entries

theorem checked_failsAs (h : e.oversized → Big documents) :
    FailsAs (Fault.From documents) (checked e) := by
  have hname : ((e.field? "name").getD .null).oversized → e.oversized := by
    intro hname
    cases hfield : e.field? "name" with
    | none =>
      rw [hfield] at hname
      cases hname
    | some v =>
      rw [hfield] at hname
      obtain ⟨es, hes, hlook⟩ := Option.bind_eq_some_iff.1 hfield
      obtain ⟨k, hk⟩ := Value.mem_of_look hlook
      exact Value.oversized_of_entries hes hk (.inr hname)
  have hcheck : FailsAs (Fault.From documents)
      ((Schema.faults [] schema e).mapError Fault.unwritable) :=
    failsAs_unwritable (Schema.faults_failsAs [] schema e) h
  rw [checked]
  split
  · exact (failsAs_unwritable Value.shown_failsAs h).bind fun _ _ => failsAs_refused _
  · apply hcheck.bind
    intro lines _
    dsimp only
    split
    · exact (failsAs_unwritable Value.shown_failsAs fun hn => h (hname hn)).bind fun _ _ =>
        failsAs_refused _
    · exact failsAs_ok _

theorem faults_of_checked (h : checked e = .ok name) : Schema.faults [] schema e = .ok [] := by
  rw [checked] at h
  split at h
  · obtain ⟨shown, -, h⟩ := eq_ok_of_bind h
    cases h
  · obtain ⟨lines, hlines, h⟩ := eq_ok_of_bind h
    dsimp only at h
    split at h
    · obtain ⟨shown, -, h⟩ := eq_ok_of_bind h
      cases h
    · next hnil =>
      obtain rfl : lines = [] := Classical.not_not.1 hnil
      exact eq_ok_of_mapError hlines

theorem sound_of_checked (h : checked e = .ok name) : Sound (e.oversized = true) e := by
  have hfaults := faults_of_checked h
  rw [schema, Schema.faults] at hfaults
  split at hfaults
  · obtain ⟨_, -, hfaults⟩ := eq_ok_of_bind hfaults
    cases hfaults
  · next es hes =>
    refine ⟨Option.isSome_iff_exists.2 ⟨es, hes⟩, fun es' v hes' hv => ?_, id⟩
    rw [hes] at hes'
    cases hes'
    obtain ⟨strange, -, hfaults⟩ := eq_ok_of_bind hfaults
    obtain ⟨more, hmore, hfaults⟩ := eq_ok_of_bind hfaults
    obtain ⟨-, rfl⟩ := List.append_eq_nil_iff.1 (Except.ok.inj hfaults)
    have hdata := Schema.fits_of_fieldFaults hmore ("data", false, .mapping) (by simp) v hv
    exact hdata.imp And.right Schema.isSome_entries?_of_faults

theorem Sound.mono {big big' : Prop} (h : Sound big e) (hbig : big → big') : Sound big' e :=
  ⟨h.mapping, h.data, fun he => hbig (h.big he)⟩

def AllSound (big : Prop) (entries : Entries) : Prop := ∀ p ∈ entries, Sound big p.2

theorem allSound_nil (big : Prop) : AllSound big [] := nofun

theorem AllSound.insert {big : Prop} (h : AllSound big entries) (he : Sound big e) (name : String) :
    AllSound big (insert entries name e) := by
  induction entries with
  | nil => simpa [AllSound, Entries.insert] using he
  | cons p entries ih =>
    obtain ⟨hp, hentries⟩ := List.forall_mem_cons.1 h
    rw [Entries.insert]
    split
    · exact List.forall_mem_cons.2 ⟨he, hentries⟩
    · exact List.forall_mem_cons.2 ⟨hp, ih hentries⟩

theorem AllSound.withDefaults {big : Prop} (h : AllSound big entries)
    (hdefaults : AllSound big defaults) : AllSound big (entries.withDefaults defaults) := by
  rw [Entries.withDefaults]
  induction entries generalizing defaults with
  | nil => exact hdefaults
  | cons p entries ih =>
    obtain ⟨hp, hentries⟩ := List.forall_mem_cons.1 h
    exact ih hentries (hdefaults.insert hp p.1)

theorem ofValue_failsAs (h : v.oversized → Big documents) :
    FailsAs (Fault.From documents) (ofValue v) := by
  rw [ofValue]
  split
  · exact failsAs_ok _
  · split
    · next items hitems =>
      apply failsAs_foldlM
      intro es e he
      exact (checked_failsAs fun hbig => h (Value.oversized_of_items hitems he hbig)).bind
        fun _ _ => failsAs_ok _
    · exact failsAs_refused _

theorem allSound_of_ofValue (h : ofValue v = .ok entries) :
    AllSound (v.oversized = true) entries := by
  rw [ofValue] at h
  split at h
  · cases h
    exact allSound_nil _
  · split at h
    · next items hitems =>
      apply foldlM_inv (I := AllSound (v.oversized = true)) ?_ (allSound_nil _) h
      intro e he before after hbefore hafter
      obtain ⟨name, hname, hafter⟩ := eq_ok_of_bind hafter
      cases hafter
      exact hbefore.insert
        ((sound_of_checked hname).mono (Value.oversized_of_items hitems he)) name
    · cases h

theorem parse_failsAs (h : Text.strip text ≠ "" → documents text) :
    FailsAs (Fault.From documents) (parse text) := by
  rw [parse]
  split
  · exact failsAs_ok _
  · next hne =>
    exact (document_failsAs (h hne) _).bind fun v hv =>
      ofValue_failsAs fun hbig => ⟨text, v, h hne, read_of_document hv, hbig⟩

theorem allSound_of_parse (h : parse text = .ok entries) :
    AllSound (∃ v, Text.strip text ≠ "" ∧ Value.read text = .ok v ∧ v.oversized) entries := by
  rw [parse] at h
  split at h
  · cases h
    exact allSound_nil _
  · next hne =>
    obtain ⟨v, hv, h⟩ := eq_ok_of_bind h
    exact fun p hp => (allSound_of_ofValue h p hp).mono fun hbig =>
      ⟨v, hne, read_of_document hv, hbig⟩

theorem allSound_defaultEntries (settings : Settings) (big : Prop) :
    AllSound big (Config.defaultEntries settings) := by
  have hentry (name value : String) :
      Sound big (.map [(.text "name", .text name), (.text "value", .text value)]) := by
    refine ⟨rfl, fun es v hes hv => ?_, nofun⟩
    cases hes
    simp [Value.look] at hv
  rw [Config.defaultEntries]
  refine List.forall_mem_cons.2 ⟨hentry _ _, ?_⟩
  split
  · nofun
  · exact List.forall_mem_singleton.2 (hentry _ _)

end Entries

namespace Config

open Entries (AllSound Sound)

theorem field_of_sound (h : AllSound (Big documents) entries) (name f : String) :
    ∃ v, field entries name f = .ok v ∧ (v.oversized → Big documents) ∧
      (f = "data" → v.isNull ∨ v.entries?.isSome) := by
  have hfound : ∃ es, mappingIfAny ((entries.get? name).getD .null) = .ok es ∧
      ∀ v, Value.look f es = some v → (v.oversized → Big documents) ∧
        (f = "data" → v.isNull ∨ v.entries?.isSome) := by
    cases hget : entries.get? name with
    | none => exact ⟨[], rfl, nofun⟩
    | some e =>
      rw [Option.getD_some, mappingIfAny]
      split
      · exact ⟨[], rfl, nofun⟩
      · have hsound : Sound (Big documents) e := by
          obtain ⟨before, after, heq, -⟩ := List.lookup_eq_some_iff.1 hget
          exact h (name, e) (by simp [heq])
        obtain ⟨es, hes⟩ := Option.isSome_iff_exists.1 hsound.mapping
        rw [mapping, hes]
        refine ⟨es, rfl, fun v hv => ⟨fun hbig => ?_, ?_⟩⟩
        · obtain ⟨k, hk⟩ := Value.mem_of_look hv
          exact hsound.big (Value.oversized_of_entries hes hk (.inr hbig))
        · rintro rfl
          exact hsound.data es v hes hv
  obtain ⟨es, hes, hlook⟩ := hfound
  rw [field, hes, Except.ok_bind]
  cases hv : Value.look f es with
  | none => exact ⟨.null, rfl, nofun, fun _ => .inl rfl⟩
  | some v => exact ⟨v, rfl, hlook v hv⟩

theorem stripped_failsAs (h : v.oversized → Big documents) :
    FailsAs (Fault.From documents) (stripped v) :=
  (failsAs_unwritable Value.plainText_failsAs h).bind fun _ _ => failsAs_ok _

theorem value_failsAs (h : AllSound (Big documents) entries) (name : String) :
    FailsAs (Fault.From documents) (value entries name) := by
  obtain ⟨v, hv, hbig, -⟩ := field_of_sound h name "value"
  rw [value, hv, Except.ok_bind]
  split
  · exact failsAs_ok _
  · exact stripped_failsAs hbig

theorem whole_failsAs (key text : String) : FailsAs (Fault.From documents) (whole key text) := by
  rw [whole]
  split
  · exact failsAs_ok _
  · exact failsAs_refused _

theorem wholeIfSet_failsAs (key text : String) :
    FailsAs (Fault.From documents) (wholeIfSet key text) := by
  rw [wholeIfSet]
  split
  · exact failsAs_ok _
  · exact (whole_failsAs key text).bind fun _ _ => failsAs_ok _

theorem period_failsAs (key text : String) : FailsAs (Fault.From documents) (period key text) := by
  rw [period]
  split
  · exact failsAs_ok _
  · exact (whole_failsAs key text).bind fun _ _ => failsAs_ok _

theorem textOf_failsAs {es : List (Value × Value)}
    (h : ∀ v, Value.look name es = some v → v.oversized → Big documents) :
    FailsAs (Fault.From documents) (textOf es name) := by
  rw [textOf]
  split
  · next v hv => exact stripped_failsAs (h v hv)
  · exact failsAs_ok _

theorem mappingIfAny_of_data (h : v.isNull ∨ v.entries?.isSome) :
    ∃ es, mappingIfAny v = .ok es ∧
      ∀ e ∈ es, e.1.oversized ∨ e.2.oversized → v.oversized := by
  rw [mappingIfAny]
  split
  · exact ⟨[], rfl, nofun⟩
  · next hvoid =>
    cases h with
    | inl hnull => cases v <;> simp_all [Value.isNull, isVoid]
    | inr hsome =>
      obtain ⟨es, hes⟩ := Option.isSome_iff_exists.1 hsome
      rw [mapping, hes]
      exact ⟨es, rfl, fun e he => Value.oversized_of_entries hes he⟩

theorem permissionsOf_failsAs (h : v.isNull ∨ v.entries?.isSome)
    (hbig : v.oversized → Big documents) :
    FailsAs (Fault.From documents) (permissionsOf v) := by
  obtain ⟨es, hes, hparts⟩ := mappingIfAny_of_data h
  rw [mappingIfAny] at hes
  have htext (name : String) : FailsAs (Fault.From documents) (textOf es name) := by
    apply textOf_failsAs
    intro w hw hover
    obtain ⟨k, hk⟩ := Value.mem_of_look hw
    exact hbig (hparts (k, w) hk (.inr hover))
  rw [permissionsOf]
  split
  · exact failsAs_ok _
  · next hvoid =>
    rw [if_neg hvoid] at hes
    simp only [hes, Except.ok_bind]
    apply (htext _).bind
    intro uid _
    apply (htext _).bind
    intro gid _
    apply (htext _).bind
    intro mode _
    split
    · exact failsAs_refused _
    · exact (wholeIfSet_failsAs _ _).bind fun _ _ => (wholeIfSet_failsAs _ _).bind fun _ _ =>
        failsAs_ok _

theorem isQuantity_failsAs : FailsAs (Numeral.Overflow v.oversized) (isQuantity v) := by
  rw [isQuantity]
  split
  · exact failsAs_ok _
  · exact Value.plainText_failsAs.bind fun _ _ => failsAs_ok _

theorem quantities_failsAs {es : List (Value × Value)} (key : String)
    (h : ∀ e ∈ es, e.1.oversized ∨ e.2.oversized → Big documents) :
    FailsAs (Fault.From documents) (quantities key es) := by
  apply failsAs_foldlM
  intro d e he
  have hvalue : e.2.oversized → Big documents := fun hbig => h e he (.inr hbig)
  refine (failsAs_unwritable Value.shown_failsAs hvalue).bind fun _ _ =>
    (failsAs_unwritable Value.plainText_failsAs fun hbig => h e he (.inl hbig)).bind fun _ _ =>
      (failsAs_unwritable isQuantity_failsAs hvalue).bind fun fits _ => ?_
  split
  · exact (failsAs_unwritable Value.plainText_failsAs hvalue).bind fun _ _ => failsAs_ok _
  · exact failsAs_refused _

theorem resources_failsAs (key : String) (h : v.isNull ∨ v.entries?.isSome)
    (hbig : v.oversized → Big documents) (ht : documents text) :
    FailsAs (Fault.From documents) (resources key text v) := by
  rw [resources]
  split
  · obtain ⟨es, hes, hparts⟩ := mappingIfAny_of_data h
    rw [hes, Except.ok_bind]
    exact quantities_failsAs key fun e he hover => hbig (hparts e he hover)
  · apply (document_failsAs ht _).bind
    intro w hw
    split
    · next es hes =>
      exact quantities_failsAs key fun e he hover =>
        ⟨text, w, ht, read_of_document hw, Value.oversized_of_entries hes he hover⟩
    · exact failsAs_refused _

theorem ofEntries_failsAs (h : AllSound (Big documents) entries)
    (hrequests : ∀ t, value entries Key.requests = .ok t → documents t)
    (hlimits : ∀ t, value entries Key.limits = .ok t → documents t) :
    FailsAs (Fault.From documents) (ofEntries entries) := by
  have hvalue (name : String) := value_failsAs h name
  have hdata (name : String) : ∃ v, data entries name = .ok v ∧ (v.oversized → Big documents) ∧
      (v.isNull ∨ v.entries?.isSome) := by
    obtain ⟨v, hv, hbig, hform⟩ := field_of_sound h name "data"
    exact ⟨v, hv, hbig, hform rfl⟩
  rw [ofEntries]
  refine (hvalue _).bind fun backend _ => (hvalue _).bind fun group _ =>
    (hvalue _).bind fun server _ => (hvalue _).bind fun custom _ =>
    (hvalue _).bind fun lease _ => (period_failsAs _ _).bind fun _ _ =>
    (hvalue _).bind fun grace _ => (period_failsAs _ _).bind fun _ _ =>
    (wholeIfSet_failsAs _ _).bind fun _ _ => ?_
  obtain ⟨permissions, hpermissions, hbig, hform⟩ := hdata permissionsKey
  rw [hpermissions, Except.ok_bind]
  apply (permissionsOf_failsAs hform hbig).bind
  intro _ _
  apply (hvalue _).bind
  intro requests hr
  obtain ⟨requested, hrequested, hbig, hform⟩ := hdata Key.requests
  rw [hrequested, Except.ok_bind]
  apply (resources_failsAs _ hform hbig (hrequests _ hr)).bind
  intro _ _
  apply (hvalue _).bind
  intro limits hl
  obtain ⟨limited, hlimited, hbig, hform⟩ := hdata Key.limits
  rw [hlimited, Except.ok_bind]
  exact (resources_failsAs _ hform hbig (hlimits _ hl)).bind fun _ _ => failsAs_ok _

end Config

end VolumeExport.Volume
