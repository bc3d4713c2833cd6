import VolumeExport.Proofs.Declaration
import VolumeExport.Proofs.Fulfilment
import VolumeExport.Proofs.Operation

namespace VolumeExport

namespace Volume

open Markup

/-- The texts that are read for a declaration: its own, and those of resources. -/
inductive Documents (defaults : Entries) (text : String) : String → Prop
  | whole : Text.strip text ≠ "" → Documents defaults text text
  | resources {entries key t} : Entries.parse text = .ok entries →
      key ∈ [Config.Key.requests, Config.Key.limits] →
      Config.value (entries.withDefaults defaults) key = .ok t → Documents defaults text t

/-- The configuration that a text declares, over entries that hold by default. -/
def Config.ofText (defaults : Entries) (text : String) : Except Fault Config := do
  Config.ofEntries ((← Entries.parse text).withDefaults defaults)

variable {defaults : Entries} {text : String}

/-- Over defaults that are sound a text has a configuration, or a fault of its documents. -/
theorem ofText_failsAs_of_sound (hdefaults : Entries.AllSound False defaults) (text : String) :
    FailsAs (Fault.From (Documents defaults text)) (Config.ofText defaults text) := by
  apply (Entries.parse_failsAs .whole).bind
  intro entries hentries
  have hsound : Entries.AllSound (Big (Documents defaults text))
      (entries.withDefaults defaults) := by
    apply Entries.AllSound.withDefaults
    · exact fun p hp => (Entries.allSound_of_parse hentries p hp).mono fun hbig =>
        hbig.elim fun v hv => ⟨text, v, .whole hv.1, hv.2⟩
    · exact fun p hp => (hdefaults p hp).mono False.elim
  exact Config.ofEntries_failsAs hsound (fun t ht => .resources hentries (by simp) ht)
    fun t ht => .resources hentries (by simp) ht

theorem ofText_failsAs (settings : Settings) (text : String) :
    FailsAs (Fault.From (Documents (Config.defaultEntries settings) text))
      (Config.ofText (Config.defaultEntries settings) text) :=
  ofText_failsAs_of_sound (Entries.allSound_defaultEntries settings False) text

theorem ofText_unfit {e : Markup.Fault} (hne : Text.strip text ≠ "")
    (hread : Value.read text = .error e) (he : e ≠ .malformed) :
    Config.ofText defaults text = .error (.unfit e) := by
  have hdocument : Entries.document .unreadable text = .error (.unfit e) := by
    rw [Entries.document, hread, Except.mapError, if_neg he]
  rw [Config.ofText, Entries.parse, if_neg hne, hdocument]
  rfl

end Volume

namespace Claim

open Markup (Value)

variable {w : Site} {claim c : Object} {m : Metadata} {name text : String}

theorem ends_config (defaults : Volume.Entries) (hclass : className claim = .ok (some name))
    (hne : name ≠ "")
    (hget : w.cluster.store.get? (.of .storageClass none (some name)) = some c)
    (hm : c.metadata = some m) (htext : m.annotation? Name.configAnnotation = some (some text)) :
    (config claim defaults).Ends (fun r w' =>
      r = (Volume.Config.ofText defaults text).mapError .volume ∧ w' = w) w := by
  have hannotation : annotationText m Name.configAnnotation = .ok text := by
    rw [annotationText, htext]
  apply Action.ends_lift hclass
  rw [Option.filter_some, if_pos (decide_eq_true hne)]
  apply Action.Yields.bind Access.yields_get
  intro found w' hfound
  obtain ⟨rfl, rfl⟩ := hfound
  rw [hget]
  apply Action.ends_lift (metadata_eq_ok hm "annotations")
  apply Action.ends_lift hannotation
  rw [Volume.Config.ofText]
  cases Volume.Entries.parse text with
  | error e =>
    apply Action.ends_fail
    exact ⟨rfl, rfl⟩
  | ok entries =>
    apply Action.ends_ofExcept rfl
    rw [Except.ok_bind]
    cases Volume.Config.ofEntries (entries.withDefaults defaults) with
    | error e =>
      apply Action.ends_fail
      exact ⟨rfl, rfl⟩
    | ok declared => exact Action.ends_pure ⟨rfl, rfl⟩

def Reported : Except Fault Volume.Config → Prop
  | .ok _ => True
  | .error (.volume (.refused _)) => True
  | .error _ => False

/-- The configuration of a claim is read or refused, unless in a text that is read for it a scalar
does not fit its tag or a whole number has too many digits. A scalar of the class's own text that
does not fit is not refused. -/
theorem config_reported (settings : Settings) (hclass : className claim = .ok (some name))
    (hne : name ≠ "")
    (hget : w.cluster.store.get? (.of .storageClass none (some name)) = some c)
    (hm : c.metadata = some m) (htext : m.annotation? Name.configAnnotation = some (some text)) :
    (config claim (Volume.Config.defaultEntries settings)).Ends (fun r w' => w' = w ∧
      (¬Reported r → ∃ t, Volume.Documents (Volume.Config.defaultEntries settings) text t ∧
        ((∃ e, e ≠ .malformed ∧ Value.read t = .error e ∧ r = .error (.volume (.unfit e))) ∨
          ∃ v, Value.read t = .ok v ∧ v.oversized ∧
            r = .error (.volume (.unwritable .tooLarge)))) ∧
      ∀ e, Text.strip text ≠ "" → Value.read text = .error e → e ≠ .malformed →
        r = .error (.volume (.unfit e))) w := by
  apply (ends_config (Volume.Config.defaultEntries settings) hclass hne hget hm htext).mono
  intro r w' hr
  obtain ⟨rfl, rfl⟩ := hr
  refine ⟨rfl, ?_, ?_⟩
  · intro hunreported
    cases hresult : Volume.Config.ofText (Volume.Config.defaultEntries settings) text with
    | ok declared =>
      rw [hresult] at hunreported
      exact absurd trivial hunreported
    | error fault =>
      have hcause := Volume.ofText_failsAs settings text fault hresult
      rw [hresult] at hunreported
      cases fault with
      | refused cause => exact absurd trivial hunreported
      | unfit e =>
        obtain ⟨hne, t, ht, hread⟩ := hcause
        exact ⟨t, ht, .inl ⟨e, hne, hread, rfl⟩⟩
      | unwritable e =>
        obtain ⟨rfl, t, v, ht, hread, hover⟩ := hcause
        exact ⟨t, ht, .inr ⟨v, hread, hover, rfl⟩⟩
      | noMapping => exact hcause.elim
  · intro e hblank hread he
    rw [Volume.ofText_unfit hblank hread he]
    rfl

def misdated : String := "- \x7bname: FSGID, value: 2020-13-45\x7d"

def misdatedClass : Object :=
  { Sample.storageClass with
    metadata := some { Metadata.empty with
      name := some "export"
      annotations := some (.ofList [(Name.configAnnotation, some misdated)]) } }

def misdatedSite : Site := .holding [(.claim, Sample.claim), (.storageClass, misdatedClass)]

theorem read_misdated : Value.read misdated = .error (.noDate .noMonth) := by
  have hfault : (match Value.read misdated with
      | .error e => some e
      | .ok _ => none) = some (.noDate .noMonth) := by decide +kernel
  cases hread : Value.read misdated with
  | error e =>
    rw [hread] at hfault
    exact congrArg Except.error (Option.some.inj hfault)
  | ok v =>
    rw [hread] at hfault
    cases hfault

theorem get?_misdated :
    misdatedSite.cluster.store.get? (.of .storageClass none (some "export")) =
      some (Cluster.stamped 2 misdatedClass) := by decide +kernel

theorem config_reported_misdated :
    className Sample.claim = .ok (some "export") ∧
      (config Sample.claim (Volume.Config.defaultEntries Setup.plain.settings)).Ends
        (fun r w' => w' = misdatedSite ∧ r = .error (.volume (.unfit (.noDate .noMonth))))
        misdatedSite := by
  refine ⟨rfl, (config_reported Setup.plain.settings rfl (by decide) get?_misdated rfl rfl).mono ?_⟩
  intro r w' hr
  exact ⟨hr.1, hr.2.2 _ (by decide +kernel) read_misdated nofun⟩

/-- A date without a month is not reported as a bad configuration. -/
theorem config_unreported :
    ¬∀ (w : Site) (claim c : Object) (m : Metadata) (name text : String) (settings : Settings),
      className claim = .ok (some name) → name ≠ "" →
      w.cluster.store.get? (.of .storageClass none (some name)) = some c → c.metadata = some m →
      m.annotation? Name.configAnnotation = some (some text) →
      (config claim (Volume.Config.defaultEntries settings)).Ends (fun r _ => Reported r) w := by
  intro h
  have hreported := h misdatedSite Sample.claim _ _ "export" misdated Setup.plain.settings rfl
    (by decide) get?_misdated rfl rfl
  have hends : (config Sample.claim (Volume.Config.defaultEntries Setup.plain.settings)).Ends
      (fun r w' => r = (Volume.Config.ofText (Volume.Config.defaultEntries Setup.plain.settings)
        misdated).mapError .volume ∧ w' = misdatedSite) misdatedSite :=
    ends_config _ rfl (by decide) get?_misdated rfl rfl
  obtain ⟨r, w', hr, hresult, -⟩ := hreported.meet hends
  rw [hresult, Volume.ofText_unfit (by decide +kernel) read_misdated nofun] at hr
  exact hr

end Claim

end VolumeExport
