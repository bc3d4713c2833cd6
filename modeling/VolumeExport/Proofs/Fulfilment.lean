import VolumeExport.Proofs.Backing.Cycle
import VolumeExport.Proofs.Provisioning

namespace VolumeExport

open Backing (key volumeKey storage? Vacant Built)

namespace Claim

variable {w : Site} {claim c : Object} {defaults : Volume.Entries} {declared : Volume.Config}

theorem spec_eq_ok {o : Object} {spec : Json} (h : o.path? ["spec"] = some spec) (field : String) :
    Claim.spec o field = .ok spec := by
  rw [Claim.spec, h]

theorem metadata_eq_ok {o : Object} {m : Metadata} (h : o.metadata = some m) (field : String) :
    metadata o field = .ok m := by
  rw [metadata, h]

def Declares (c : Object) (defaults : Volume.Entries) (declared : Volume.Config) : Prop :=
  ∃ m text entries, metadata c "annotations" = .ok m ∧
    annotationText m Name.configAnnotation = .ok text ∧
    Volume.Entries.parse text = .ok entries ∧
    Volume.Config.ofEntries (entries.withDefaults defaults) = .ok declared

theorem yields_config {name : String} (hclass : className claim = .ok (some name)) (hne : name ≠ "")
    (hget : w.cluster.store.get? (.of .storageClass none (some name)) = some c)
    (hdeclares : Declares c defaults declared) :
    (config claim defaults).Yields (fun found w' => found = declared ∧ w' = w) w := by
  obtain ⟨m, text, entries, hm, htext, hentries, hdeclared⟩ := hdeclares
  apply Action.ends_lift hclass
  rw [Option.filter_some, if_pos (decide_eq_true hne)]
  apply Action.Yields.bind Access.yields_get
  rintro found _ ⟨rfl, rfl⟩
  rw [hget]
  apply Action.ends_lift hm
  apply Action.ends_lift htext
  apply Action.ends_ofExcept hentries
  rw [hdeclared]
  exact Action.yields_pure ⟨rfl, rfl⟩

theorem metadata_of_className {class? : Option String} (h : className claim = .ok class?) :
    claim.metadata = some claim.knownMetadata := by
  rw [className, metadata] at h
  rw [Object.knownMetadata]
  cases hm : claim.metadata with
  | none =>
    rw [hm] at h
    cases h
  | some m => rfl

end Claim

namespace Provisioning

variable {s : Setup} {w w' : Site} {claim c o o' : Object}

theorem policy?_congr (h : o'.rest = o.rest) : policy? o' = policy? o := by
  rw [policy?, policy?, Object.path?_congr h]

theorem policy?_setSpec {name : String} (h : name ≠ "persistentVolumeReclaimPolicy") (value : Json) :
    policy? (o.setSpec name value) = policy? o := by
  rw [Object.setSpec]
  split
  · next fields hfields =>
    have hset : (o.set "spec" (.object (Json.setIn name value fields))).path? ["spec"] =
        some (.object (Json.setIn name value fields)) := by
      rw [Object.path?, Object.set, Json.setIn, Dict.look_place, if_pos rfl]
      rfl
    rw [policy?, policy?, hset, hfields, Option.bind_some, Option.bind_some, reclaimPolicy,
      reclaimPolicy, Json.field?, Json.field?, Json.setIn, Dict.look_place, if_neg h]
  · rfl

theorem policy?_volume (name address : String) (capacity : Option String) (policy : String)
    (modes options : Option Json) :
    policy? (Manifest.volume name address capacity policy modes options) = some policy := by
  change reclaimPolicy (Manifest.fields _) = _
  rw [reclaimPolicy]
  refine congrArg (Option.bind · Json.string?) (Manifest.field?_fields ?_ List.mem_cons_self)
  change ["persistentVolumeReclaimPolicy", "accessModes", "capacity", "mountOptions", "nfs"].Nodup
  decide

/-- A class of ours whose volumes are deleted when they are released, with a configuration that can
be served. -/
structure Serves (s : Setup) (c : Object) : Prop where
  ours : c.text? ["provisioner"] = some Name.provisioner
  deletes : ((c.text? ["reclaimPolicy"]).filter (· ≠ "")).getD "Delete" = "Delete"
  config : ∃ declared, Claim.Declares c (Volume.Config.defaultEntries s.settings) declared ∧
    declared.serverType = Settings.supportedServerType

theorem yields_requireNode {rules : List Affinity.Rule}
    (h : rules ≠ [] →
      (w.cluster.list .node none (some (Affinity.selector rules))).items ≠ []) :
    (requireNode rules).Yields (fun _ w' => w' = w) w := by
  apply Action.ends_ite
  · intro hrules
    apply Action.Yields.bind Access.yields_listAll
    rintro nodes _ ⟨rfl, rfl⟩
    apply Action.ends_ite
    · intro hnone
      exact absurd (List.isEmpty_iff.1 hnone) (h hrules)
    · exact fun _ => Action.yields_pure rfl
  · exact fun _ => Action.yields_pure rfl

theorem yields_noteMode {m : Metadata} {mode : Option String} (hm : claim.metadata = some m) :
    (noteMode claim mode).Yields (fun _ w' => w' = w) w :=
  Action.ends_lift (Claim.metadata_eq_ok hm _) Action.yields_log

theorem hooked_volume (hooks : Hooks) (t : Instant) (volume address policy : String)
    (capacity : Option String) (modes options : Option Json) :
    ∃ o, Backing.hooked hooks .volume .create .volume (.ok t)
        (Manifest.volume volume address capacity policy modes options) = .ok o ∧
      o.knownMetadata.name = some volume ∧ policy? o = some policy := by
  obtain ⟨o, ho, hremarks⟩ := Backing.hooked_ok hooks .volume .create (r := .volume) rfl t
    (Manifest.volume volume address capacity policy modes options)
  refine ⟨o, ho, hremarks.name_eq, ?_⟩
  rw [policy?_congr hremarks.1, policy?_volume]

/-- A claim that asks for storage, of a class that can be served, at a site where nothing is in the
way of the backing. -/
structure Feasible (s : Setup) (w : Site) (order : Order) : Prop where
  storage : ∃ spec capacity, order.claim.path? ["spec"] = some spec ∧
    capacity? spec = some capacity
  storageClass : ∃ name, Claim.className order.claim = .ok (some name) ∧ name ≠ "" ∧
    w.cluster.store.get? (.of .storageClass none (some name)) = some order.storageClass
  serves : Serves s order.storageClass
  node : s.settings.affinity ≠ [] →
    (w.cluster.list .node none (some (Affinity.selector s.settings.affinity))).items ≠ []
  binds : w.cluster.binds
  assigns : w.cluster.assigns
  vacant : Vacant s order.volume w

theorem Feasible.of_cluster {order : Order} (h : Feasible s w order)
    (hcluster : w'.cluster = w.cluster) : Feasible s w' order := by
  obtain ⟨hstorage, hclass, hserves, hnode, hbinds, hassigns, hvacant⟩ := h
  rw [← hcluster] at hclass hnode hbinds hassigns
  exact ⟨hstorage, hclass, hserves, hnode, hbinds, hassigns, hvacant.of_cluster hcluster⟩

theorem yields_provide {order : Order} (hw : w.cluster.Sealed) (h : Feasible s w order) :
    (provide s order).Yields (fun o w' => Built s order.volume w w' ∧
      o.knownMetadata.name = some order.volume ∧ policy? o = some "Delete") w := by
  refine Action.Yields.mono (Action.yields_tracking (M := fun o w' => Built s order.volume w w' ∧
    o.knownMetadata.name = some order.volume ∧ policy? o = some "Delete") ?_) ?_
  · generalize hsite : w.tracking (w.tracker.add order.volume) = v
    have hv : v.cluster = w.cluster := by rw [← hsite, Site.tracking]
    replace h := h.of_cluster hv
    rw [← hv] at hw
    obtain ⟨spec, capacity, hspec, hcapacity⟩ := h.storage
    obtain ⟨name, hclass, hne, hget⟩ := h.storageClass
    obtain ⟨declared, hdeclares, hsupported⟩ := h.serves.config
    have hm := Claim.metadata_of_className hclass
    apply Action.ends_lift (Claim.spec_eq_ok hspec _)
    apply Action.Yields.bind (Action.yields_forM (otherModes spec) fun _ => yields_noteMode hm)
    rintro _ _ rfl
    apply Action.Yields.bind (Claim.yields_config hclass hne hget hdeclares)
    rintro _ _ ⟨rfl, rfl⟩
    apply Action.ends_ite (fun hother => absurd hsupported hother)
    intro _
    apply Action.Yields.bind (yields_requireNode h.node)
    rintro _ _ rfl
    rw [hcapacity]
    apply Action.Yields.bind (h.vacant.yields_create hw h.binds h.assigns)
    intro address v₁ hbuilt
    apply Action.Yields.bind Action.yields_log
    rintro _ _ rfl
    apply Action.ends_ask
    intro t v₂ ht
    obtain ⟨hw₂, ht⟩ := ht
    obtain rfl : v₂ = _ := hw₂
    cases t with
    | error e => cases ht
    | ok t =>
      obtain ⟨o, ho, hname, hpolicy⟩ := hooked_volume s.hooks t order.volume address
        (((order.storageClass.text? ["reclaimPolicy"]).filter (· ≠ "")).getD "Delete") capacity
        (spec.field? "accessModes") (order.storageClass.path? ["mountOptions"])
      rw [h.serves.deletes] at hpolicy
      rw [ho]
      exact Action.yields_pure ⟨hbuilt.of_cluster hv, hname, hpolicy⟩
  · rintro o _ ⟨v, ⟨hbuilt, hname, hpolicy⟩, rfl⟩
    exact ⟨⟨hbuilt.isSealed, hbuilt.storage, hbuilt.there, hbuilt.others⟩, hname, hpolicy⟩

/-- A backing was taken down, and of everything else at most the volume and the storage that its
claim was bound to have changed. -/
structure Withdrawn (s : Setup) (volume : String) (w w' : Site) : Prop where
  gone : ∀ r : Resource, r.isNamespaced →
    w'.cluster.store.get? (key s.settings.serverNamespace r volume) = none
  storage : ∀ name, name ≠ volume → storage? w s.settings.serverNamespace volume = some name →
    w'.cluster.contains (volumeKey name) = w.cluster.contains (volumeKey name)
  others : ∀ k, k ≠ volumeKey volume → Backing.Aside w s.settings.serverNamespace volume k →
    w'.cluster.store.get? k = w.cluster.store.get? k

theorem Withdrawn.of_cluster {v : Site} {volume : String} (h : Withdrawn s volume v w')
    (hcluster : v.cluster = w.cluster) : Withdrawn s volume w w' := by
  have hstorage : storage? v s.settings.serverNamespace volume =
      storage? w s.settings.serverNamespace volume := by
    rw [storage?, storage?, hcluster]
  refine ⟨h.gone, fun name hne hname => ?_, fun k hk haside => ?_⟩
  · rw [← hcluster]
    exact h.storage name hne (hstorage.trans hname)
  · rw [← hcluster]
    exact h.others k hk ⟨haside.1, fun name hname => haside.2 name (hstorage.symm.trans hname)⟩

theorem withdrawn_of_vacated {v : Site} {volume : String} (h : Site.Only (volumeKey volume) w v)
    (hvacated : Backing.Vacated s volume v w') : Withdrawn s volume w w' := by
  have hstorage : storage? v s.settings.serverNamespace volume =
      storage? w s.settings.serverNamespace volume := by
    rw [storage?, storage?, h.others _ (Backing.volumeKey_ne rfl).symm]
  refine ⟨hvacated.gone, fun name hne hname => ?_, fun k hk haside => ?_⟩
  · have hkept := Object.isSome_of_dressed (hvacated.hooked name (hstorage.trans hname))
    rw [h.others _ (mt Backing.volumeKey_inj.1 hne)] at hkept
    exact hkept
  · have haside' : Backing.Aside v s.settings.serverNamespace volume k :=
      ⟨haside.1, fun name hname => haside.2 name (hstorage.symm.trans hname)⟩
    exact (hvacated.leaving.others k haside').trans (h.others k hk)

theorem yields_dismantle {volume : String} (hw : w.cluster.Sealed) :
    (dismantle s (some volume)).Yields (fun _ w' => Withdrawn s volume w w') w := by
  have hdelete {v : Site} (honly : Site.Only (volumeKey volume) w v) :
      (Backing.delete s volume).Yields (fun _ w' => Withdrawn s volume w w') v :=
    (Backing.yields_vacated (hw.renews honly.renews)).mono fun _ _ => withdrawn_of_vacated honly
  apply Action.ends_ite
  · intro _
    have hmodify : (Access.modify .volume none (some volume)
        (Backing.hooked s.hooks .volume .delete .volume)).Yields
        (fun _ w' => Site.Only (volumeKey volume) w w') w :=
      (Access.yields_modify_hooked hw rfl).mono fun _ _ hdresses => hdresses.only
    apply Action.Yields.bind hmodify.discard
    intro _ v honly
    exact hdelete honly
  · exact fun _ => hdelete (.refl _ _)

theorem yields_dismantle_of_absent {volume : String}
    (h : w.cluster.store.get? (volumeKey volume) = none) (hvacant : Vacant s volume w) :
    (dismantle s (some volume)).Yields (fun _ w' => w' = w) w := by
  apply Action.ends_ite
  · intro _
    have hmodify : (Access.modify .volume none (some volume)
        (Backing.hooked s.hooks .volume .delete .volume)).Yields (fun _ w' => w' = w) w :=
      (Access.yields_modify_of_absent h).mono fun _ _ hm => hm.2
    apply Action.Yields.bind hmodify.discard
    rintro _ _ rfl
    exact hvacant.yields_delete
  · exact fun _ => hvacant.yields_delete

structure Deletes (volume : String) (o : Object) : Prop where
  metadata : o.metadata = some o.knownMetadata
  name : o.knownMetadata.name = some volume
  policy : policy? o = some "Delete"

theorem yields_withdraw {volume : String} {M : Site → Prop} (ho : Deletes volume o)
    (h : (dismantle s (some volume)).Yields (fun _ w' => M w')
      (w.tracking (w.tracker.add volume))) :
    (withdraw s o).Yields
      (fun _ w' => ∃ v, M v ∧ w' = v.tracking (v.tracker.erase volume)) w := by
  obtain ⟨spec, hspec, hdelete⟩ := Option.bind_eq_some_iff.1 ho.policy
  apply Action.ends_lift (Claim.metadata_eq_ok ho.metadata _)
  rw [ho.name]
  apply Action.yields_tracking (M := fun _ => M)
  apply Action.ends_lift (Claim.spec_eq_ok hspec _)
  rw [hdelete]
  apply Action.ends_ite (fun hretain => absurd hretain (by decide))
  intro _
  apply Action.Yields.bind (Action.Yields.orElseFault h)
  intro _ v hv
  apply Action.yields_log.mono
  rintro _ _ rfl
  exact hv

end Provisioning

end VolumeExport
