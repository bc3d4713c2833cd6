import VolumeExport.Proofs.Fulfilment
import VolumeExport.Proofs.Operation

namespace VolumeExport

open Backing (key volumeKey storage? storageName bound? Vacant Built)

theorem Object.text?_spec {o : Object} {spec : Json} (h : o.path? ["spec"] = some spec)
    (name : String) : o.text? ["spec", name] = (spec.field? name).bind Json.string? := by
  obtain ⟨j, hj, hspec⟩ := Option.bind_eq_some_iff.1 h
  obtain rfl : j = spec := Option.some.inj hspec
  rw [text?, path?, hj, Option.bind_some, Json.path?]
  exact congrArg (Option.bind · Json.string?) (Option.bind_fun_some _)

namespace Action

variable {α : Type} {w : Site}

def repeated (a : Action α) : Nat → Action Unit
  | 0 => pure ()
  | n + 1 => do
    let _ ← a
    repeated a n

theorem Yields.repeated {a : Action α} (h : a.Yields (fun _ w' => w' = w) w) (n : Nat) :
    (a.repeated n).Yields (fun _ w' => w' = w) w := by
  induction n with
  | zero => exact yields_pure rfl
  | succ n ih =>
    apply Yields.bind h
    rintro _ _ rfl
    exact ih

end Action

theorem Backing.storageName_ne (volume : String) : storageName volume ≠ volume := by
  intro h
  have hlength := congrArg String.length h
  simp only [storageName, Cluster.boundName, Name.backing, String.length_append] at hlength
  have hstem : "backend-".length = 8 := rfl
  omega

namespace Controller

open Provisioning (policy? Feasible Deletes)

variable {s : Setup} {w w' : Site} {claim c o : Object} {volume : String}

/-- A claim that has no volume yet and that we can make one for, which will be deleted when it is
released. -/
structure Admissible (s : Setup) (w : Site) (claim : Object) : Prop where
  unbound : bound? claim = none
  feasible : ∃ c, Feasible s w ⟨volumeFor claim, claim, c⟩
  free : w.cluster.store.get? (volumeKey (volumeFor claim)) = none

/-- A volume was made with its backing, and nothing else has changed. -/
structure Established (s : Setup) (volume : String) (w w' : Site) : Prop where
  isSealed : w'.cluster.Sealed
  storage : storage? w' s.settings.serverNamespace volume = some (storageName volume)
  there : w'.cluster.contains (volumeKey (storageName volume))
  stored : ∃ o, w'.cluster.store.get? (volumeKey volume) = some o ∧ Deletes volume o
  others : ∀ k, (∀ r : Resource, r.isNamespaced → k ≠ key s.settings.serverNamespace r volume) →
    k ≠ volumeKey (storageName volume) → k ≠ volumeKey volume →
      w'.cluster.store.get? k = w.cluster.store.get? k

theorem policy?_tied (o claim c : Object) : policy? (tied o claim c) = policy? o := by
  rw [tied]
  cases c.knownMetadata.name <;> cases claim.path? ["spec", "volumeMode"] <;>
    simp (disch := decide) only [Option.map_none, Option.map_some, Provisioning.policy?_setSpec] <;>
    rfl

theorem storageKey_ne : volumeKey (storageName volume) ≠ volumeKey volume :=
  mt Backing.volumeKey_inj.1 (Backing.storageName_ne volume)

theorem free_of_built (h : Built s volume w w')
    (hfree : w.cluster.store.get? (volumeKey volume) = none) :
    w'.cluster.store.get? (volumeKey volume) = none := by
  rw [h.others _ (fun r hr => Backing.volumeKey_ne hr) storageKey_ne.symm, hfree]

theorem established_of_create {m : Metadata} (h : Built s volume w w')
    (hfree : w'.cluster.store.get? (volumeKey volume) = none) (hm : o.metadata = some m)
    (hname : m.name = some volume) (hpolicy : policy? o = some "Delete") :
    Established s volume w (w'.after (.create .volume none o)) := by
  have hkey : Key.of .volume none m.name = volumeKey volume := by rw [hname, volumeKey]
  have habsent : w'.cluster.contains (.of .volume none m.name) = false := by
    rw [hkey]
    exact congrArg Option.isSome hfree
  have hother {k : Key} (hk : k ≠ volumeKey volume) :
      (w'.after (.create .volume none o)).cluster.store.get? k = w'.cluster.store.get? k :=
    Cluster.get?_create_of_ne hm habsent (hkey ▸ hk.symm) (by rintro ⟨⟩)
  have hself := Cluster.get?_create_self hm habsent
  rw [hkey] at hself
  have hsealed := h.isSealed.renews (w'.cluster.renews_respond (.create .volume none o))
  obtain ⟨_, -, hstamped⟩ := hsealed _ _ hself
  refine ⟨hsealed, ?_, ?_, ⟨_, hself, Object.metadata_of_uid hstamped.uid, ?_, hpolicy⟩,
    fun k hparts hstorage hk => (hother hk).trans (h.others k hparts hstorage)⟩
  · rw [storage?, hother (Backing.volumeKey_ne rfl).symm]
    exact h.storage
  · exact (congrArg Option.isSome (hother storageKey_ne)).trans h.there
  · change o.knownMetadata.name = some volume
    rw [Object.knownMetadata, hm]
    exact hname

theorem not_any_of_unbound {spec : Json} (h : bound? claim = none)
    (hspec : claim.path? ["spec"] = some spec) :
    ((spec.field? "volumeName").bind Json.string?).any (· ≠ "") = false := by
  rw [bound?, Object.text?_spec hspec] at h
  cases hname : (spec.field? "volumeName").bind Json.string? with
  | none => rfl
  | some name =>
    rw [hname] at h
    exact Bool.eq_false_iff.2 (Option.filter_eq_none_iff.1 h name rfl)

theorem ends_claimed {goal : Except Fault (List String) → Site → Prop}
    (hunbound : bound? claim = none) (h : Feasible s w ⟨volumeFor claim, claim, c⟩)
    (hclasses : ∀ name, w'.cluster.store.get? (.of .storageClass none name) =
      w.cluster.store.get? (.of .storageClass none name))
    (hthere : ∀ o, w'.cluster.store.get? (volumeKey (volumeFor claim)) = some o → goal (.ok []) w')
    (hmade : w'.cluster.store.get? (volumeKey (volumeFor claim)) = none → Action.Ends goal (do
      let volume ← retried (Provisioning.provide s ⟨volumeFor claim, claim, c⟩)
      discard <| Access.create .volume none (tied volume claim c)
      return [s!"Provisioned volume {volumeFor claim}"]) w') : (claimed s claim).Ends goal w' := by
  obtain ⟨spec, _, hspec, -⟩ := h.storage
  obtain ⟨name, hclass, hne, hget⟩ := h.storageClass
  have hopen := Bool.eq_false_iff.1 (not_any_of_unbound hunbound hspec)
  apply Action.ends_lift (Claim.spec_eq_ok hspec _)
  apply Action.ends_ite (fun hbound => absurd hbound hopen)
  intro _
  apply Action.ends_lift hclass
  rw [Option.filter_some, if_pos (decide_eq_true hne)]
  apply Action.Yields.bind Access.yields_get
  rintro _ _ ⟨rfl, rfl⟩
  rw [hclasses, hget]
  apply Action.ends_ite (fun hother => absurd h.serves.ours hother)
  intro _
  apply Action.Yields.bind Access.yields_get
  rintro found _ ⟨hfound, rfl⟩
  cases found with
  | some o => exact Action.ends_pure (hthere o hfound.symm)
  | none => exact hmade hfound.symm

theorem yields_claimed (hw : w.cluster.Sealed) (h : Admissible s w claim) :
    (claimed s claim).Yields (fun _ w' => Established s (volumeFor claim) w w') w := by
  obtain ⟨c, hfeasible⟩ := h.feasible
  apply ends_claimed h.unbound hfeasible (fun _ => rfl)
  · intro o ho
    cases h.free.symm.trans ho
  intro hfree
  apply Action.Yields.bind (Action.Yields.orElseFault (Provisioning.yields_provide hw hfeasible))
  rintro o v ⟨hbuilt, hname, hpolicy⟩
  have hfree' := free_of_built hbuilt hfree
  have habsent : v.cluster.contains (.of .volume none o.knownMetadata.name) = false := by
    rw [hname]
    exact congrArg Option.isSome hfree'
  have hm := metadata_tied o claim c
  have hcreate := (Access.yields_create hm habsent).leads (Access.leads_create hm habsent)
  apply Action.Yields.bind hcreate.discard
  rintro _ _ rfl
  exact Action.yields_pure (established_of_create hbuilt hfree' hm hname
    ((policy?_tied o claim c).trans hpolicy))

/-- A claim that has its volume is left alone. -/
theorem Established.yields_claimed (h : Established s (volumeFor claim) w w')
    (hadmissible : Admissible s w claim) :
    (claimed s claim).Yields (fun _ w'' => w'' = w') w' := by
  obtain ⟨c, hfeasible⟩ := hadmissible.feasible
  obtain ⟨o, ho, -⟩ := h.stored
  have hclasses (name : Option String) :
      w'.cluster.store.get? (.of .storageClass none name) =
        w.cluster.store.get? (.of .storageClass none name) := by
    have hvolume (n : String) : Key.of .storageClass none name ≠ volumeKey n := nofun
    refine h.others _ (fun r hr hk => ?_) (hvolume _) (hvolume _)
    obtain rfl : .storageClass = r := congrArg Key.resource hk
    cases hr
  apply ends_claimed hadmissible.unbound hfeasible hclasses
  · exact fun _ _ => rfl
  · intro hnone
    cases hnone.symm.trans ho

/-- After the volume was released, it is gone with its backing, and only the storage that its claim
was bound to is left; nothing else has changed. -/
structure Restored (s : Setup) (volume : String) (w w' : Site) : Prop where
  vacant : Vacant s volume w'
  free : w'.cluster.store.get? (volumeKey volume) = none
  there : w'.cluster.contains (volumeKey (storageName volume))
  others : ∀ k, k ≠ volumeKey (storageName volume) →
    w'.cluster.store.get? k = w.cluster.store.get? k
  tracker : w'.tracker.erase volume = w'.tracker

theorem restored_of_withdrawn {w₁ v : Site} (h : Established s volume w w₁)
    (hvacant : Vacant s volume w) (hfree : w.cluster.store.get? (volumeKey volume) = none)
    (hwithdrawn : Provisioning.Withdrawn s volume w₁ v) :
    Restored s volume w ((v.tracking (v.tracker.erase volume)).after
      (.delete .volume none (some volume))) := by
  obtain ⟨honly, hgone⟩ :=
    (v.tracking (v.tracker.erase volume)).only_of_delete .volume none (some volume)
  have hvacant' : Vacant s volume ((v.tracking (v.tracker.erase volume)).after
      (.delete .volume none (some volume))) := fun r hr =>
    (honly.others _ (Backing.volumeKey_ne hr).symm).trans (hwithdrawn.gone r hr)
  have hthere := (hwithdrawn.storage _ (Backing.storageName_ne volume) h.storage).trans h.there
  refine ⟨hvacant', hgone, (congrArg Option.isSome (honly.others _ storageKey_ne)).trans hthere,
    fun k hstorage => ?_, Tracker.erase_erase _ _⟩
  -- The volume and the parts of its backing are as absent as they were; nothing has been done to
  -- the rest in between.
  by_cases hvolume : k = volumeKey volume
  · subst hvolume
    exact hgone.trans hfree.symm
  by_cases hpart : ∃ r : Resource, r.isNamespaced ∧ k = key s.settings.serverNamespace r volume
  · obtain ⟨r, hr, rfl⟩ := hpart
    rw [hvacant' r hr, hvacant r hr]
  have hparts (r : Resource) (hr : r.isNamespaced) : k ≠ key s.settings.serverNamespace r volume :=
    fun hk => hpart ⟨r, hr, hk⟩
  have haside : Backing.Aside w₁ s.settings.serverNamespace volume k := by
    refine ⟨hparts, fun name hname => ?_⟩
    rw [h.storage] at hname
    cases hname
    exact hstorage
  calc _ = v.cluster.store.get? k := honly.others k hvolume
    _ = w₁.cluster.store.get? k := hwithdrawn.others k hvolume haside
    _ = w.cluster.store.get? k := h.others k hparts hstorage hvolume

theorem yields_released_of_dismantle {M : Site → Prop} (ho : Deletes volume o)
    (h : (Provisioning.dismantle s (some volume)).Yields (fun _ v => M v)
      (w.tracking (w.tracker.add volume))) :
    (released s o).Yields (fun _ w' => ∃ v, M v ∧
      w' = (v.tracking (v.tracker.erase volume)).after (.delete .volume none (some volume))) w := by
  obtain ⟨spec, hspec, hdelete⟩ := Option.bind_eq_some_iff.1 ho.policy
  apply Action.ends_lift (Claim.spec_eq_ok hspec _)
  apply Action.ends_ite (fun hkeep => absurd hdelete hkeep)
  intro _
  apply Action.Yields.bind (Action.Yields.orElseFault (Provisioning.yields_withdraw ho h))
  rintro _ _ ⟨v, hv, rfl⟩
  rw [ho.name]
  apply Action.Yields.bind Access.yields_delete_after.discard
  rintro _ _ rfl
  exact Action.yields_pure ⟨v, hv, rfl⟩

/-- Releasing the volume takes down what serving its claim has made. -/
theorem Established.yields_released (h : Established s volume w w')
    (hvacant : Vacant s volume w) (hfree : w.cluster.store.get? (volumeKey volume) = none)
    (ho : Deletes volume o) :
    (released s o).Yields (fun _ w'' => Restored s volume w w'') w' := by
  apply (yields_released_of_dismantle ho (Provisioning.yields_dismantle h.isSealed)).mono
  rintro _ _ ⟨v, hwithdrawn, rfl⟩
  exact restored_of_withdrawn h hvacant hfree (hwithdrawn.of_cluster rfl)

/-- Releasing the volume once more changes nothing. -/
theorem Restored.yields_released (h : Restored s volume w w') (ho : Deletes volume o) :
    (released s o).Yields (fun _ w'' => w'' = w') w' := by
  apply (yields_released_of_dismantle ho
    (Provisioning.yields_dismantle_of_absent h.free (h.vacant.of_cluster rfl))).mono
  rintro _ _ ⟨v, rfl, rfl⟩
  have habsent : w'.cluster.contains (volumeKey volume) = false := congrArg Option.isSome h.free
  have hsame : (w'.tracking (w'.tracker.add volume)).tracking
      ((w'.tracker.add volume).erase volume) = w' :=
    Site.eq_of_cluster rfl ((Tracker.erase_add ..).trans h.tracker)
  exact (congrArg (Site.after · _) hsame).trans (Site.after_delete_of_absent habsent)

/-- The volume of a claim comes and goes, whatever the hooks, and leaves nothing but the storage
that its backing was kept on; and no request does anything the second time. -/
theorem life_leaves_nothing (hw : w.cluster.Sealed) (h : Admissible s w claim) :
    (claimed s claim).Yields (fun _ w₁ =>
      (∀ n, ((claimed s claim).repeated n).Yields (fun _ w' => w' = w₁) w₁) ∧
      ∃ volume, w₁.cluster.store.get? (volumeKey (volumeFor claim)) = some volume ∧
        (released s volume).Yields (fun _ w₂ =>
          (∀ n, ((released s volume).repeated n).Yields (fun _ w' => w' = w₂) w₂) ∧
          (∀ k, k ≠ volumeKey (storageName (volumeFor claim)) →
            w₂.cluster.store.get? k = w.cluster.store.get? k) ∧
          w₂.cluster.contains (volumeKey (storageName (volumeFor claim))) ∧
          w₂.tracker.contains (volumeFor claim) = false) w₁) w := by
  apply (yields_claimed hw h).mono
  intro _ w₁ h₁
  obtain ⟨c, hfeasible⟩ := h.feasible
  obtain ⟨o, hstored, ho⟩ := h₁.stored
  refine ⟨(h₁.yields_claimed h).repeated, o, hstored, ?_⟩
  apply (h₁.yields_released hfeasible.vacant h.free ho).mono
  intro _ w₂ h₂
  refine ⟨(h₂.yields_released ho).repeated, h₂.others, h₂.there, ?_⟩
  rw [← h₂.tracker, Tracker.contains_erase_self]

/-- Volumes are dated and held when they are made, and let go before they are deleted; storage is
marked before it goes. -/
def guarding : Setup where
  settings := .ofNamespaces "nfs-provisioner" "nfs"
  hooks := [
    ⟨"date", .create, .add, [(.volume,
      ⟨.ofList [("exported", "at $\x7bCURRENT_TIMESTAMP\x7d")], ["example.com/keep"]⟩)]⟩,
    ⟨"free", .delete, .remove, [(.volume, ⟨∅, ["example.com/keep"]⟩)]⟩,
    ⟨"mark", .delete, .add, [(.backendVolume,
      ⟨.ofList [("released", "at $\x7bCURRENT_TIMESTAMP\x7d")], []⟩)]⟩]

theorem feasible_guarding : Feasible guarding Sample.site
    ⟨"pvc-u1", Sample.claim, Cluster.stamped 2 Sample.storageClass⟩ where
  storage := ⟨_, some "1Gi", rfl, by decide +kernel⟩
  storageClass := ⟨"export", rfl, by decide, by decide +kernel⟩
  serves := ⟨by decide +kernel, by decide +kernel, .default, ⟨_, "", [], rfl, rfl, rfl, rfl⟩, rfl⟩
  node := fun h => absurd rfl h
  binds := rfl
  assigns := rfl
  vacant := by
    intro r _
    cases r <;> decide +kernel

theorem life_leaves_nothing_guarded :
    (claimed guarding Sample.claim).Yields (fun _ w₁ =>
      (∀ n, ((claimed guarding Sample.claim).repeated n).Yields (fun _ w' => w' = w₁) w₁) ∧
      ∃ volume, w₁.cluster.store.get? (volumeKey "pvc-u1") = some volume ∧
        (released guarding volume).Yields (fun _ w₂ =>
          (∀ n, ((released guarding volume).repeated n).Yields (fun _ w' => w' = w₂) w₂) ∧
          (∀ k, k ≠ volumeKey "backend-nfs-pvc-u1" →
            w₂.cluster.store.get? k = Sample.site.cluster.store.get? k) ∧
          w₂.cluster.contains (volumeKey "backend-nfs-pvc-u1") ∧
          w₂.tracker.contains "pvc-u1" = false) w₁) Sample.site :=
  life_leaves_nothing (Site.sealed_holding _)
    ⟨by decide +kernel, ⟨_, feasible_guarding⟩, by decide +kernel⟩

end Controller

end VolumeExport
