import VolumeExport.Controller
import VolumeExport.Proofs.Provisioning

namespace VolumeExport.Controller

open Past (Since Unseen)
open Provisioning (Provides Withdraws policy?)

def volumeFor (claim : Object) : String := Name.ofClaim (Claim.shown claim.knownMetadata.uid)

/-- What the handler of claims asks. -/
inductive Claims (s : Setup) (claim : Object) : Request → Past → Prop
  | look {q p} : q.Looks → Claims s claim q p
  | read {p} : Claims s claim (.call (.read .volume none (some (volumeFor claim)))) p
  | provide {storageClass q p} : Provides s ⟨volumeFor claim, claim, storageClass⟩ q p →
      Claims s claim q p
  | create {body p} : body.knownMetadata.name = some (volumeFor claim) →
      (∀ r : Resource, r.isNamespaced →
        Past.shows (Backing.key s.settings.serverNamespace r (volumeFor claim)) p = some true) →
      p.Untracked → Claims s claim (.call (.create .volume none body)) p

inductive Releases (s : Setup) (volume : Object) : Request → Past → Prop
  | withdraw {q p} : policy? volume = some "Delete" → Withdraws s volume q p →
      Releases s volume q p
  | delete {p} : policy? volume = some "Delete" →
      Releases s volume (.call (.delete .volume none volume.knownMetadata.name)) p

theorem metadata_tied (volume claim storageClass : Object) :
    (tied volume claim storageClass).metadata =
      some { volume.knownMetadata with
        annotations := some ((volume.knownMetadata.annotations.getD ∅).insert
          Name.provisionedByAnnotation (some Name.provisioner)) } := by
  rw [tied]
  cases storageClass.knownMetadata.name <;> cases claim.path? ["spec", "volumeMode"] <;>
    simp only [Option.map_none, Option.map_some, Object.metadata_setSpec] <;> rfl

theorem tied_name (volume claim storageClass : Object) :
    (tied volume claim storageClass).knownMetadata.name = volume.knownMetadata.name := by
  rw [Object.knownMetadata, metadata_tied, Option.getD_some]

variable {s : Setup} {past : Past}

theorem Claims.of_create {claim body : Object} {ns : Option String}
    (h : Claims s claim (.call (.create .volume ns body)) past) :
    body.knownMetadata.name = some (volumeFor claim) ∧
      ∀ r : Resource, r.isNamespaced →
        past.shows (Backing.key s.settings.serverNamespace r (volumeFor claim)) = some true := by
  cases h with
  | look hq => exact hq.elim
  | provide h =>
    cases h with
    | look hq => exact hq.elim
    | backing _ _ h =>
      cases h with
      | quiet hq => exact hq.elim
  | create hname hshows => exact ⟨hname, hshows⟩

theorem Claims.deletes_nothing {claim : Object} {r : Resource} {ns name : Option String} :
    ¬Claims s claim (.call (.delete r ns name)) past := by
  intro h
  cases h with
  | look hq => exact hq.elim
  | provide h =>
    cases h with
    | look hq => exact hq.elim
    | backing _ _ h =>
      cases h with
      | quiet hq => exact hq.elim

theorem keeps_claimed {claim : Object}
    (hunseen : ∀ r : Resource, r.isNamespaced →
      Unseen (Backing.key s.settings.serverNamespace r (volumeFor claim)) past)
    (htracks : past.Untracked) :
    (claimed s claim).Keeps (Claims s claim) (fun _ p => p.Untracked) past := by
  apply Action.keeps_lift _ fun _ _ => htracks
  intro spec _
  apply Action.keeps_ite (fun _ => Action.keeps_pure htracks)
  intro _
  apply Action.keeps_lift _ fun _ _ => htracks
  intro class? _
  cases class?.filter (· ≠ "") with
  | none => exact Action.keeps_pure htracks
  | some name =>
    have hread {r : Resource} {n m : Option String} (hr : !r.isNamespaced) {x p}
        (hp : Since Request.Aside past p) :
        Since Request.Aside past (⟨.call (.read r n m), x⟩ :: p) :=
      hp.cons (Request.within_of_key rfl hr)
    have huntracked {p} (hp : Since Request.Aside past p) : p.Untracked := by
      intro v
      rw [hp.tracks_eq, htracks]
    have hclass {x} := hread (r := .storageClass) (n := none) (m := some name) rfl (x := x)
      (.refl _ _)
    apply Action.Keeps.bind (M := fun _ p => Since Request.Aside past p)
      (Access.keeps_get (.look rfl) (fun _ => hclass) (fun _ _ => hclass) fun _ => hclass)
      _ fun _ _ hp => huntracked hp
    intro found p₁ h₁
    cases found with
    | none => exact Action.keeps_pure (huntracked h₁)
    | some storageClass =>
      apply Action.keeps_ite (fun _ => Action.keeps_pure (huntracked h₁))
      intro _
      have hvolume {x} :=
        hread (r := .volume) (n := none) (m := some (volumeFor claim)) rfl (x := x) h₁
      apply Action.Keeps.bind (M := fun _ p => Since Request.Aside past p)
        (Access.keeps_get .read (fun _ => hvolume) (fun _ _ => hvolume) fun _ => hvolume)
        _ fun _ _ hp => huntracked hp
      intro found p₂ h₂
      cases found with
      | some _ => exact Action.keeps_pure (huntracked h₂)
      | none =>
        refine Action.Keeps.bind (Action.Keeps.orElseFault
          ((Provisioning.keeps_provide (fun r hr => h₂.unseen_aside hr (hunseen r hr))
            (huntracked h₂)).mono (fun _ _ => .provide) fun _ _ h => h)
          (fun _ _ h => h) fun _ _ h => h) ?_ fun _ _ h => h
        intro volume p₃ hafter
        obtain ⟨hname, hshows, h₃⟩ := hafter
        have hcreated {x} : Past.Untracked
            (⟨.call (.create .volume none (tied volume claim storageClass)), x⟩ :: p₃) := h₃
        apply Action.Keeps.bind (M := fun _ p => p.Untracked)
          (Action.Keeps.bind (M := fun _ p => p.Untracked)
            (Access.keeps_create (.create ((tied_name ..).trans hname) hshows h₃)
              (fun _ => hcreated) (fun _ _ => hcreated) fun _ => hcreated)
            (fun _ _ h => Action.keeps_pure h) fun _ _ h => h) _ fun _ _ h => h
        intro _ p hp
        exact Action.keeps_pure hp

theorem keeps_released {volume : Object} (htracks : past.Untracked) :
    (released s volume).Keeps (Releases s volume) (fun _ p => p.Untracked) past := by
  apply Action.keeps_lift _ fun _ _ => htracks
  intro spec hspec
  have hspec : policy? volume = Provisioning.reclaimPolicy spec := by
    rw [policy?, Claim.path?_of_spec hspec, Option.bind_some]
  apply Action.keeps_ite (fun _ => Action.keeps_pure htracks)
  intro hdelete
  have hpolicy : policy? volume = some "Delete" := by
    rw [hspec]
    exact Decidable.of_not_not hdelete
  apply Action.Keeps.bind (M := fun _ p => p.Untracked) (Action.Keeps.orElseFault
    ((Provisioning.keeps_withdraw htracks).mono (fun _ _ => .withdraw hpolicy) fun _ _ h => h)
    (fun _ _ h => h) fun _ _ h => h) _ fun _ _ h => h
  intro _ p hp
  have hdeleted {x} : Past.Untracked
      (⟨.call (.delete .volume none volume.knownMetadata.name), x⟩ :: p) := hp
  apply Action.Keeps.bind (M := fun _ p => p.Untracked)
    (Action.Keeps.bind (M := fun _ p => p.Untracked)
      (Access.keeps_delete (.delete hpolicy) hdeleted (fun _ _ => hdeleted) fun _ => hdeleted)
      (fun _ _ h => Action.keeps_pure h) fun _ _ h => h) _ fun _ _ h => h
  intro _ p hp
  exact Action.keeps_pure hp

end VolumeExport.Controller
