import VolumeExport.Provisioning

namespace VolumeExport.Controller

/-- Seconds until a failed request is made again. -/
def retryDelay : Nat := 10

def claimReference (m : Metadata) : Json :=
  Manifest.fields [
    ("apiVersion", some (.string "v1")),
    ("kind", some (.string "PersistentVolumeClaim")),
    ("name", m.name.map .string),
    ("namespace", m.namespaceName.map .string),
    ("uid", m.uid.map .string)]

/-- Ties a volume to its claim and notes who made it. -/
def tied (volume claim storageClass : Object) : Object :=
  let noted := volume.modifyMetadata fun m =>
    { m with
      annotations := some ((m.annotations.getD ∅).insert Name.provisionedByAnnotation
        (some Name.provisioner)) }
  let set (o : Object) (name : String) (value : Option Json) : Object :=
    match value with
    | some v => o.setSpec name v
    | none => o
  let referred := set noted "claimRef" (some (claimReference claim.knownMetadata))
  let classed := set referred "storageClassName" (storageClass.knownMetadata.name.map .string)
  set classed "volumeMode" (claim.path? ["spec", "volumeMode"])

/-- A fault leads to the same request after the delay. -/
def retried {α : Type} (a : Action α) : Action α := a.orElseFault (.retryLater retryDelay)

/-- Makes the volume of a claim, unless the claim is bound, is not for us or has its volume
already. Returns the notices of what was done. -/
def claimed (s : Setup) (claim : Object) : Action (List String) := do
  let spec ← Claim.spec claim "volume_name"
  if ((spec.field? "volumeName").bind Json.string?).any (· ≠ "") then return []
  else
    match (← Claim.className claim).filter (· ≠ "") with
    | none => return []
    | some name =>
      match ← Access.get .storageClass none name with
      | none => return []
      | some storageClass =>
        if storageClass.text? ["provisioner"] ≠ some Name.provisioner then return []
        else
          let volumeName := Name.ofClaim (Claim.shown claim.knownMetadata.uid)
          match ← Access.get .volume none volumeName with
          | some _ => return []
          | none =>
            let volume ← retried (Provisioning.provide s ⟨volumeName, claim, storageClass⟩)
            discard <| Access.create .volume none (tied volume claim storageClass)
            return [s!"Provisioned volume {volumeName}"]

/-- Takes down a released volume if it is to be deleted. Returns the notices of what was done. -/
def released (s : Setup) (volume : Object) : Action (List String) := do
  let spec ← Claim.spec volume "persistent_volume_reclaim_policy"
  if Provisioning.reclaimPolicy spec ≠ some "Delete" then return []
  else
    retried (Provisioning.withdraw s volume)
    let name := volume.knownMetadata.name
    discard <| Access.delete .volume none name
    return [s!"Deleted volume {Claim.shown name}"]

end VolumeExport.Controller
