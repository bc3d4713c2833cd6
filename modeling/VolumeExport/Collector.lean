import VolumeExport.Backing
import VolumeExport.Claim

namespace VolumeExport.Collector

/-- The claim that a backing claim was made for, as its labels name it. -/
def owner? (claim : Object) : Option Owner := do
  let labels ← claim.knownMetadata.labels
  return {
    name := ← labels.get? Name.ownerNameLabel
    namespaceName := ← labels.get? Name.ownerNamespaceLabel
    uid := ← labels.get? Name.ownerUidLabel }

/-- Whether an answer shows the owner itself and no later claim of its name. -/
def isOwner (owner : Owner) (found : Option Object) : Bool :=
  found.any fun o => o.knownMetadata.uid = owner.uid

/-- The volume of a backing claim if nothing needs it: it is not tracked, its owner is gone and it
does not exist. -/
def staleVolume? (claim : Object) : Action (Option String) := do
  let some name := claim.knownMetadata.name | .fail (.absent "startswith")
  match (Name.volumeOf? name).filter (· ≠ "") with
  | none => return none
  | some volume =>
    let tracked : Bool ← Action.request (.isTracked volume)
    if tracked then return none
    else
      match owner? claim with
      | none =>
        Action.log s!"Backend PVC {name} lacks owner labels, leaving it alone"
        return none
      | some owner =>
        let found ← Access.get .claim owner.namespaceName owner.name
        if isOwner owner found then return none
        else
          match ← Access.get .volume none volume with
          | some _ => return none
          | none => return some volume

/-- The volume of a backing claim, if its backing was taken down. -/
def collect (s : Setup) (claim : Object) : Action (Option String) := do
  match ← staleVolume? claim with
  | none => return none
  | some volume =>
    let tracked : Bool ← Action.request (.isTracked volume)
    if tracked then return none
    else
      Action.log s!"Deleting stale resources for volume {volume}"
      Backing.delete s volume
      return some volume

def selector : String := Name.casTypeLabel ++ "=" ++ Name.casTypeKernel

/-- Collects one claim after the other. A failure on one of them does not touch the others. -/
def collectAll (s : Setup) : List Object → Action (List String)
  | [] => return []
  | claim :: claims => do
    let found ← match ← (collect s claim).outcome with
      | .ok found => pure found
      | .error e => do
        let name := Claim.shown claim.knownMetadata.name
        Action.log
          s!"Failed to collect backend PVC {s.settings.serverNamespace}/{name}: {e.message}"
        pure none
    return found.toList ++ (← collectAll s claims)

/-- The volumes whose backings were taken down. A sweep does not fail. -/
def sweep (s : Setup) : Action (List String) := do
  let ns := s.settings.serverNamespace
  match ← (Access.listAll .claim (some ns) (some selector)).outcome with
  | .ok claims => collectAll s claims
  | .error e =>
    Action.log s!"Failed to list backend PVCs in {ns}: {e.message}"
    return []

def greeting : String := "Running garbage collector for stale NFS resources"

/-- Sweeps, and sweeps again after each interval, until the signal to stop comes. -/
def serve (s : Setup) : Action Unit :=
  .rounds () (.log greeting) fun _ _ => do
    let collected ← sweep s
    Action.log s!"Garbage collection completed, removed {collected.length}"
    let stopped : Bool ← Action.request (.wait s.settings.sweepInterval)
    return if stopped then .inr () else .inl ()

end VolumeExport.Collector
