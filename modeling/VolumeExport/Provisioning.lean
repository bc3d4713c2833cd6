import VolumeExport.Backing
import VolumeExport.Claim

namespace VolumeExport.Provisioning

open Hook (Target Event)

structure Order where
  volume : String
  claim : Object
  storageClass : Object
  deriving DecidableEq, Repr

/-- Nodes come and go, so there has to be one for the rules each time. -/
def requireNode (rules : List Affinity.Rule) : Action Unit := do
  if rules ≠ [] then
    let selector := Affinity.selector rules
    if (← Access.listAll .node none (some selector)).isEmpty then
      .fail (.noMatchingNode selector)

/-- Access modes that other volumes would serve as well. -/
def otherModes (spec : Json) : List (Option String) :=
  (((spec.field? "accessModes").bind Json.texts?).getD []).filter (· ≠ some "ReadWriteMany")

def capacity? (spec : Json) : Option (Option String) :=
  (spec.path? ["resources", "requests", "storage"]).map Json.string?

/-- Notes that a claim asks for a mode that other volumes would serve as well. -/
def noteMode (claim : Object) (mode : Option String) : Action Unit := do
  let m ← Claim.metadata claim "namespace"
  Action.log <| s!"Claim {Claim.shown m.namespaceName}/{Claim.shown m.name} requests " ++
    s!"non-RWX access mode {Claim.shown mode}"

/-- Makes the backing of a volume and returns the volume, which is not created. -/
def provide (s : Setup) (order : Order) : Action Object :=
  Action.tracking order.volume do
    let claim := order.claim
    let spec ← Claim.spec claim "access_modes"
    let m := claim.knownMetadata
    (otherModes spec).forM (noteMode claim)
    let config ← Claim.config claim (Volume.Config.defaultEntries s.settings)
    if config.serverType ≠ Settings.supportedServerType then
      .fail (.unsupportedServer config.serverType)
    requireNode s.settings.affinity
    match capacity? spec with
    | none => Claim.refuse (.noStorage (Claim.shown m.namespaceName) (Claim.shown m.name))
    | some capacity =>
      let owner : Owner := ⟨m.name, m.namespaceName, m.uid⟩
      let address ← Backing.create s order.volume ⟨owner, capacity, config⟩
      Action.log s!"Creating NFS volume {order.volume} pointing at {address}"
      let policy := (order.storageClass.text? ["reclaimPolicy"]).filter (· ≠ "")
      let volume := Manifest.volume order.volume address capacity (policy.getD "Delete")
        (spec.field? "accessModes") (order.storageClass.path? ["mountOptions"])
      Action.ofExcept id
        (Backing.hooked s.hooks .volume .create .volume (← Action.now) volume)

def reclaimPolicy (spec : Json) : Option String :=
  (spec.field? "persistentVolumeReclaimPolicy").bind Json.string?

/-- Takes down a backing after the hooks of its volume, if there are any, have been stored. -/
def dismantle (s : Setup) (volume : Option String) : Action Unit := do
  if s.hooks.covers .volume .delete then
    discard <| Access.modify .volume none volume (Backing.hooked s.hooks .volume .delete .volume)
  Backing.delete s (Claim.shown volume)

/-- Takes down the backing of a volume unless it is to be kept. The volume stays. -/
def withdraw (s : Setup) (volume : Object) : Action Unit := do
  let m ← Claim.metadata volume "name"
  let name := Claim.shown m.name
  Action.tracking name do
    let spec ← Claim.spec volume "persistent_volume_reclaim_policy"
    if reclaimPolicy spec = some "Retain" then Action.log s!"Retained volume {name}"
    else
      (dismantle s m.name).orElseFault (.deletion name)
      Action.log s!"Deleted backing resources of volume {name}"

end VolumeExport.Provisioning
