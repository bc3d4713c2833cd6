import VolumeExport.Backing.Manifest
import VolumeExport.Cluster.Access

namespace VolumeExport

/-- How a process is set up. -/
structure Setup where
  settings : Settings
  hooks : Hooks
  deriving DecidableEq, Repr

namespace Backing

open Hook (Target Event)

/-- A fault of an action is the fault of a step. -/
def during {α : Type} (step : Step) (volume : String) (a : Action α) : Action α :=
  a.orElseFault (.step step volume)

def hooked (hooks : Hooks) (target : Target) (event : Event) (r : Resource)
    (now : Except Instant.Fault Instant) (o : Object) : Except Fault Object :=
  (hooks.apply target event now r.kind o).mapError fun
    | .mismatch cause => .mismatch cause
    | .clock cause => .clock cause

/-- Creates an object as the hooks change it. -/
def make (s : Setup) (target : Target) (r : Resource) (body : Object) : Action Unit := do
  let body ← Action.ofExcept id (hooked s.hooks target .create r (← Action.now) body)
  let name := body.knownMetadata.name.getD ""
  match ← Access.create r (some s.settings.serverNamespace) body with
  | none => Action.log s!"{r.kind} {name} was created concurrently"
  | some _ => Action.log s!"Created {r.kind} {s.settings.serverNamespace}/{name}"

/-- Creates an object unless there is one of its name. -/
def ensure (s : Setup) (target : Target) (r : Resource) (name present : String) (body : Object) :
    Action Unit := do
  match ← Access.get r (some s.settings.serverNamespace) name with
  | some _ => Action.log present
  | none => make s target r body

def isBound (claim : Object) : Bool := claim.text? ["status", "phase"] = some "Bound"

def pollInterval : Duration := .ofSeconds 1

/-- One look at a claim. The time is looked at after the claim, so a claim that is bound in time is
never reported as late. -/
def awaitRound (s : Setup) (name : String) (deadline : Rat)
    (answer : Except ApiError Object) : Action (Unit ⊕ Object) := do
  let ns := s.settings.serverNamespace
  match answer with
  | .error e => if e.isNotFound then .fail (.claimGone ns name) else .fail (.api e)
  | .ok claim =>
    if isBound claim then return .inr claim
    else
      let uptime : Rat ← Action.request .uptime
      if deadline ≤ uptime then .fail (.notBound s.settings.bindTimeout ns name)
      else
        Action.request (.sleep pollInterval)
        return .inl ()

def awaitBound (s : Setup) (name : String) : Action Object := do
  let deadline : Rat ← Action.request (.deadline s.settings.bindTimeout)
  .rounds () (.call (.read .claim (some s.settings.serverNamespace) name))
    fun _ => awaitRound s name deadline

/-- Applies hooks to the volume that a claim is bound to, if it is bound to one. -/
def hookVolume (s : Setup) (event : Event) (claim : Object) : Action Unit := do
  if s.hooks.covers .backendVolume event then
    match (claim.text? ["spec", "volumeName"]).filter (· ≠ "") with
    | some volume =>
      discard <| Access.modify .volume none volume (hooked s.hooks .backendVolume event .volume)
    | none => return

def serviceAddress (ns name : String) : String := s!"{name}.{ns}.svc.cluster.local"

def address (s : Setup) (name : String) : Action String := do
  let ns := s.settings.serverNamespace
  if !s.settings.useClusterIP then return serviceAddress ns name
  else
    match ← Access.get .service (some ns) name with
    | none => .fail (.noAddress ns name)
    | some service =>
      if !service.hasSpec then .fail (.absent "cluster_ip")
      else
        match (service.text? ["spec", "clusterIP"]).filter (· ≠ "") with
        | some ip => return ip
        | none => .fail (.noAddress ns name)

/-- Makes what is missing of the backing of a volume. The service comes last, when the storage is
known to be there. -/
def create (s : Setup) (volume : String) (plan : Plan) : Action String := do
  let ns := s.settings.serverNamespace
  let name := Name.backing volume
  during .createClaim volume <|
    ensure s .backendClaim .claim name s!"Volume {volume} already has backend PVC {name}"
      (Manifest.claim ns volume plan)
  during .createServer volume <|
    ensure s .server .server name s!"NFS server deployment {name} already exists"
      (Manifest.server s.settings volume plan.config)
  let claim ← during .awaitClaim volume (awaitBound s name)
  during .hookVolume volume (hookVolume s .create claim)
  during .createService volume <|
    ensure s .service .service name s!"NFS service {name} already exists"
      (Manifest.service ns volume)
  during .findAddress volume (address s name)

/-- Deletes an object after its hooks, if there are any, have been stored. -/
def remove (s : Setup) (target : Target) (r : Resource) (name : String) : Action Unit := do
  let ns := s.settings.serverNamespace
  let found ←
    if s.hooks.covers target .delete then do
      let m ← Access.modify r (some ns) name (hooked s.hooks target .delete r)
      pure m.object
    else Access.get r (some ns) name
  match found with
  | none => return
  | some _ =>
    if ← Access.delete r (some ns) name then Action.log s!"Deleted {r.kind} {ns}/{name}"

/-- Takes down what is left of the backing of a volume. The claim goes last, so that the storage
stays as long as anything that uses it. -/
def delete (s : Setup) (volume : String) : Action Unit := do
  let name := Name.backing volume
  during .deleteService volume (remove s .service .service name)
  during .deleteServer volume (remove s .server .server name)
  during .hookVolume volume do
    match ← Access.get .claim (some s.settings.serverNamespace) name with
    | some claim => hookVolume s .delete claim
    | none => return
  during .deleteClaim volume (remove s .backendClaim .claim name)

end Backing

end VolumeExport
