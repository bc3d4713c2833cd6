import VolumeExport.Cluster.Call
import VolumeExport.Hook.Document
import VolumeExport.Number.Decimal
import VolumeExport.Volume.Fault

namespace VolumeExport

/-- The steps of making and of taking down the backing of a volume. -/
inductive Step
  | createClaim
  | createServer
  | awaitClaim
  | hookVolume
  | createService
  | findAddress
  | deleteService
  | deleteServer
  | deleteClaim
  deriving DecidableEq, Repr

/-- What a step does. -/
def Step.text : Step → String
  | .createClaim => "create backend PVC"
  | .createServer => "create NFS server deployment"
  | .awaitClaim => "wait for backend PVC to be bound"
  | .hookVolume => "apply hooks to backend PV"
  | .createService => "create NFS service"
  | .findAddress => "get NFS server address"
  | .deleteService => "delete NFS service"
  | .deleteServer => "delete NFS server deployment"
  | .deleteClaim => "delete backend PVC"

/-- Why an operation on volumes fails. A fault that another one led to holds that one. -/
inductive Fault
  /-- A call has failed in a way that has no meaning of its own. -/
  | api (error : ApiError)
  /-- The time is needed, and there is none. -/
  | clock (cause : Instant.Fault)
  /-- A list came in parts. -/
  | partialList
  /-- A field is asked of something that is absent. -/
  | absent (field : String)
  | volume (cause : Volume.Fault)
  | hooks (cause : Hooks.Fault)
  | mismatch (cause : Hooks.Mismatch)
  | unsupportedServer (serverType : String)
  | noMatchingNode (selector : String)
  | claimGone (namespaceName name : String)
  | notBound (timeout : Duration) (namespaceName name : String)
  | noAddress (namespaceName name : String)
  /-- A change to an object refused to be made. -/
  | unmodified (message : String)
  | step (place : Step) (volume : String) (cause : Fault)
  | deletion (volume : String) (cause : Fault)
  /-- The request is to be made again after some seconds. -/
  | retryLater (delay : Nat) (cause : Fault)
  deriving DecidableEq, Repr

/-- Seconds with at most six digits. -/
def Duration.secondsText (d : Duration) : String :=
  (Binary64.ofRatio (d.microseconds < 0) d.microseconds.natAbs 1000000).sixDigits

def Fault.message : Fault → String
  | .api error => error.message
  | .clock cause => cause.message
  | .partialList => ""
  | .absent field => s!"'NoneType' object has no attribute '{field}'"
  | .volume cause => cause.message
  | .hooks cause => cause.message
  | .mismatch cause => cause.message
  | .unsupportedServer serverType =>
    "PV with NFS server of type " ++ Text.quoted serverType ++ " is not supported"
  | .noMatchingNode selector => s!"No matching nodes found for given affinity rules ({selector})"
  | .claimGone ns name => s!"Backend PVC {ns}/{name} no longer exists"
  | .notBound timeout ns name =>
    s!"Timed out after {timeout.secondsText} seconds waiting for backend PVC " ++
      s!"{ns}/{name} to be bound"
  | .noAddress ns name => s!"NFS service {ns}/{name} has no cluster IP"
  | .unmodified message => message
  | .step s name cause => s!"failed to {s.text} for volume {name}: {cause.message}"
  | .deletion name _ => s!"failed to delete volume {name}"
  | .retryLater _ cause => cause.message

end VolumeExport
