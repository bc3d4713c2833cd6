import VolumeExport.Affinity
import VolumeExport.Calendar
import VolumeExport.Dict
import VolumeExport.Number.Numeral

namespace VolumeExport

namespace Name

/-- Stands in front of labels, annotations and finalizers. -/
def domain : String := "nfs-provisioner.io"

/-- The provisioner that classes and claims have to name. -/
def provisioner : String := domain ++ "/nfsrwx"

/-- The annotation of a storage class that declares how its volumes are set up. -/
def configAnnotation : String := domain ++ "/config"

def betaClassAnnotation : String := "volume.beta.kubernetes.io/storage-class"

def provisionedByAnnotation : String := "pv.kubernetes.io/provisioned-by"

/-- The annotations through which a claim names the provisioner that should serve it. -/
def claimAnnotations : List String :=
  ["volume.kubernetes.io/storage-provisioner", "volume.beta.kubernetes.io/storage-provisioner"]

def casTypeLabel : String := domain ++ "/cas-type"

def casTypeKernel : String := "nfs-kernel"

def volumeLabel : String := "persistent-volume"

def ownerNameLabel : String := domain ++ "/nfs-pvc-name"

def ownerNamespaceLabel : String := domain ++ "/nfs-pvc-namespace"

def ownerUidLabel : String := domain ++ "/nfs-pvc-uid"

def serverLabel : String := domain ++ "/nfs-server"

def finalizer : String := domain ++ "/kopf"

/-- Stands in front of a volume's name in the names of its backing. -/
def backingStem : String := "nfs-"

/-- The name shared by the claim, the server and the service behind a volume. -/
def backing (volume : String) : String := backingStem ++ volume

/-- The volume that a backing with this name would belong to. -/
def volumeOf? (backingName : String) : Option String :=
  if backingStem.toList.isPrefixOf backingName.toList then
    some (String.ofList (backingName.toList.drop backingStem.toList.length))
  else none

/-- The volume of the claim with this identity. -/
def ofClaim (uid : String) : String := "pvc-" ++ uid

end Name

/-- Whether a text means yes. -/
def isTruthy (value : String) : Bool :=
  String.ofList ((Text.trim value.toList).map Char.toLower) ∈ ["1", "y", "yes", "true"]

/-- A path without repeated slashes and dots that stand alone. Two slashes in front, but not
three, stay two. -/
def normalPath (path : String) : String :=
  let slashes := (path.toList.takeWhile (· = '/')).length
  let root := if slashes = 0 then "" else if slashes = 2 then "//" else "/"
  let parts := (path.splitOn "/").filter fun p => p ≠ "" && p ≠ "."
  if root = "" && parts.isEmpty then "." else root ++ "/".intercalate parts

namespace Variable

def ownNamespace : String := "NFS_PROVISIONER_NAMESPACE"

def serverNamespace : String := "NFS_SERVER_NAMESPACE"

def serverType : String := "NFS_SERVER_TYPE"

def backendClass : String := "NFS_BACKEND_STORAGE_CLASS"

def useClusterIP : String := "NFS_SERVER_USE_CLUSTERIP"

def serverImage : String := "NFS_SERVER_IMAGE"

def nodeAffinity : String := "NFS_SERVER_NODE_AFFINITY"

def hookPath : String := "NFS_HOOK_CONFIG_PATH"

def sweepInterval : String := "NFS_GC_INTERVAL"

def bindTimeout : String := "NFS_BACKEND_PVC_TIMEOUT"

/-- The variables that settings are read from. -/
def all : List String :=
  [ownNamespace, serverNamespace, serverType, backendClass, useClusterIP, serverImage,
    nodeAffinity, hookPath, sweepInterval, bindTimeout]

end Variable

structure Settings where
  claimNamespace : String
  serverNamespace : String
  defaultServerType : String
  defaultBackendClass : String
  useClusterIP : Bool
  serverImage : String
  affinity : List Affinity.Rule
  hookPath : String
  sweepInterval : Duration
  bindTimeout : Duration
  deriving DecidableEq, Repr

namespace Settings

def supportedServerType : String := "kernel"

def defaultServerImage : String := "openebs/nfs-server-alpine:0.11.0"

def defaultHookPath : String := "/etc/nfs-provisioner-hook/config"

def defaultSweepInterval : Duration := .ofSeconds 300

def defaultBindTimeout : Duration := .ofSeconds 60

/-- Settings with the default for all but the two namespaces. -/
def ofNamespaces (claimNamespace serverNamespace : String) : Settings where
  claimNamespace
  serverNamespace
  defaultServerType := supportedServerType
  defaultBackendClass := ""
  useClusterIP := false
  serverImage := defaultServerImage
  affinity := []
  hookPath := defaultHookPath
  sweepInterval := defaultSweepInterval
  bindTimeout := defaultBindTimeout

inductive Fault
  | noNamespace
  | tooLong (variableName : String) (seconds : Int)
  deriving DecidableEq, Repr

def Fault.message : Fault → String
  | .noNamespace => s!"Environment variable {Text.quoted Variable.ownNamespace} must be set"
  | .tooLong variableName seconds => s!"{variableName} of {seconds} seconds cannot be represented"

/-- A variable without the blanks around it; a blank one counts as absent. -/
def setting? (environment : Dict String) (name : String) : Option String :=
  ((environment.get? name).map Text.strip).filter (· ≠ "")

/-- A span of time and what to say if the variable is not a positive whole number. -/
def seconds (environment : Dict String) (name : String) (default : Duration) :
    Except Fault (Duration × List String) :=
  match setting? environment name with
  | none => .ok (default, [])
  | some value =>
    let n := (Numeral.read 10 value).toOption.getD 0
    if n ≤ 0 then
      .ok (default, [s!"Invalid value {Text.quoted value} for {name}, using default of" ++
        s!" {default.seconds} seconds"])
    else if (Duration.ofSeconds n).isRepresentable then .ok (.ofSeconds n, [])
    else .error (.tooLong name n)

/-- The settings of an environment, and notices of the values that were passed over. -/
def ofEnvironment (environment : Dict String) : Except Fault (Settings × List String) := do
  let value name := setting? environment name
  let some own := value Variable.ownNamespace | .error .noNamespace
  let (interval, notices) ← seconds environment Variable.sweepInterval defaultSweepInterval
  let (timeout, more) ← seconds environment Variable.bindTimeout defaultBindTimeout
  let settings : Settings := {
    claimNamespace := own
    serverNamespace := (value Variable.serverNamespace).getD own
    defaultServerType := (value Variable.serverType).getD supportedServerType
    defaultBackendClass := (value Variable.backendClass).getD ""
    useClusterIP := (value Variable.useClusterIP).any isTruthy
    serverImage := (value Variable.serverImage).getD defaultServerImage
    affinity := Affinity.parse ((value Variable.nodeAffinity).getD "")
    hookPath := normalPath ((value Variable.hookPath).getD defaultHookPath)
    sweepInterval := interval
    bindTimeout := timeout }
  return (settings, notices ++ more)

end Settings

end VolumeExport
