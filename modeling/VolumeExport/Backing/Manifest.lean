import VolumeExport.Object
import VolumeExport.Volume.Config

namespace VolumeExport

/-- The claim that a volume is made for, as far as it is known. -/
structure Owner where
  name : Option String
  namespaceName : Option String
  uid : Option String
  deriving DecidableEq, Repr

/-- What the backing of a volume is made from. -/
structure Plan where
  owner : Owner
  capacity : Option String
  config : Volume.Config
  deriving DecidableEq, Repr

namespace Manifest

def exportsPath : String := "/nfsshare"

def exportsVolume : String := "exports-dir"

def serverContainer : String := "nfs-server"

def serverPort : Nat := 2049

def bindPort : Nat := 111

def texts (xs : List String) : Json := .array (xs.map .string)

/-- Fields of which some may have no value. -/
def fields (xs : List (String × Option Json)) : Json :=
  .ofFields (xs.filterMap fun p => p.2.map (p.1, ·))

def named (name : String) (more : List (String × Json)) : Json :=
  .ofFields (("name", .string name) :: more)

def object (version kind : String) (metadata : Metadata) (spec : Json) : Object where
  metadata := some metadata
  rest := [("apiVersion", .string version), ("kind", .string kind), ("spec", spec)]

def metadata (name namespaceName : String) : Metadata :=
  { Metadata.empty with name := some name, namespaceName := some namespaceName }

/-- The labels that tell which volume and which claim a backing claim belongs to. -/
def claimLabels (volume : String) (owner : Owner) : Dict (Option String) :=
  .ofList [
    (Name.casTypeLabel, some Name.casTypeKernel),
    (Name.volumeLabel, some volume),
    (Name.ownerNameLabel, owner.name),
    (Name.ownerNamespaceLabel, owner.namespaceName),
    (Name.ownerUidLabel, owner.uid)]

def claim (ns volume : String) (plan : Plan) : Object :=
  object "v1" "PersistentVolumeClaim"
    { metadata (Name.backing volume) ns with labels := some (claimLabels volume plan.owner) }
    (fields [
      ("accessModes", some (texts ["ReadWriteOnce"])),
      ("resources", some (.ofFields [
        ("requests", .ofFields [("storage", .ofText plan.capacity)])])),
      ("storageClassName", plan.config.backendClass.map .string)])

def serverLabels (name : String) : Dict String := .ofList [(Name.serverLabel, name)]

/-- What the server is told, in the order in which it is told. -/
def environment (c : Volume.Config) : List (String × String) :=
  let set (name : String) (value : Option String) := (value.map (name, ·)).toList
  let permissions := match c.permissions with
    | some p =>
      set "FILEPERMISSIONS_UID" (p.uid.map toString) ++
        set "FILEPERMISSIONS_GID" (p.gid.map toString) ++ set "FILEPERMISSIONS_MODE" p.mode
    | none => []
  [("SHARED_DIRECTORY", exportsPath), ("CUSTOM_EXPORTS_CONFIG", c.customConfig),
    ("NFS_LEASE_TIME", toString c.leaseTime), ("NFS_GRACE_TIME", toString c.graceTime)] ++
    permissions

/-- Resources by their names, unless there are none. -/
def resources (d : Dict String) : Option Json := if d.isEmpty then none else some (.ofDict d)

def container (image : String) (c : Volume.Config) : Json :=
  named serverContainer [
    ("image", .string image),
    ("imagePullPolicy", .string "IfNotPresent"),
    ("env", .array ((environment c).map fun p => named p.1 [("value", .string p.2)])),
    ("ports", .array [
      named "nfs" [("containerPort", .ofNat serverPort)],
      named "rpcbind" [("containerPort", .ofNat bindPort)]]),
    ("securityContext", .ofFields [("privileged", .bool true)]),
    ("volumeMounts", .array [named exportsVolume [("mountPath", .string exportsPath)]]),
    ("resources", fields [
      ("requests", resources c.requests), ("limits", resources c.limits)])]

/-- A rule as a requirement on the labels of a node. -/
def requirement (r : Affinity.Rule) : Json :=
  fields [
    ("key", some (.string r.key)),
    ("operator", some (.string r.operator.name)),
    ("values", if r.values = [] then none else some (texts r.values))]

/-- The nodes that may run a server; all of them if there are no rules. -/
def affinity (rules : List Affinity.Rule) : Option Json :=
  if rules = [] then none
  else
    some (.ofFields [("nodeAffinity", .ofFields [
      ("requiredDuringSchedulingIgnoredDuringExecution", .ofFields [
        ("nodeSelectorTerms", .array [
          .ofFields [("matchExpressions", .array (rules.map requirement))]])])])])

def podSpec (settings : Settings) (name : String) (c : Volume.Config) : Json :=
  fields [
    ("containers", some (.array [container settings.serverImage c])),
    ("volumes", some (.array [
      named exportsVolume [("persistentVolumeClaim", .ofFields [("claimName", .string name)])]])),
    ("securityContext", some (fields [("fsGroup", c.groupId.map fun n => Json.int n)])),
    ("affinity", affinity settings.affinity)]

def server (settings : Settings) (volume : String) (c : Volume.Config) : Object :=
  let name := Name.backing volume
  let labels := serverLabels name
  object "apps/v1" "Deployment"
    { metadata name settings.serverNamespace with labels := some (labels.map some) }
    (.ofFields [
      ("replicas", .ofNat 1),
      ("selector", .ofFields [("matchLabels", .ofDict labels)]),
      ("strategy", .ofFields [("type", .string "Recreate")]),
      ("template", .ofFields [
        ("metadata", .ofFields [("labels", .ofDict labels)]),
        ("spec", podSpec settings name c)])])

def service (ns volume : String) : Object :=
  let name := Name.backing volume
  object "v1" "Service" (metadata name ns)
    (.ofFields [
      ("ports", .array [
        named "nfs" [("port", .ofNat serverPort)],
        named "rpcbind" [("port", .ofNat bindPort)]]),
      ("selector", .ofDict (serverLabels name))])

/-- The volume that describes an export. What the claim and its class leave open stays open. -/
def volume (name address : String) (capacity : Option String) (reclaimPolicy : String)
    (accessModes mountOptions : Option Json) : Object :=
  object "v1" "PersistentVolume"
    { Metadata.empty with
      name := some name
      labels := some (.ofList [(Name.casTypeLabel, some Name.casTypeKernel)]) }
    (fields [
      ("persistentVolumeReclaimPolicy", some (.string reclaimPolicy)),
      ("accessModes", accessModes),
      ("capacity", some (.ofFields [("storage", .ofText capacity)])),
      ("mountOptions", mountOptions),
      ("nfs", some (.ofFields [
        ("server", .string address), ("path", .string "/"), ("readOnly", .bool false)]))])

end Manifest

end VolumeExport
