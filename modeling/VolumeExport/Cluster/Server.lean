import VolumeExport.Cluster.Store
import VolumeExport.Selector

namespace VolumeExport

/-- How calls of one name fail; without a number of times they fail until told otherwise. -/
structure Failing where
  status : Int
  reason : String
  times : Option Nat
  deriving DecidableEq, Repr

/-- A cluster in memory. Each write gets a version of its own, a replacement has to be made from the
stored version, and calls can be set to fail. -/
structure Cluster where
  store : Store
  /-- The number of writes so far. -/
  writes : Nat
  /-- The number of addresses given out so far. -/
  addresses : Nat
  /-- Whether claims are bound when they are created. -/
  binds : Bool
  /-- Whether services get an address when they are created. -/
  assigns : Bool
  failing : Dict Failing
  deriving DecidableEq, Repr

namespace Cluster

def empty : Cluster := ⟨∅, 0, 0, true, true, ∅⟩

/-- An object as it is stored by a write: with the write's version, and with an identity. -/
def stamped (write : Nat) (o : Object) : Object :=
  o.modifyMetadata fun m =>
    { m with
      uid := some (m.uid.getD s!"uid-{write}")
      resourceVersion := some (toString write) }

/-- Stores an object under its own key. -/
def put (c : Cluster) (r : Resource) (o : Object) : Cluster :=
  let write := c.writes + 1
  { c with
    store := c.store.put (.ofMetadata r o.knownMetadata) (stamped write o)
    writes := write }

/-- Changes a stored object without a new version. -/
def adjust (c : Cluster) (k : Key) (f : Object → Object) : Cluster :=
  match c.store.get? k with
  | some o => { c with store := c.store.put k (f o) }
  | none => c

/-- The name of the volume that is made for a claim. -/
def boundName (claim : String) : String := "backend-" ++ claim

/-- The volume that is made for a claim, with the capacity that the claim asks for. -/
def boundVolume (name : String) (capacity : Option Json) : Object where
  metadata := some { Metadata.empty with name := some name }
  rest := [("spec", .ofFields ((capacity.map ("capacity", ·)).toList))]

def bound (name : String) (o : Object) : Object :=
  (o.setSpec "volumeName" (.string name)).set "status" (.ofFields [("phase", .string "Bound")])

/-- Makes a volume for a new claim that asks for resources. -/
def bind (c : Cluster) (k : Key) (o : Object) : Cluster :=
  if c.binds && (o.path? ["spec", "resources"]).isSome then
    let name := boundName (k.name.getD "None")
    let volume := boundVolume name (o.path? ["spec", "resources", "requests"])
    (c.put .volume volume).adjust k (bound name)
  else c

def addressText (n : Nat) : String := s!"10.96.0.{n}"

/-- Gives an address to a new service. -/
def assign (c : Cluster) (k : Key) (o : Object) : Cluster :=
  if c.assigns && o.hasSpec then
    let n := c.addresses + 1
    { c with addresses := n }.adjust k (·.setSpec "clusterIP" (.string (addressText n)))
  else c

/-- What happens to an object right after its creation. -/
def welcome (c : Cluster) (k : Key) (o : Object) : Cluster :=
  match k.resource with
  | .claim => c.bind k o
  | .service => c.assign k o
  | _ => c

/-- The body of a creation in the namespace of the request. -/
def homed (r : Resource) (namespaceName : Option String) (o : Object) : Object :=
  if r.isNamespaced then o.modifyMetadata fun m => { m with namespaceName := namespaceName } else o

/-- An object without metadata cannot be stored. -/
def create (c : Cluster) (r : Resource) (namespaceName : Option String) (body : Object) :
    Except ApiError Object × Cluster :=
  match body.metadata with
  | none => (.error (.lacking "name"), c)
  | some m =>
    let k := Key.of r namespaceName m.name
    if c.store.contains k then (.error .conflict, c)
    else
      let o := homed r namespaceName body
      let c := (c.put r o).welcome k o
      (.ok ((c.store.get? k).getD o), c)

def replace (c : Cluster) (r : Resource) (k : Key) (body : Object) :
    Except ApiError Object × Cluster :=
  match c.store.get? k with
  | none => (.error .notFound, c)
  | some o =>
    if body.knownMetadata.resourceVersion = o.knownMetadata.resourceVersion then
      let c := c.put r body
      (.ok ((c.store.get? k).getD body), c)
    else (.error .conflict, c)

def delete (c : Cluster) (k : Key) : Except ApiError Unit × Cluster :=
  if c.store.contains k then (.ok (), { c with store := c.store.erase k })
  else (.error .notFound, c)

def read (c : Cluster) (k : Key) : Except ApiError Object :=
  match c.store.get? k with
  | some o => .ok o
  | none => .error .notFound

def list (c : Cluster) (r : Resource) (namespaceName selector : Option String) : Page :=
  ⟨(c.store.objects r namespaceName).filter fun o =>
    Selector.selects (selector.getD "") (o.knownMetadata.labels.getD ∅), false⟩

/-- The answer to a call that is not set to fail. -/
def respond (c : Cluster) : (call : Call) → Except ApiError call.Result × Cluster
  | .read r ns name => (c.read (.of r ns name), c)
  | .create r ns body => c.create r ns body
  | .delete r ns name => c.delete (.of r ns name)
  | .replace r ns name body => c.replace r (.of r ns name) body
  | .list r ns selector => (.ok (c.list r ns selector), c)

/-- How often calls of a name are still set to fail, after one has. -/
def spend (c : Cluster) (name : String) (f : Failing) : Cluster :=
  match f.times with
  | none => c
  | some n =>
    if n ≤ 1 then { c with failing := c.failing.erase name }
    else { c with failing := c.failing.insert name { f with times := some (n - 1) } }

/-- The answer to a call. -/
def answer (c : Cluster) (call : Call) : Except ApiError call.Result × Cluster :=
  match c.failing.get? call.name with
  | some f => (.error (.refused f.status f.reason none), c.spend call.name f)
  | none => c.respond call

end Cluster

end VolumeExport
