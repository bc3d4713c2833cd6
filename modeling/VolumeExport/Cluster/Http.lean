import VolumeExport.Cluster.Call
import VolumeExport.Text.Bytes

namespace VolumeExport.Http

inductive Method
  | get
  | post
  | put
  | delete
  deriving DecidableEq, Repr

def Method.name : Method → String
  | .get => "GET"
  | .post => "POST"
  | .put => "PUT"
  | .delete => "DELETE"

/-- A request, without the host that it is sent to. -/
structure Request where
  method : Method
  path : String
  query : List (String × String)
  body : Option Json
  deriving DecidableEq, Repr

structure Response where
  status : Int
  reason : String
  body : Option Json
  deriving DecidableEq, Repr

/-- The group and version of a kind, as a path. -/
def group : Resource → String
  | .server => "/apis/apps/v1"
  | .storageClass => "/apis/storage.k8s.io/v1"
  | _ => "/api/v1"

/-- The name of a kind's collection in paths. -/
def plural : Resource → String
  | .claim => "persistentvolumeclaims"
  | .volume => "persistentvolumes"
  | .server => "deployments"
  | .service => "services"
  | .storageClass => "storageclasses"
  | .node => "nodes"

/-- A name as a part of a path. -/
def segment (name : String) : Except ApiError String :=
  match Text.percent? name with
  | some s => .ok s
  | none => .error .unsendable

/-- The path to the objects of a kind. -/
def collectionPath (r : Resource) (namespaceName : Option String) : Except ApiError String := do
  match namespaceName with
  | some ns => return group r ++ "/namespaces/" ++ (← segment ns) ++ "/" ++ plural r
  | none => return group r ++ "/" ++ plural r

def objectPath (r : Resource) (namespaceName name : Option String) : Except ApiError String := do
  return (← collectionPath r namespaceName) ++ "/" ++ (← segment (name.getD ""))

namespace Request

/-- The data that an object is sent as. -/
def content (r : Resource) (body : Object) : Except ApiError (Option Json) :=
  match body.written r.form with
  | .ok o => .ok (some o.toJson)
  | .error cause => .error (.unreadable cause)

/-- The request of a call, unless it cannot be sent. -/
def ofCall : Call → Except ApiError Request
  | .read r ns name => do return ⟨.get, ← objectPath r ns name, [], none⟩
  | .create r ns body => do return ⟨.post, ← collectionPath r ns, [], ← content r body⟩
  | .delete r ns name => do return ⟨.delete, ← objectPath r ns name, [], none⟩
  | .replace r ns name body => do return ⟨.put, ← objectPath r ns name, [], ← content r body⟩
  | .list r ns selector => do
    return ⟨.get, ← collectionPath r ns, (selector.map ("labelSelector", ·)).toList, none⟩

end Request

namespace Response

def isSuccess (r : Response) : Bool := 200 ≤ r.status && r.status ≤ 299

/-- A response that is no success, with its body as text. -/
def error (r : Response) : ApiError := .refused r.status r.reason (r.body.map Json.text)

/-- What a response brings on some day, in a form. A response without a body brings an empty
text. -/
def decoded (r : Response) (today : Date) (form : Form) : Except ApiError Json :=
  (form.decode ⟨today, false⟩ (r.body.getD (.string ""))).mapError .unreadable

/-- The object of a response with one of the statuses that bring objects. -/
def object (r : Response) (today : Date) (statuses : List Int) (form : Form)
    (otherwise : ApiError) : Except ApiError Object :=
  if r.status ∈ statuses then (r.decoded today form).map Object.ofJson else .error otherwise

/-- The objects of a list; a token in its metadata says that there are more. -/
def page (r : Response) (today : Date) (form : Form) : Except ApiError Page := do
  if r.status ≠ 200 then throw (.lacking "metadata")
  let list ← r.decoded today (.listOf form)
  let some metadata := list.field? "metadata" | throw (.lacking "_continue")
  return {
    items := (((list.field? "items").bind Json.items?).getD []).map Object.ofJson
    continues := ((metadata.field? "continue").bind Json.string?).any (· ≠ "") }

/-- What the deletion of an object of a kind brings. -/
def deletionForm : Resource → Form
  | .server => Form.status
  | .node => Form.status
  | r => r.form

/-- The result of a call whose response is a success. A success that does not bring the object
that was read or replaced says that there is none; one that does not bring the object that was to
be created says that it has not been created. -/
def result (r : Response) (today : Date) : (c : Call) → Except ApiError c.Result
  | .read k _ _ => r.object today [200] k.form .notFound
  | .create k _ _ => r.object today [200, 201, 202] k.form .conflict
  | .delete k _ _ =>
    if r.status ∈ [200, 202] then (r.decoded today (deletionForm k)).map fun _ => () else .ok ()
  | .replace k _ _ _ => r.object today [200, 201] k.form .notFound
  | .list k _ _ => r.page today k.form

def read (r : Response) (today : Date) (c : Call) : Except ApiError c.Result :=
  if r.isSuccess then r.result today c else .error r.error

end Response

end VolumeExport.Http
