import VolumeExport.Object
import VolumeExport.Object.Form.Network
import VolumeExport.Object.Form.Workload

namespace VolumeExport

/-- The kinds of objects that are read and written. -/
inductive Resource
  | claim
  | volume
  | server
  | service
  | storageClass
  | node
  deriving DecidableEq, Repr

namespace Resource

def all : List Resource := [.claim, .volume, .server, .service, .storageClass, .node]

/-- The name of the collection of all objects of a kind. -/
def collection : Resource → String
  | .claim => "persistent_volume_claims"
  | .volume => "persistent_volumes"
  | .server => "deployments"
  | .service => "services"
  | .storageClass => "storage_classes"
  | .node => "nodes"

def ofCollection? (name : String) : Option Resource := all.find? (·.collection = name)

def kind : Resource → String
  | .claim => "PersistentVolumeClaim"
  | .volume => "PersistentVolume"
  | .server => "Deployment"
  | .service => "Service"
  | .storageClass => "StorageClass"
  | .node => "Node"

/-- The form of the objects of a kind. -/
def form : Resource → Form
  | .claim => Form.claim
  | .volume => Form.volume
  | .server => Form.server
  | .service => Form.service
  | .storageClass => Form.storageClass
  | .node => Form.node

/-- Whether objects of the kind live in a namespace. -/
def isNamespaced : Resource → Bool
  | .claim => true
  | .server => true
  | .service => true
  | _ => false

end Resource

/-- Where an object is found. An object may lack a name. -/
structure Key where
  resource : Resource
  namespaceName : Option String
  name : Option String
  deriving DecidableEq, Repr

namespace Key

/-- The key under which a call finds an object; objects of some kinds have no namespace. -/
def of (r : Resource) (namespaceName name : Option String) : Key :=
  ⟨r, if r.isNamespaced then namespaceName else none, name⟩

def ofMetadata (r : Resource) (m : Metadata) : Key := .of r m.namespaceName m.name

/-- What is missing reads as nothing. -/
def text (k : Key) : String :=
  let inner := if k.resource.isNamespaced then k.namespaceName.getD "None" ++ "/" else ""
  k.resource.collection ++ "/" ++ inner ++ k.name.getD "None"

end Key

/-- A call that has failed. -/
inductive ApiError
  | refused (status : Int) (reason : String) (body : Option String)
  /-- The answer does not have the form that is asked. -/
  | unreadable (cause : Form.Fault)
  /-- A field is asked of an answer that is not there. -/
  | lacking (field : String)
  /-- A name has code points that are no characters, so the call cannot be sent. -/
  | unsendable
  deriving DecidableEq, Repr

namespace ApiError

/-- The status of the answer; one that is no refusal counts as a success. -/
def status : ApiError → Int
  | .refused status _ _ => status
  | _ => 200

def isNotFound (e : ApiError) : Bool := e.status = 404

def isConflict (e : ApiError) : Bool := e.status = 409

def notFound : ApiError := .refused 404 "Not Found" none

def conflict : ApiError := .refused 409 "Conflict" none

def message : ApiError → String
  | .refused status reason body =>
    let shown := match body with
      | some text => if text = "" then "" else s!"HTTP response body: {text}\n"
      | none => ""
    s!"({status})\nReason: {reason}\n" ++ shown
  | .unreadable cause => cause.message
  | .lacking field => s!"'NoneType' object has no attribute '{field}'"
  | .unsendable => "surrogates not allowed"

end ApiError

/-- A list of objects. -/
structure Page where
  items : List Object
  /-- Whether there are more objects than those of the page. -/
  continues : Bool
  deriving DecidableEq, Repr

inductive Call
  | read (r : Resource) (namespaceName : Option String) (name : Option String)
  | create (r : Resource) (namespaceName : Option String) (body : Object)
  | delete (r : Resource) (namespaceName : Option String) (name : Option String)
  | replace (r : Resource) (namespaceName : Option String) (name : Option String)
    (body : Object)
  | list (r : Resource) (namespaceName : Option String) (selector : Option String)
  deriving DecidableEq, Repr

namespace Call

/-- What a call that does not fail gives back. -/
def Result : Call → Type
  | .read .. => Object
  | .create .. => Object
  | .delete .. => Unit
  | .replace .. => Object
  | .list .. => Page

def resource : Call → Resource
  | .read r _ _ => r
  | .create r _ _ => r
  | .delete r _ _ => r
  | .replace r _ _ _ => r
  | .list r _ _ => r

def verb : Call → String
  | .read .. => "read"
  | .create .. => "create"
  | .delete .. => "delete"
  | .replace .. => "replace"
  | .list .. => "list"

/-- The name of a call, without what it is about. -/
def name (c : Call) : String := c.resource.collection ++ "." ++ c.verb

def namespaceName : Call → Option String
  | .read _ ns _ => ns
  | .create _ ns _ => ns
  | .delete _ ns _ => ns
  | .replace _ ns _ _ => ns
  | .list _ ns _ => ns

/-- The object or the selector that a call is about. -/
def subject : Call → Option String
  | .read _ _ name => name
  | .create _ _ body => body.knownMetadata.name
  | .delete _ _ name => name
  | .replace _ _ name _ => name
  | .list _ _ selector => selector

end Call

end VolumeExport
