import VolumeExport.Cluster.Http
import VolumeExport.Controller
import VolumeExport.Collector

namespace VolumeExport.Operator

/-- What is done about an object. The progress of a handler is kept under its name. -/
inductive Handler
  | provide
  | dismantle
  deriving DecidableEq, Repr

def Handler.name : Handler → String
  | .provide => "provision_volume"
  | .dismantle => "delete_volume"

def Handler.run (s : Setup) : Handler → Object → Action (List String)
  | .provide => Controller.claimed s
  | .dismantle => Controller.released s

/-- When an object is looked at. -/
inductive Occasion
  | created
  /-- The object was there before the process started. -/
  | resumed
  /-- A field of the object has got a new value. -/
  | changed
  deriving DecidableEq, Repr

/-- Objects that a handler is run on. -/
structure Watch where
  handler : Handler
  resource : Resource
  occasion : Occasion
  /-- Claims of other provisioners are passed over. -/
  onlyOwnClaims : Bool
  /-- A field, by the names from the root on, and the value that it must have. -/
  field : Option (List String × String)
  annotations : Option (Dict String)
  deriving DecidableEq, Repr

namespace Watch

def claims (occasion : Occasion) : Watch where
  handler := .provide
  resource := .claim
  occasion
  onlyOwnClaims := true
  field := none
  annotations := none

/-- The volumes that we made and that are claimed no more. -/
def volumes (occasion : Occasion) : Watch where
  handler := .dismantle
  resource := .volume
  occasion
  onlyOwnClaims := false
  field := some (["status", "phase"], "Released")
  annotations := some (.ofList [(Name.provisionedByAnnotation, Name.provisioner)])

def hasField (w : Watch) (o : Object) : Bool := w.field.all fun p => o.text? p.1 = some p.2

def hasAnnotations (w : Watch) (m : Metadata) : Bool :=
  (w.annotations.getD ∅).toList.all fun p => m.annotation? p.1 = some (some p.2)

/-- Whether the handler is run on an object of the watched kind. -/
def selects (w : Watch) (o : Object) : Bool :=
  (!w.onlyOwnClaims || Claim.isForUs (o.knownMetadata.annotations.getD ∅)) &&
    w.hasField o && w.hasAnnotations o.knownMetadata

end Watch

/-- What is watched, in the order in which handlers are tried. -/
def watches : List Watch :=
  [.claims .created, .claims .resumed, .volumes .changed, .volumes .resumed]

/-- What is done once. -/
inductive Activity
  | login
  | startup
  | cleanup
  deriving DecidableEq, Repr

def Activity.all : List Activity := [.login, .startup, .cleanup]

def Activity.name : Activity → String
  | .login => "on_login"
  | .startup => "on_startup"
  | .cleanup => "on_cleanup"

/-- How the work is kept track of in the objects that are watched. -/
structure Bookkeeping where
  /-- Keeps an object from being removed before it was handled. -/
  finalizer : String
  /-- Stands in front of the annotations that hold the progress of handlers. -/
  progressDomain : String
  /-- Stands in front of the annotation that holds the last handled state. -/
  stateDomain : String
  /-- Whether events are made about what is done. -/
  postsEvents : Bool
  /-- Whether no other process is asked to pause. -/
  isAlone : Bool
  /-- Whether the objects of all namespaces are watched. -/
  isClusterWide : Bool
  deriving DecidableEq, Repr

def bookkeeping : Bookkeeping where
  finalizer := Name.finalizer
  progressDomain := Name.domain
  stateDomain := Name.domain
  postsEvents := false
  isAlone := true
  isClusterWide := true

def greeting : String := "Serving provisioner " ++ Name.provisioner

/-- How a process is set up; a bad hook document keeps it from starting. -/
def start (settings : Settings) (hookFile : Option (List UInt8)) : Except Hooks.Fault Setup := do
  return ⟨settings, ← Hooks.load hookFile⟩

end VolumeExport.Operator
