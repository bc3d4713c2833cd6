import VolumeExport.Clock
import VolumeExport.Cluster.Server
import VolumeExport.Collector
import VolumeExport.Controller
import VolumeExport.Tracker

namespace VolumeExport.Scenario

/-- An object, or the name of one that is stored. -/
inductive Subject
  | given (o : Object)
  | stored (name : String)
  deriving DecidableEq, Repr

/-- New values of fields of the metadata; `some none` removes one. -/
structure Edit where
  labels : Option (Option (Dict (Option String)))
  annotations : Option (Option (Dict (Option String)))
  finalizers : Option (Option (List (Option String)))
  /-- The edit is refused after it was made. -/
  refusal : Option String
  deriving DecidableEq, Repr

namespace Edit

def metadata (e : Edit) (m : Metadata) : Metadata :=
  { m with
    labels := e.labels.getD m.labels
    annotations := e.annotations.getD m.annotations
    finalizers := e.finalizers.getD m.finalizers }

def isEmpty (e : Edit) : Bool :=
  e.labels.isNone && e.annotations.isNone && e.finalizers.isNone

/-- The object with the new fields. Metadata that is absent has no fields to set. -/
def apply (e : Edit) (o : Object) : Except Fault Object :=
  if !e.isEmpty && o.metadata.isNone then .error (.absent "metadata")
  else
    match e.refusal with
    | some message => .error (.unmodified message)
    | none => .ok (if e.isEmpty then o else o.modifyMetadata e.metadata)

end Edit

/-- A direct use of the objects of a kind. -/
inductive Usage
  | get (namespaceName name : Option String)
  | create (namespaceName : Option String) (body : Option Object)
  | delete (namespaceName name : Option String)
  | list (namespaceName selector : Option String)
  | modify (namespaceName name : Option String) (edit : Edit)
  deriving DecidableEq, Repr

namespace Usage

def namespaceName : Usage → Option String
  | .get ns _ => ns
  | .create ns _ => ns
  | .delete ns _ => ns
  | .list ns _ => ns
  | .modify ns _ _ => ns

/-- Whether the use lacks the name or the body of its object. -/
def isIncomplete : Usage → Bool
  | .get _ name => name.isNone
  | .create _ body => body.isNone
  | .delete _ name => name.isNone
  | .modify _ name _ => name.isNone
  | _ => false

end Usage

/-- Why the data of an act cannot be used. -/
inductive Illegible
  /-- Data does not have the form of its kind. -/
  | object (cause : Form.Fault)
  /-- A name that nothing has. -/
  | unknown (name : String)
  | noOperator (name : String)
  | span (cause : Instant.Fault)
  /-- A number of seconds that is no number. -/
  | noSeconds
  /-- A document with code points that are no characters. -/
  | unencodable
  deriving DecidableEq, Repr

inductive Act
  | put (r : Resource) (o : Object)
  | remove (k : Key)
  | patch (k : Key) (merge : Json)
  | fail (call : String) (failing : Failing)
  | unfail (call : String)
  | behave (binds assigns : Option Bool)
  | advance (seconds : Binary64)
  /-- New settings or a new hook document; `some none` leaves no hooks. -/
  | reconfigure (settings : Option Settings) (document : Option (Option (List UInt8)))
  | track (volume : String)
  | untrack (volume : String)
  | isTracked (volume : String)
  | createBacking (volume : String) (plan : Plan)
  | deleteBacking (volume : String)
  | provide (volume : String) (claim storageClass : Subject) (save : Bool)
  | withdraw (volume : Subject)
  | sweep
  /-- Runs the collector; the lists of acts fill the waits, behind the last the signal comes. -/
  | collect (stopped : Bool) (between : List (List Act))
  | resolve (claim : Object) (defaults : Option Volume.Entries)
  | claimed (claim : Object)
  | released (volume : Object)
  | use (r : Resource) (usage : Usage)
  | applyHooks (target : Hook.Target) (event : String) (kind : String) (o : Object)
  /-- An act of some name whose data cannot be used. -/
  | illegible (name : String) (cause : Illegible)

namespace Act

mutual

/-- How deep acts are nested in an act. -/
def depth : Act → Nat
  | .collect _ between => depthOfLists between + 1
  | _ => 0

def depthOfAll : List Act → Nat
  | [] => 0
  | a :: as => max a.depth (depthOfAll as)

def depthOfLists : List (List Act) → Nat
  | [] => 0
  | as :: lists => max (depthOfAll as) (depthOfLists lists)

end

end Act

/-- Acts in front of the answer to the call of a name with a number, counted within one step. -/
structure Trigger where
  call : String
  number : Nat
  acts : List Act

/-- An act and what others do while it runs. The lists of acts in `naps` follow its sleeps. -/
structure Step where
  act : Act
  triggers : List Trigger
  naps : List (List Act)

def Step.depth (s : Step) : Nat :=
  max s.act.depth (max (Act.depthOfLists (s.triggers.map (·.acts))) (Act.depthOfLists s.naps)) + 1

end VolumeExport.Scenario
