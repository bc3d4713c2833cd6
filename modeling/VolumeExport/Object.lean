import VolumeExport.Object.Form

namespace VolumeExport

/-- The names of an object, its labels and its marks. What has no value is absent; a label or an
annotation may be there without a value. -/
structure Metadata where
  name : Option String
  namespaceName : Option String
  uid : Option String
  resourceVersion : Option String
  labels : Option (Dict (Option String))
  annotations : Option (Dict (Option String))
  finalizers : Option (List (Option String))
  /-- All other fields. -/
  rest : List (String × Json)
  deriving DecidableEq, Repr

namespace Metadata

def empty : Metadata := ⟨none, none, none, none, none, none, none, []⟩

def names : List String :=
  ["name", "namespace", "uid", "resourceVersion", "labels", "annotations", "finalizers"]

def ofJson (j : Json) : Metadata :=
  let text (name : String) := (j.field? name).bind Json.string?
  { name := text "name"
    namespaceName := text "namespace"
    uid := text "uid"
    resourceVersion := text "resourceVersion"
    labels := (j.field? "labels").bind Json.partialDict?
    annotations := (j.field? "annotations").bind Json.partialDict?
    finalizers := (j.field? "finalizers").bind Json.texts?
    rest := match j with
      | .object fields => fields.filter fun p => p.1 ∉ names
      | _ => [] }

def toJson (m : Metadata) : Json :=
  let field (name : String) (value : Option Json) := (value.map (name, ·)).toList
  .ofFields (m.rest ++ field "name" (m.name.map .string) ++
    field "namespace" (m.namespaceName.map .string) ++ field "uid" (m.uid.map .string) ++
    field "resourceVersion" (m.resourceVersion.map .string) ++
    field "labels" (m.labels.map Json.ofPartialDict) ++
    field "annotations" (m.annotations.map Json.ofPartialDict) ++
    field "finalizers" (m.finalizers.map fun fs => .array (fs.map Json.ofText)))

/-- The value of an annotation, which may be there without one. -/
def annotation? (m : Metadata) (key : String) : Option (Option String) :=
  m.annotations.bind (·.get? key)

end Metadata

/-- What is done to the metadata of an object leaves the rest of it alone, so the metadata has a
type of its own and the rest is kept as it came. -/
structure Object where
  metadata : Option Metadata
  /-- All fields but the metadata, in the order of their names. -/
  rest : List (String × Json)
  deriving DecidableEq, Repr

namespace Object

/-- The object of data in the form of objects. -/
def ofJson (j : Json) : Object :=
  match j with
  | .object fields =>
    ⟨(Dict.look "metadata" fields).map Metadata.ofJson, Json.withoutIn "metadata" fields⟩
  | _ => ⟨none, []⟩

def toJson (o : Object) : Json :=
  match o.metadata with
  | some m => .object (Json.setIn "metadata" m.toJson o.rest)
  | none => .object o.rest

/-- The object's metadata; absent metadata counts as empty. -/
def knownMetadata (o : Object) : Metadata := o.metadata.getD .empty

def modifyMetadata (o : Object) (f : Metadata → Metadata) : Object :=
  { o with metadata := some (f o.knownMetadata) }

/-- A field outside the metadata, by the names from the root on. -/
def path? (o : Object) : List String → Option Json
  | [] => some o.toJson
  | name :: names => (Dict.look name o.rest).bind (Json.path? names)

def text? (o : Object) (path : List String) : Option String := (o.path? path).bind Json.string?

def set (o : Object) (name : String) (value : Json) : Object :=
  { o with rest := Json.setIn name value o.rest }

/-- Sets a field of the specification. -/
def setSpec (o : Object) (name : String) (value : Json) : Object :=
  match o.path? ["spec"] with
  | some (.object fields) => o.set "spec" (.object (Json.setIn name value fields))
  | _ => o

theorem metadata_setSpec (o : Object) (name : String) (value : Json) :
    (o.setSpec name value).metadata = o.metadata := by
  rw [setSpec]
  split <;> rfl

def hasSpec (o : Object) : Bool := (o.path? ["spec"]).isSome

/-- The object that data stands for in a form, on some day. -/
def read (today : Date) (form : Form) (j : Json) : Except Form.Fault Object :=
  (Form.decode ⟨today, false⟩ form j).map ofJson

/-- The object itself, if all of its times can be written. -/
def written (form : Form) (o : Object) : Except Form.Fault Object :=
  match Form.decode ⟨⟨1, 1, 1⟩, true⟩ form o.toJson with
  | .error .noOffset => .error .noOffset
  | _ => .ok o

/-- The object with a patch merged into it, in a form. -/
def merge (today : Date) (form : Form) (o : Object) (patch : Json) : Except Form.Fault Object := do
  (← read today form (o.toJson.merge patch)).written form

end Object

end VolumeExport
