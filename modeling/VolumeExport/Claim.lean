import VolumeExport.Cluster.Access
import VolumeExport.Volume.Config

namespace VolumeExport.Claim

/-- What a claim lacks reads as nothing in messages. -/
def shown (text : Option String) : String := text.getD "None"

/-- The metadata of an object, of which a field is asked. -/
def metadata (o : Object) (field : String) : Except Fault Metadata :=
  match o.metadata with
  | some m => .ok m
  | none => .error (.absent field)

def spec (o : Object) (field : String) : Except Fault Json :=
  match o.path? ["spec"] with
  | some j => .ok j
  | none => .error (.absent field)

/-- The name of a claim's class. The older annotation, even an empty one, counts before the
specification. -/
def className (o : Object) : Except Fault (Option String) := do
  let m ← metadata o "annotations"
  match m.annotation? Name.betaClassAnnotation with
  | some name => return name
  | none => return ((← spec o "storage_class_name").field? "storageClassName").bind Json.string?

/-- Whether a claim names us as the provisioner that should serve it. -/
def isForUs (annotations : Dict (Option String)) : Bool :=
  Name.claimAnnotations.any fun key => annotations.get? key = some (some Name.provisioner)

/-- The text of an annotation, empty if there is none; one without a value cannot be read. -/
def annotationText (m : Metadata) (key : String) : Except Fault String :=
  match m.annotation? key with
  | some (some text) => .ok text
  | some none => .error (.absent "strip")
  | none => .ok ""

def refuse {α : Type} (cause : Volume.Refusal) : Action α := .fail (.volume (.refused cause))

/-- The configuration that a claim's class declares over entries that hold by default. -/
def config (claim : Object) (defaults : Volume.Entries) : Action Volume.Config := do
  match (← className claim).filter (· ≠ "") with
  | none =>
    let m := claim.knownMetadata
    refuse (.noClass (shown m.namespaceName) (shown m.name))
  | some name =>
    match ← Access.get .storageClass none name with
    | none => refuse (.unknownClass name)
    | some c =>
      let m ← metadata c "annotations"
      let text ← annotationText m Name.configAnnotation
      let declared ← Action.ofExcept .volume (Volume.Entries.parse text)
      Action.ofExcept .volume (Volume.Config.ofEntries (declared.withDefaults defaults))

end VolumeExport.Claim
