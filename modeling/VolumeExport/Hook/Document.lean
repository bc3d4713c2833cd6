import VolumeExport.Hook
import VolumeExport.Markup.Document
import VolumeExport.Markup.Schema

namespace VolumeExport.Hooks

open Hook Markup

/-- The only version of documents that is read. -/
def supportedVersion : String := "1.0.0"

inductive Refusal
  | unreadable
  | noMapping
  /-- The document does not have the form of hook documents. -/
  | badForm (message : String)
  deriving DecidableEq, Repr

def Refusal.message : Refusal → String
  | .unreadable => "Invalid hook document: " ++ Markup.Fault.message .malformed
  | .noMapping => "Hook document must be a mapping"
  | .badForm message => message

inductive Fault
  | refused (cause : Refusal)
  | unsupported (version : String)
  /-- A scalar of the document does not fit its tag. -/
  | unfit (cause : Markup.Fault)
  /-- A number of the document has too many digits to be shown. -/
  | unwritable (cause : Numeral.Fault)
  deriving DecidableEq, Repr

def Fault.message : Fault → String
  | .refused cause => cause.message
  | .unsupported version =>
    "Unsupported hook version " ++ Text.quoted version ++ ", expected " ++
      Text.quoted supportedVersion
  | .unfit cause => cause.message
  | .unwritable cause => cause.message

def changeSchema : Schema :=
  .record [("annotations", false, .dictionary .text), ("finalizers", false, .list .text)]

def hookSchema : Schema :=
  .record ([
    ("name", true, .text),
    ("event", true, .word (Event.all.map Event.name)),
    ("action", true, .word [Action.name .add, Action.name .remove])] ++
    Target.all.map fun t => (t.field, false, changeSchema))

def schema : Schema := .record [("version", true, .text), ("hooks", false, .list hookSchema)]

def texts (v : Value) : List String := (v.ordered?.getD []).filterMap Value.text?

def change (v : Value) : Change where
  annotations := .ofList ((((v.field? "annotations").bind Value.entries?).getD []).filterMap
    fun e => do return (← e.1.text?, ← e.2.text?))
  finalizers := ((v.field? "finalizers").map texts).getD []

/-- The hook of a value that has the form of hooks. -/
def hook? (v : Value) : Option Hook := do
  return {
    name := ← (v.field? "name").bind Value.text?
    event := ← Event.ofName? (← (v.field? "event").bind Value.text?)
    action := ← Action.ofName? (← (v.field? "action").bind Value.text?)
    changes := Target.all.filterMap fun t => do
      let block ← v.field? t.field
      if block.isNull then none else return (t, change block) }

/-- The hooks of a document. The form is checked before the version. -/
def ofValue (v : Value) : Except Fault Hooks := do
  if v.entries?.isNone then throw (.refused .noMapping)
  let lines ← (Schema.faults [] schema v).mapError Fault.unwritable
  if lines ≠ [] then throw (.refused (.badForm (Schema.report "" lines)))
  let version := ((v.field? "version").bind Value.text?).getD ""
  if version ≠ supportedVersion then throw (.unsupported version)
  return (((v.field? "hooks").bind Value.ordered?).getD []).filterMap hook?

def parse (bytes : List UInt8) : Except Fault Hooks := do
  let v ← (Value.readBytes bytes).mapError fun e =>
    if e = .malformed then .refused .unreadable else .unfit e
  ofValue v

/-- The hooks of a file, none if there is no file. -/
def load (file : Option (List UInt8)) : Except Fault Hooks :=
  match file with
  | some bytes => parse bytes
  | none => .ok []

end VolumeExport.Hooks
