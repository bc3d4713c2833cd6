import VolumeExport.Dict
import VolumeExport.Quantity
import VolumeExport.Settings
import VolumeExport.Volume.Entry

namespace VolumeExport.Volume

/-- Ownership and mode of the exported directory; what is not set stays as it is. -/
structure Permissions where
  uid : Option Int
  gid : Option Int
  mode : Option String
  deriving DecidableEq, Repr

/-- How one volume is set up. -/
structure Config where
  serverType : String
  backendClass : Option String
  customConfig : String
  leaseTime : Int
  graceTime : Int
  groupId : Option Int
  permissions : Option Permissions
  requests : Dict String
  limits : Dict String
  deriving DecidableEq, Repr

namespace Config

def defaultPeriod : Int := 90

/-- What holds where nothing is declared. -/
def default : Config where
  serverType := Settings.supportedServerType
  backendClass := none
  customConfig := ""
  leaseTime := defaultPeriod
  graceTime := defaultPeriod
  groupId := none
  permissions := none
  requests := ∅
  limits := ∅

namespace Key

def serverType : String := "NFSServerType"

def backendClass : String := "BackendStorageClass"

def customConfig : String := "CustomServerConfig"

def leaseTime : String := "LeaseTime"

def graceTime : String := "GraceTime"

def groupId : String := "FSGID"

def requests : String := "NFSServerResourceRequests"

def limits : String := "NFSServerResourceLimits"

end Key

/-- A value as a text without blanks around it. -/
def stripped (v : Markup.Value) : Except Fault String := do
  return Text.strip (← v.plainText.mapError Fault.unwritable)

/-- Values that count as absent where a mapping belongs. -/
def isVoid : Markup.Value → Bool
  | .null => true
  | .bool b => !b
  | .int n => n == 0
  | .real x => x.isZero
  | .text s => s.isEmpty
  | .bytes bs => bs.isEmpty
  | .list vs => vs.isEmpty
  | .set vs => vs.isEmpty
  | .map es => es.isEmpty
  | _ => false

/-- The entries of a value of which fields are asked. -/
def mapping (v : Markup.Value) : Except Fault (List (Markup.Value × Markup.Value)) :=
  match v.entries? with
  | some es => .ok es
  | none => .error .noMapping

/-- The entries of a mapping that may be absent. -/
def mappingIfAny (v : Markup.Value) : Except Fault (List (Markup.Value × Markup.Value)) :=
  if isVoid v then .ok [] else mapping v

/-- A field of an entry; null if it is absent. -/
def field (entries : Entries) (name field : String) : Except Fault Markup.Value := do
  let es ← mappingIfAny ((entries.get? name).getD .null)
  return (Markup.Value.look field es).getD .null

/-- The value of an entry as a text; an absent one is empty. -/
def value (entries : Entries) (name : String) : Except Fault String := do
  let v ← field entries name "value"
  if v.isNull then return "" else stripped v

/-- The data of an entry, whatever it is. -/
def data (entries : Entries) (name : String) : Except Fault Markup.Value :=
  field entries name "data"

def whole (key text : String) : Except Fault Int :=
  match Numeral.read 10 text with
  | .ok n => .ok n
  | .error _ => .error (.refused (.notWhole key text))

/-- A number of seconds; zero counts as not declared. -/
def period (key text : String) : Except Fault Int := do
  if text = "" then return defaultPeriod
  let n ← whole key text
  return if n = 0 then defaultPeriod else n

def wholeIfSet (key text : String) : Except Fault (Option Int) := do
  if text = "" then return none else return some (← whole key text)

/-- The text of a key, empty if it is absent. -/
def textOf (es : List (Markup.Value × Markup.Value)) (name : String) : Except Fault String :=
  match Markup.Value.look name es with
  | some v => stripped v
  | none => .ok ""

/-- Permissions are declared if there is any data. -/
def permissionsOf (data : Markup.Value) : Except Fault (Option Permissions) := do
  if isVoid data then return none
  let es ← mapping data
  let uid ← textOf es "UID"
  let gid ← textOf es "GID"
  let mode ← textOf es "mode"
  if mode ≠ "" ∧ (Numeral.read 8 mode).toOption.isNone then throw (.refused (.notOctal mode))
  return some {
    uid := ← wholeIfSet (permissionsKey ++ " UID") uid
    gid := ← wholeIfSet (permissionsKey ++ " GID") gid
    mode := if mode = "" then none else some mode }

/-- Whether a value is a quantity; numbers are. -/
def isQuantity (v : Markup.Value) : Except Numeral.Fault Bool := do
  if v.number?.isSome then return true
  else return (Quantity.ofText? (← v.plainText)).isSome

/-- Quantities by the names of the resources. A later one replaces an earlier one of its name. -/
def quantities (key : String) (es : List (Markup.Value × Markup.Value)) :
    Except Fault (Dict String) := do
  es.foldlM (fun d e => do
    let shown ← e.2.shown.mapError Fault.unwritable
    let name ← e.1.plainText.mapError Fault.unwritable
    if ← (isQuantity e.2).mapError Fault.unwritable then
      return d.insert name (← e.2.plainText.mapError Fault.unwritable)
    else throw (.refused (.badQuantity shown name key))) ∅

/-- Resources are the data of an entry, unless its value is the text of a mapping. -/
def resources (key text : String) (data : Markup.Value) : Except Fault (Dict String) := do
  if text = "" then quantities key (← mappingIfAny data)
  else
    match (← Entries.document (.unreadableResources key) text).entries? with
    | some es => quantities key es
    | none => throw (.refused (.noResources key text))

/-- The configuration that entries declare. -/
def ofEntries (entries : Entries) : Except Fault Config := do
  let backend ← value entries Key.backendClass
  let group ← value entries Key.groupId
  let server ← value entries Key.serverType
  let custom ← value entries Key.customConfig
  let lease ← period Key.leaseTime (← value entries Key.leaseTime)
  let grace ← period Key.graceTime (← value entries Key.graceTime)
  let groupId ← wholeIfSet Key.groupId group
  let permissions ← permissionsOf (← data entries permissionsKey)
  let requests ←
    resources Key.requests (← value entries Key.requests) (← data entries Key.requests)
  let limits ← resources Key.limits (← value entries Key.limits) (← data entries Key.limits)
  return {
    serverType := if server = "" then Settings.supportedServerType else server
    backendClass := if backend = "" then none else some backend
    customConfig := custom
    leaseTime := lease
    graceTime := grace
    groupId := groupId
    permissions := permissions
    requests := requests
    limits := limits }

/-- The entries that hold unless a class declares others. -/
def defaultEntries (settings : Settings) : Entries :=
  let entry (name value : String) : String × Markup.Value :=
    (name, .map [(.text "name", .text name), (.text "value", .text value)])
  entry Key.serverType settings.defaultServerType ::
    if settings.defaultBackendClass = "" then []
    else [entry Key.backendClass settings.defaultBackendClass]

end Config

end VolumeExport.Volume
