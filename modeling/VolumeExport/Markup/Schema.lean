import VolumeExport.Markup.Value

namespace VolumeExport.Markup

/-- The form of a value. A record has no other fields than those of its schema. -/
inductive Schema
  | text
  | whole
  | number
  | truth
  | word (options : List String)
  /-- Any mapping. -/
  | mapping
  /-- A mapping from texts to values of one form. -/
  | dictionary (values : Schema)
  | list (items : Schema)
  | any (options : List Schema)
  /-- Fields with their names; a field that is not required may be absent or null. -/
  | record (fields : List (String × Bool × Schema))
  deriving Repr

namespace Schema

/-- Where a value stands: the keys from the root on. -/
abbrev Path := List String

def pathText (p : Path) : String := ".".intercalate p

abbrev Report := Except Numeral.Fault (List String)

/-- A value is not of the kind with this name. -/
def wrongKind (path : Path) (v : Value) (kind : String) : Report := do
  return [pathText path ++ ": '" ++ (← v.plainText) ++ "' is not a " ++ kind ++ "."]

def wrongWord (path : Path) (v : Value) (options : List String) : Report := do
  return [pathText path ++ ": '" ++ (← v.plainText) ++ "' not in (" ++
    ", ".intercalate (options.map Text.quoted) ++ ")"]

def wrongKey (path : Path) (key : Value) : Report := do
  return [pathText path ++ ": Key error - '" ++ (← key.plainText) ++ "' is not a str."]

def noRecord (path : Path) (v : Value) : Report := do
  return [pathText path ++ " : '" ++ (← v.plainText) ++ "' is not a map"]

def missing (path : Path) (field : String) : String :=
  pathText (path ++ [field]) ++ ": Required field missing"

def unexpectedMark : String := ": Unexpected element"

def isWhole : Value → Bool
  | .int _ => true
  | _ => false

def isNumber : Value → Bool
  | .int _ => true
  | .real _ => true
  | .nan _ => true
  | _ => false

def isTruth : Value → Bool
  | .bool _ => true
  | _ => false

def isText (v : Value) : Bool := v.text?.isSome

/-- The keys that no field of a record has. -/
def unexpected (path : Path) (names : List String) (entries : List (Value × Value)) : Report := do
  let strange := entries.filter fun e => !e.1.text?.any names.contains
  strange.mapM fun e => do return pathText (path ++ [← e.1.plainText]) ++ unexpectedMark

/-- A report on every item. -/
def concat (reports : List Report) : Report := do return (← reports.mapM id).flatten

mutual

/-- What is wrong with a value; nothing if it has the form. -/
def faults (path : Path) : Schema → Value → Report
  | .text, v => if isText v then .ok [] else wrongKind path v "str"
  | .whole, v => if isWhole v then .ok [] else wrongKind path v "int"
  | .number, v => if isNumber v then .ok [] else wrongKind path v "num"
  | .truth, v => if isTruth v then .ok [] else wrongKind path v "bool"
  | .word options, v =>
    if v.text?.any options.contains then .ok [] else wrongWord path v options
  | .mapping, v => if v.entries?.isSome then .ok [] else wrongKind path v "map"
  | .dictionary values, v =>
    match v.entries? with
    | none => wrongKind path v "map"
    | some entries => do
      let keys ← concat ((entries.filter fun e => !isText e.1).map fun e => wrongKey path e.1)
      if keys ≠ [] then return keys
      else
        concat (entries.map fun e => do
          faults (path ++ [← e.1.plainText]) values e.2)
  | .list items, v =>
    match v.ordered? with
    | none => wrongKind path v "list"
    | some vs => concat (vs.mapIdx fun i x => faults (path ++ [toString i]) items x)
  | .any options, v => do
    let reports ← allFaults path options v
    return if reports.any (·.isEmpty) then [] else reports.flatten
  | .record fields, v =>
    match v.entries? with
    | none => noRecord path v
    | some entries => do
      let strange ← unexpected path (fields.map (·.1)) entries
      return strange ++ (← fieldFaults path fields entries)

def allFaults (path : Path) : List Schema → Value → Except Numeral.Fault (List (List String))
  | [], _ => .ok []
  | s :: ss, v => do return (← faults path s v) :: (← allFaults path ss v)

def fieldFaults (path : Path) : List (String × Bool × Schema) → List (Value × Value) → Report
  | [], _ => .ok []
  | (name, required, s) :: fields, entries => do
    let here ← match Value.look name entries with
      | none => pure (if required then [missing path name] else [])
      | some v => if !required && v.isNull then pure [] else faults (path ++ [name]) s v
    return here ++ (← fieldFaults path fields entries)

end

/-- Insertion into lines that are sorted by their code points. -/
def insertLine (line : String) : List String → List String
  | [] => [line]
  | l :: ls =>
    if Text.codes line.toList < Text.codes l.toList then line :: l :: ls
    else l :: insertLine line ls

/-- Lines on unexpected elements that follow each other are sorted. -/
def sortRuns : List String → List String → List String
  | run, [] => run
  | run, l :: ls =>
    if l.endsWith unexpectedMark then sortRuns (insertLine l run) ls
    else run ++ l :: sortRuns [] ls

/-- A heading and the lines below it. -/
def report (heading : String) (lines : List String) : String :=
  "\n".intercalate (sortRuns [] ((heading ++ String.join (lines.map ("\n  " ++ ·))).splitOn "\n"))

end Schema

end VolumeExport.Markup
