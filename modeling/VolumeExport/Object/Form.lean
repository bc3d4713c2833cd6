import VolumeExport.Calendar.Timestamp
import VolumeExport.Markup.Value

namespace VolumeExport

/-- Data is brought into a form before it is used: what a form does not know is left out, scalars
become scalars of the kind that is asked, and what has no value is absent. Data is refused if it
cannot be brought into the form or lacks what the form requires. -/
inductive Form
  | any
  | text
  | whole
  | truth
  /-- A point in time, or a date. -/
  | time
  | list (items : Form)
  /-- Values of one form under names of any kind. -/
  | dict (values : Form)
  /-- Fields with their names, in the order of the names, and whether they are required. -/
  | record (fields : List (String × Bool × Form))
  /-- As a record, but fields that are not known are kept. -/
  | loose (fields : List (String × Bool × Form))
  deriving Repr

namespace Form

/-- How times are read: the day that gives what a text leaves out, and whether the time has to have
a text of its own, which takes an offset of less than a day. -/
structure TimeRule where
  today : Date
  isWritten : Bool

inductive Fault
  | missing (field : String)
  | noNumeral (cause : Numeral.Fault)
  /-- A whole number was asked of one without an end. -/
  | endless
  /-- A whole number was asked of what is no number. -/
  | noNumber
  | noTime (text : String) (cause : Timestamp.Fault)
  /-- A time with an offset of a day or more. -/
  | noOffset
  /-- A time was asked of something other than a text. -/
  | timeOfOther
  /-- Items were asked of something that has none. -/
  | noItems
  /-- Names were asked of something that has none. -/
  | noNames
  /-- A field was asked of a list. -/
  | noField
  deriving DecidableEq, Repr

/-- The words of a name that is written with capitals, where `before` is the character in front.
Capitals in a row are one word but for the last one, if a small letter follows it. -/
def words (before : Option Char) : List Char → List Char
  | [] => []
  | c :: cs =>
    let startsWord :=
      c.isUpper && match before with
        | none => false
        | some b => !b.isUpper || cs.head?.any Char.isLower
    (if startsWord then ['_', c.toLower] else [c.toLower]) ++ words (some c) cs

/-- The name of a field in messages. -/
def spelled (field : String) : String := String.ofList (words none field.toList)

def Fault.message : Fault → String
  | .missing field => s!"Invalid value for \x60{spelled field}\x60, must not be \x60None\x60"
  | .noNumeral cause => cause.message
  | .endless => "cannot convert float infinity to integer"
  | .noNumber => "cannot convert float NaN to integer"
  | .noTime t .unreadable => s!"(0)\nReason: Failed to parse \x60{t}\x60 as datetime object\n"
  | .noTime _ .tooLarge => "date value out of range"
  | .noTime _ .imprecise => "division is impossible"
  | .noOffset =>
    "offset must be a timedelta strictly between -timedelta(hours=24) and timedelta(hours=24)."
  | .timeOfOther => "Parser must be a string or character stream"
  | .noItems => "object is not iterable"
  | .noNames => "object has no attribute 'items'"
  | .noField => "list indices must be integers or slices, not str"

/-- The text of a value. -/
def textOf (j : Json) : Except Fault String :=
  (Markup.Value.ofJson j).plainText.mapError .noNumeral

/-- The whole number of a value. Collections have none and stay as they are. -/
def wholeOf (j : Json) : Except Fault Json :=
  match j with
  | .bool b => .ok (.int (if b then 1 else 0))
  | .real (.infinite _) => .error .endless
  | .real x =>
    match x.split? with
    | some (n, _) => .ok (.int n)
    | none => .error .noNumber
  | .string s => (Numeral.read 10 s).mapError .noNumeral |>.map .int
  | j => .ok j

/-- Whether a value counts as true. -/
def isTrue : Json → Bool
  | .null => false
  | .bool b => b
  | .int n => n ≠ 0
  | .real x => !x.isZero
  | .string s => s ≠ ""
  | .array xs => !xs.isEmpty
  | .object fields => !fields.isEmpty

def timeOf (rule : TimeRule) (j : Json) : Except Fault Json :=
  match j with
  | .string s =>
    match DateTime.ofText rule.today s with
    | .ok t =>
      if rule.isWritten && t.offset.any (!·.isValid) then .error .noOffset
      else .ok (.string t.iso)
    | .error cause => .error (.noTime s cause)
  | _ => .error .timeOfOther

/-- The items of a value; those of a text are its characters, those of an object its names. -/
def itemsOf (j : Json) : Except Fault (List Json) :=
  match j with
  | .array xs => .ok xs
  | .string s => .ok ((Text.codes s.toList).map fun n => .string (String.ofList (Text.hold n)))
  | .object fields => .ok (fields.map fun p => .string p.1)
  | _ => .error .noItems

/-- The named values of a value that has some. -/
def namedOf (j : Json) : Except Fault (List (String × Json)) :=
  match j with
  | .object fields => .ok fields
  | _ => .error .noNames

/-- A field of data that is to be a record; data of other kinds has none. -/
def fieldOf (name : String) (j : Json) : Except Fault Json :=
  match j with
  | .object fields => .ok ((Dict.look name fields).getD .null)
  | .array xs => if xs.contains (.string name) then .error .noField else .ok .null
  | _ => .ok .null

/-- The fields, unless a required one is missing. -/
def complete (fields : List (String × Bool × Form)) (found : List (String × Json)) :
    Except Fault (List (String × Json)) :=
  match fields.find? fun f => f.2.1 && (Dict.look f.1 found).isNone with
  | some f => .error (.missing f.1)
  | none => .ok found

/-- The fields that a form does not know. -/
def others (fields : List (String × Bool × Form)) (j : Json) : List (String × Json) :=
  match j with
  | .object found =>
    found.filter fun p => p.2 ≠ .null && !(fields.any fun f => f.1 = p.1)
  | _ => []

mutual

/-- Data in a form. What has no value stays so in every form. -/
def decode (rule : TimeRule) (form : Form) (j : Json) : Except Fault Json :=
  if j = .null then .ok .null
  else
    match form with
    | .any => .ok j
    | .text => (textOf j).map .string
    | .whole => wholeOf j
    | .truth => .ok (.bool (isTrue j))
    | .time => timeOf rule j
    | .list items => do return .array (← (← itemsOf j).mapM fun x => decode rule items x)
    | .dict values => do
      return .object (← (← namedOf j).mapM fun p => do return (p.1, ← decode rule values p.2))
    | .record fields => do return .object (← complete fields (← decodeFields rule fields j))
    | .loose fields => do
      return .ofFields (others fields j ++ (← complete fields (← decodeFields rule fields j)))

/-- The fields of data that have a value. -/
def decodeFields (rule : TimeRule) (fields : List (String × Bool × Form)) (j : Json) :
    Except Fault (List (String × Json)) :=
  match fields with
  | [] => .ok []
  | (name, _, form) :: fields => do
    let value ← decode rule form (← fieldOf name j)
    let rest ← decodeFields rule fields j
    return if value = .null then rest else (name, value) :: rest

end

/-! ### Writing forms -/

/-- A field with its name, whether it is required, and its form. -/
abbrev Field := String × Bool × Form

/-- A field that may be absent. -/
def may (name : String) (form : Form) : Field := (name, false, form)

/-- A field that is required. -/
def need (name : String) (form : Form) : Field := (name, true, form)

/-- Texts that may be absent. -/
def texts (names : List String) : List Field := names.map (may · .text)

def wholes (names : List String) : List Field := names.map (may · .whole)

def truths (names : List String) : List Field := names.map (may · .truth)

def times (names : List String) : List Field := names.map (may · .time)

/-- Lists of texts that may be absent. -/
def textLists (names : List String) : List Field := names.map (may · (.list .text))

/-- Dictionaries of texts that may be absent. -/
def textDicts (names : List String) : List Field := names.map (may · (.dict .text))

/-- Texts that are required. -/
def needTexts (names : List String) : List Field := names.map (need · .text)

/-- A record with the fields of some groups. -/
def ofGroups (groups : List (List Field)) : Form :=
  .record (groups.flatten.mergeSort fun f g => f.1 ≤ g.1)

end Form

end VolumeExport
