import VolumeExport.Calendar.Timestamp.Lexeme

namespace VolumeExport.Timestamp.Lexeme

def lower (t : Lexeme) : String := String.ofList (t.map Char.toLower)

/-- The first row in which a word stands, counted from zero. -/
def row? (rows : List (List String)) (t : Lexeme) : Option Nat :=
  rows.findIdx? fun words => words.contains t.lower

/-- The day of the week, Monday being zero. -/
def weekday? : Lexeme → Option Nat := row? [
  ["mon", "monday"], ["tue", "tuesday"], ["wed", "wednesday"], ["thu", "thursday"],
  ["fri", "friday"], ["sat", "saturday"], ["sun", "sunday"]]

/-- The month, January being one. -/
def month? (t : Lexeme) : Option Nat :=
  (row? [
    ["jan", "january"], ["feb", "february"], ["mar", "march"], ["apr", "april"], ["may"],
    ["jun", "june"], ["jul", "july"], ["aug", "august"], ["sep", "sept", "september"],
    ["oct", "october"], ["nov", "november"], ["dec", "december"]] t).map (· + 1)

inductive Measure
  | hour
  | minute
  | second
  deriving DecidableEq, Repr

def measure? (t : Lexeme) : Option Measure :=
  match row? [["h", "hour", "hours"], ["m", "minute", "minutes"], ["s", "second", "seconds"]] t with
  | some 0 => some .hour
  | some 1 => some .minute
  | some 2 => some .second
  | _ => none

/-- Whether a word marks the second half of the day; other words mark none. -/
def isAfternoon? (t : Lexeme) : Option Bool :=
  (row? [["am", "a"], ["pm", "p"]] t).map (· = 1)

/-- Names of universal time. -/
def isUniversal (t : Lexeme) : Bool := ["utc", "gmt", "z"].contains t.lower

/-- A name that a zone can have: a few capital letters, or `z`. -/
def isZoneName (t : Lexeme) : Bool := t.length ≤ 5 && (t.all Char.isUpper || t = ['z'])

/-- What joins others and means nothing on its own. -/
def isFiller (t : Lexeme) : Bool :=
  [" ", ".", ",", ";", "-", "/", "'", "at", "on", "and", "ad", "m", "t", "of", "st", "nd", "rd",
    "th"].contains t.lower

/-- What stands between a month and its year. -/
def isPossessive (t : Lexeme) : Bool := t.lower = "of"

/-- Words for what is no number or has no end, which stand where numbers do but have no value. -/
def isNoNumber (t : Lexeme) : Bool := ["nan", "inf", "infinity"].contains t.lower

def isSign (t : Lexeme) : Bool := t = ['+'] || t = ['-']

end VolumeExport.Timestamp.Lexeme
