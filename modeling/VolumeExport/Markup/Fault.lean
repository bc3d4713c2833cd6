import VolumeExport.Calendar
import VolumeExport.Number.Numeral

namespace VolumeExport.Markup

/-- Why a text holds no document: it breaks a rule of the markup language, or a scalar has a tag
that its text does not fit. -/
inductive Fault
  /-- A rule of the language is broken. -/
  | malformed
  /-- An escape names a number beyond the last character. -/
  | noCharacter (code : Nat)
  | noNumeral (cause : Numeral.Fault)
  /-- A numeral without a digit or sign to look at. -/
  | emptyNumeral
  | noReal (text : String)
  /-- A part of a real number in base sixty stands too far left. -/
  | tooLarge
  | noTruth (text : String)
  | noTime (text : String)
  /-- A time was asked of a collection. -/
  | timeOfCollection
  | noDate (cause : Date.Fault)
  | noClock (cause : TimeOfDay.Fault)
  | noOffset (offset : Offset)
  /-- Nodes lie too deep inside each other, or the text of a mapping is the mapping itself. -/
  | endless
  deriving DecidableEq, Repr

/-- Numbers up to this one are looked up among the characters. -/
def maxCode : Nat := 0x7fffffff

def Fault.message : Fault → String
  | .malformed => "<yaml error>"
  | .noCharacter code =>
    if code ≤ maxCode then "chr() arg not in range(0x110000)"
    else "Python int too large to convert to C int"
  | .noNumeral cause => cause.message
  | .emptyNumeral => "string index out of range"
  | .noReal text => "could not convert string to float: " ++ Text.quoted text
  | .tooLarge => "int too large to convert to float"
  | .noTruth text => Text.quoted text
  | .noTime _ => "'NoneType' object has no attribute 'groupdict'"
  | .timeOfCollection => "expected string or bytes-like object, got 'list'"
  | .noDate cause => cause.message
  | .noClock cause => cause.message
  | .noOffset offset => offset.faultMessage
  | .endless => "maximum recursion depth exceeded"

end VolumeExport.Markup
