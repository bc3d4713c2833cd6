import VolumeExport.Markup.Fault
import VolumeExport.Markup.Tag
import VolumeExport.Markup.Value
import VolumeExport.Number.Real
import VolumeExport.Text.Case

namespace VolumeExport.Markup.Scalar

def withoutUnderscores (cs : List Char) : List Char := cs.filter (· ≠ '_')

/-- Whether there is a minus, and what follows the sign. -/
def sign (cs : List Char) : Bool × List Char := (cs.head? = some '-', Tag.unsigned cs)

/-- A text cut at its colons. -/
def parts : List Char → List (List Char)
  | [] => [[]]
  | c :: cs =>
    if c = ':' then [] :: parts cs
    else
      match parts cs with
      | p :: ps => (c :: p) :: ps
      | [] => [[c]]

def numeral (base : Nat) (cs : List Char) : Except Fault Int :=
  match Numeral.read base (String.ofList cs) with
  | .ok n => .ok n
  | .error e => .error (.noNumeral e)

/-- Digits in base sixty, each a numeral of its own. -/
def sixtieth (ps : List (List Char)) : Except Fault Int := do
  let ns ← ps.mapM (numeral 10)
  return ns.foldl (fun n d => n * 60 + d) 0

/-- A number in base 2, 16, 8, 60 or 10. -/
def int (text : List Char) : Except Fault Int := do
  let cs := withoutUnderscores text
  if cs = [] then throw .emptyNumeral
  let (negative, ds) := sign cs
  let n ←
    match ds with
    | ['0'] => pure 0
    | '0' :: 'b' :: ds => numeral 2 ds
    | '0' :: 'x' :: ds => numeral 16 ds
    | '0' :: _ => numeral 8 ds
    | [] => throw .emptyNumeral
    | _ => if ds.contains ':' then sixtieth (parts ds) else numeral 10 ds
  return if negative then -n else n

def realPart (cs : List Char) : Except Fault Binary64 :=
  match Binary64.ofChars? cs with
  | some x => .ok x
  | none => .error (.noReal (String.ofList cs))

/-- The parts from the last one on, each sixty times the one behind it. -/
def sixtiethReal (base : Nat) (sum : Binary64) : List Binary64 → Except Fault Binary64
  | [] => .ok sum
  | x :: xs =>
    match Binary64.ofInt base with
    | .finite s m e => sixtiethReal (base * 60) (sum.add (x.mul (.finite s m e))) xs
    | _ => .error .tooLarge

def real (text : List Char) : Except Fault Binary64 := do
  let cs := Text.lower (withoutUnderscores text)
  if cs = [] then throw .emptyNumeral
  let (negative, ds) := sign cs
  let x ←
    if ds = ".inf".toList then pure (.infinite false)
    else if ds = ".nan".toList then pure .nan
    else if ds.contains ':' then do
      sixtiethReal 1 (.zero false) (← (parts ds).mapM realPart).reverse
    else realPart ds
  return if negative then x.negate else x

def truth (text : List Char) : Except Fault Bool :=
  let word := String.ofList (Text.lower text)
  match Tag.truthWords.lookup word with
  | some b => .ok b
  | none => .error (.noTruth word)

def digits (cs : List Char) : Nat := cs.foldl (fun n c => n * 10 + (c.toNat - '0'.toNat)) 0

def date (s : Tag.Stamp) : Except Fault Date :=
  match Date.of (digits s.year) (digits s.month) (digits s.day) with
  | .ok d => .ok d
  | .error e => .error (.noDate e)

/-- The first six digits behind the point. -/
def microseconds (fraction : List Char) : Nat :=
  digits (fraction.take 6 ++ List.replicate (6 - fraction.length) '0')

def offset : Option (Option (Char × List Char × List Char)) → Except Fault (Option Offset)
  | none => .ok none
  | some none => .ok (some ⟨0⟩)
  | some (some (s, hours, minutes)) =>
    let n : Int := (digits hours * 60 + digits minutes) * 60
    let o : Offset := ⟨if s = '-' then -n else n⟩
    if o.isValid then .ok (some o) else .error (.noOffset o)

/-- A date, or a date with a time of day. -/
def time (text : List Char) : Except Fault Value := do
  match Tag.stamp? (Tag.withoutLineFeed text) with
  | none => throw (.noTime (String.ofList text))
  | some s =>
    match s.clock with
    | none => return .date (← date s)
    | some (hour, minute, second, fraction) =>
      let o ← offset s.offset
      let d ← date s
      match TimeOfDay.of (digits hour) (digits minute) (digits second) (microseconds fraction) with
      | .ok t => return .time ⟨d, t, o⟩
      | .error e => throw (.noClock e)

def binary (text : List Char) : Except Fault (List UInt8) :=
  if text.all fun c => c.toNat < 0x80 then
    match Text.base64Bytes? 0 0 0 text with
    | some bs => .ok bs
    | none => .error .malformed
  else .error .malformed

/-- Whether a text is the mark of what is no number, which always stands for the same. Words that
say so make a new one each time. -/
def isNanMark (text : List Char) : Bool :=
  (sign (Text.lower (withoutUnderscores text))).2 = ".nan".toList

def realValue (node : Nat) (text : List Char) : Except Fault Value := do
  let x ← real text
  return if x = .nan ∧ !isNanMark text then .nan node else .real x

/-- The value of a scalar with a tag for scalars, at a node. -/
def value (node : Nat) (tag : Tag) (text : List Char) : Except Fault Value :=
  match tag with
  | .null => .ok .null
  | .bool => Value.bool <$> truth text
  | .int => Value.int <$> int text
  | .real => realValue node text
  | .binary => Value.bytes <$> binary text
  | .time => time text
  | .text => .ok (.text (String.ofList text))
  | _ => .error .malformed

end VolumeExport.Markup.Scalar
