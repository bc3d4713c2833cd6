import VolumeExport.Text.Blank
import VolumeExport.Text.Letter
import VolumeExport.Text.Quoted

namespace VolumeExport.Numeral

open Text

/-- Reading and writing a decimal numeral stop at this many digits. -/
def maxDigits : Nat := 4300

inductive Fault
  | malformed (base : Nat) (text : String)
  | tooLong (digits : Nat)
  /-- A number that has too many digits to be written. -/
  | tooLarge
  deriving DecidableEq, Repr

def Fault.message : Fault → String
  | .malformed base text =>
    s!"invalid literal for int() with base {base}: " ++
      String.ofList ((quoted text).toList.take 200)
  | .tooLong digits =>
    s!"Exceeds the limit ({maxDigits} digits) for integer string conversion: value has {digits} " ++
      "digits; use sys.set_int_max_str_digits() to increase the limit"
  | .tooLarge =>
    s!"Exceeds the limit ({maxDigits} digits) for integer string conversion; " ++
      "use sys.set_int_max_str_digits() to increase the limit"

def letterValue? (c : Char) : Option Nat :=
  if 'a' ≤ c ∧ c ≤ 'z' then some (c.toNat - 'a'.toNat + 10)
  else if 'A' ≤ c ∧ c ≤ 'Z' then some (c.toNat - 'A'.toNat + 10)
  else none

/-- The value of a digit below `base`. -/
def digit? (base : Nat) (c : Char) : Option Nat :=
  ((digitValue? c).or (letterValue? c)).filter (· < base)

/-- The digits behind a digit, as far as they go, and the rest of the text. An underscore has to
have a digit behind it. -/
def moreDigits? (base : Nat) : List Char → Option (List Nat × List Char)
  | [] => some ([], [])
  | '_' :: cs =>
    match cs with
    | [] => none
    | c :: cs => do
      let d ← digit? base c
      let (ds, rest) ← moreDigits? base cs
      return (d :: ds, rest)
  | c :: cs =>
    match digit? base c with
    | some d => do
      let (ds, rest) ← moreDigits? base cs
      return (d :: ds, rest)
    | none => some ([], c :: cs)

/-- The digits at the start of a text, one at least, and the rest. -/
def digits? (base : Nat) : List Char → Option (List Nat × List Char)
  | [] => none
  | c :: cs => do
    let d ← digit? base c
    let (ds, rest) ← moreDigits? base cs
    return (d :: ds, rest)

/-- The number written by digits, the most significant first. -/
def ofDigits (base : Nat) (ds : List Nat) : Nat := ds.foldl (fun n d => n * base + d) 0

/-- The letter that marks a base. -/
def baseMark? : Nat → Option Char
  | 2 => some 'b'
  | 8 => some 'o'
  | 16 => some 'x'
  | _ => none

/-- The digits behind the mark of the base, which is a zero of any script and a letter; one
underscore may separate the two. -/
def afterMark (base : Nat) : List Char → List Char
  | z :: m :: cs =>
    if digitValue? z = some 0 ∧ baseMark? base = some m.toLower then
      match cs with
      | '_' :: cs => cs
      | cs => cs
    else z :: m :: cs
  | cs => cs

def sign : List Char → Bool × List Char
  | '-' :: cs => (true, cs)
  | '+' :: cs => (false, cs)
  | cs => (false, cs)

/-- A base that is a power of two has no limit on its digits. -/
def limited (base : Nat) : Bool := base ∉ [2, 4, 8, 16, 32]

/-- The number that a text is. The digits are counted before what follows them is looked at. -/
def read (base : Nat) (text : String) : Except Fault Int :=
  let (negative, cs) := sign (text.toList.dropWhile isPadding)
  match digits? base (afterMark base cs) with
  | none => .error (.malformed base text)
  | some (ds, rest) =>
    if limited base && maxDigits < ds.length then .error (.tooLong ds.length)
    else if !rest.all isPadding then .error (.malformed base text)
    else .ok (if negative then -(ofDigits base ds : Int) else ofDigits base ds)

/-- A number in decimal digits. -/
def write (n : Int) : Except Fault String :=
  if n.natAbs < Nat.pow 10 maxDigits then .ok (toString n) else .error .tooLarge

end VolumeExport.Numeral

namespace VolumeExport.Significant

/-- Decimal results have this many digits at most. -/
def precision : Nat := 28

def digitCount (n : Nat) : Nat := (Nat.toDigits 10 n).length

/-- The number with at most `precision` digits, a tie going to the even one, and the count of digits
lost. -/
def rounded (n : Nat) : Nat × Nat :=
  let lost := digitCount n - precision
  let unit := Nat.pow 10 lost
  let q := n / unit
  let r := n % unit
  (if unit < 2 * r ∨ (2 * r = unit ∧ q % 2 = 1) then q + 1 else q, lost)

end VolumeExport.Significant
