import VolumeExport.Calendar.Timestamp.Lexeme
import VolumeExport.Number.Numeral

namespace VolumeExport.Timestamp

inductive Fault
  /-- The text gives no time. -/
  | unreadable
  /-- A number lies beyond all that can be counted. -/
  | tooLarge
  /-- A number has so many digits that its fraction cannot be told. -/
  | imprecise
  deriving DecidableEq, Repr

/-- What is there, or else the text gives no time. -/
def found {α : Type} : Option α → Except Fault α
  | some a => .ok a
  | none => .error .unreadable

/-- The whole number that digits write. -/
def whole? (t : Lexeme) : Option Nat :=
  if t = [] ∨ Numeral.maxDigits < t.length then none
  else (t.mapM Text.digitValue?).map (Numeral.ofDigits 10)

/-- `coefficient / 10 ^ places`. -/
structure Amount where
  coefficient : Nat
  places : Nat
  deriving DecidableEq, Repr

namespace Amount

/-- Digits, with one point among them or none. -/
def ofLexeme? (t : Lexeme) : Option Amount := do
  let before := t.takeWhile (· ≠ '.')
  let after := (t.dropWhile (· ≠ '.')).drop 1
  let digits := before ++ after
  if digits = [] then none
  else return ⟨Numeral.ofDigits 10 (← digits.mapM Text.digitValue?), after.length⟩

def unit (a : Amount) : Nat := Nat.pow 10 a.places

def whole (a : Amount) : Nat := a.coefficient / a.unit

/-- Whether the amount is greater than a number. -/
def exceeds (a : Amount) (n : Nat) : Bool := n * a.unit < a.coefficient

/-- The sixtieth parts in the fraction, if there is one. The fraction and sixty times it are held in
decimal digits of bounded count. -/
def sixtieths? (a : Amount) : Except Fault (Option Nat) :=
  if Significant.precision < Significant.digitCount a.whole then .error .imprecise
  else if a.coefficient % a.unit = 0 then .ok none
  else
    let (fraction, lost) := Significant.rounded (a.coefficient % a.unit)
    let (parts, more) := Significant.rounded (60 * fraction)
    .ok (some (parts * Nat.pow 10 (lost + more) / a.unit))

end Amount

/-- Seconds and microseconds; digits from the seventh on do not count. -/
def seconds? (t : Lexeme) : Option (Nat × Nat) :=
  match t.dropWhile (· ≠ '.') with
  | [] => do return (← whole? t, 0)
  | _ :: fraction => do
    let six := fraction ++ List.replicate (6 - fraction.length) '0'
    return (← whole? (t.takeWhile (· ≠ '.')), ← whole? (six.take 6))

end VolumeExport.Timestamp
