import VolumeExport.Number.Numeral

namespace VolumeExport

/-- A decimal number times a suffix, as in `50m` or `1.5Gi`, rounded to 28 digits. -/
inductive Quantity
  | finite (negative : Bool) (coefficient : Nat) (exponent : Int)
  | infinite (negative : Bool)
  | nan (signaling : Bool)
  deriving DecidableEq, Repr

namespace Quantity

open Significant

/-- Bounds of a written number: no digit stands beyond these powers of ten. -/
def maxWritten : Int := 999999999999999999

def minWritten : Int := -1999999999999999997

/-- The greatest power of ten at which the leading digit of a scaled quantity may stand. -/
def maxScaled : Int := 999999

/-- The power of ten of the leading digit. -/
def leadingPower (coefficient : Nat) (exponent : Int) : Int :=
  exponent + digitCount coefficient - 1

/-- Digits of every script become plain ones and underscores fall away. -/
def plainChars? : List Char → Option (List Char)
  | [] => some []
  | '_' :: cs => plainChars? cs
  | c :: cs => do
    let c ← if c.toNat < 0x80 then some c
      else (Text.digitValue? c).map fun d => Char.ofNat (d + '0'.toNat)
    return c :: (← plainChars? cs)

def valueOf (ds : List Char) : Nat := ds.foldl (fun n d => n * 10 + (d.toNat - '0'.toNat)) 0

def sign : List Char → Bool × List Char
  | '-' :: cs => (true, cs)
  | '+' :: cs => (false, cs)
  | cs => (false, cs)

/-- The power of ten behind `e`, or zero at the end of the number. -/
def exponent? : List Char → Option Int
  | [] => some 0
  | e :: cs =>
    let (negative, ds) := sign cs
    if (e = 'e' ∨ e = 'E') ∧ ds ≠ [] ∧ ds.all Char.isDigit then
      some (if negative then -(valueOf ds : Int) else valueOf ds)
    else none

/-- Digits with at most one point among them, then the exponent. -/
def finite? (negative : Bool) (cs : List Char) : Option Quantity :=
  let whole := cs.takeWhile Char.isDigit
  let rest := cs.dropWhile Char.isDigit
  let (fraction, rest) := match rest with
    | '.' :: cs => (cs.takeWhile Char.isDigit, cs.dropWhile Char.isDigit)
    | cs => ([], cs)
  if whole ++ fraction = [] then none
  else do
    let power ← exponent? rest
    let coefficient := valueOf (whole ++ fraction)
    let exponent := power - fraction.length
    let top := if coefficient = 0 then exponent else leadingPower coefficient exponent
    if minWritten ≤ exponent ∧ top ≤ maxWritten then some (.finite negative coefficient exponent)
    else none

/-- A decimal number, an infinity or a mark that there is no number. -/
def number? (text : List Char) : Option Quantity := do
  let (negative, cs) := sign (← plainChars? (Text.trim text))
  let word := cs.map Char.toLower
  if word = "inf".toList ∨ word = "infinity".toList then some (.infinite negative)
  else if "nan".toList.isPrefixOf word ∧ (cs.drop 3).all Char.isDigit then some (.nan false)
  else if "snan".toList.isPrefixOf word ∧ (cs.drop 4).all Char.isDigit then some (.nan true)
  else finite? negative cs

/-- The power of the base that a letter stands for. -/
def letterPower? : Char → Option Int
  | 'n' => some (-3)
  | 'u' => some (-2)
  | 'm' => some (-1)
  | 'K' => some 1
  | 'k' => some 1
  | 'M' => some 2
  | 'G' => some 3
  | 'T' => some 4
  | 'P' => some 5
  | 'E' => some 6
  | _ => none

/-- `i` behind a letter makes the base 1024; small units and `k` have no such form. -/
def hasBinary (letter : Char) : Bool :=
  letter = 'K' || (letter ≠ 'k' && (letterPower? letter).any (0 < ·))

inductive Suffix
  | none
  | decimal (power : Int)
  | binary (power : Nat)
  | unknown
  deriving DecidableEq, Repr

/-- The suffix and the number in front of it. -/
def split (text : List Char) : Suffix × List Char :=
  match text.reverse with
  | 'i' :: letter :: cs =>
    match letterPower? letter with
    | some power =>
      (if hasBinary letter then .binary power.toNat else .unknown, cs.reverse)
    | none => (.none, text)
  | letter :: cs =>
    match letterPower? letter with
    | some power => (.decimal power, cs.reverse)
    | none => (.none, text)
  | [] => (.none, text)

/-- A quantity times `factor * 10 ^ power`. -/
def scale? (factor : Nat) (power : Int) : Quantity → Option Quantity
  | .finite negative coefficient exponent =>
    let (c, lost) := rounded (coefficient * factor)
    let e := exponent + power + lost
    if c ≠ 0 ∧ maxScaled < leadingPower c e then none else some (.finite negative c e)
  | .infinite negative => some (.infinite negative)
  | .nan signaling => if signaling then none else some (.nan false)

def ofChars? (text : List Char) : Option Quantity := do
  let (suffix, digits) := split text
  let q ← number? digits
  match suffix with
  | .none => some q
  | .decimal power => scale? 1 (3 * power) q
  | .binary power => scale? (Nat.pow 1024 power) 0 q
  | .unknown => none

def ofText? (text : String) : Option Quantity := ofChars? text.toList

end Quantity

end VolumeExport
