import VolumeExport.Text.Blank
import VolumeExport.Text.Letter

namespace VolumeExport

/-- `finite negative m e` is `m * 2 ^ e`, where `m` has 53 bits or `e` is the least exponent. -/
inductive Binary64
  | finite (negative : Bool) (m : Nat) (e : Int)
  | infinite (negative : Bool)
  | nan
  deriving DecidableEq, Repr

namespace Binary64

def minExponent : Int := -1074

def maxExponent : Int := 971

/-- The quotient rounded to the nearest number, a tie to the even one. -/
def roundDiv (num den : Nat) : Nat :=
  let q := num / den
  let r := num % den
  if den < 2 * r ∨ (2 * r = den ∧ q % 2 = 1) then q + 1 else q

/-- `num / (den * 2 ^ e)` as a fraction of whole numbers. -/
def shifted (num den : Nat) (e : Int) : Nat × Nat :=
  if 0 ≤ e then (num, den * Nat.pow 2 e.toNat) else (num * Nat.pow 2 (-e).toNat, den)

/-- The exponent that leaves `num / den` a significand of 53 bits. -/
def scale (num den : Nat) : Int :=
  let e : Int := num.log2 - den.log2 - 52
  let (n, d) := shifted num den e
  max minExponent (if n / d < Nat.pow 2 52 then e - 1 else e)

def zero (negative : Bool) : Binary64 := .finite negative 0 minExponent

/-- The number nearest to a fraction. -/
def ofRatio (negative : Bool) (num den : Nat) : Binary64 :=
  if num = 0 then zero negative
  else
    let e := scale num den
    let (n, d) := shifted num den e
    let m := roundDiv n d
    let (m, e) := if m = Nat.pow 2 53 then (Nat.pow 2 52, e + 1) else (m, e)
    if maxExponent < e then .infinite negative else .finite negative m e

/-- The exact value as a fraction. -/
def toRatio (m : Nat) (e : Int) : Nat × Nat :=
  if 0 ≤ e then (m * Nat.pow 2 e.toNat, 1) else (m, Nat.pow 2 (-e).toNat)

/-- The number nearest to `coefficient * 10 ^ exponent`. Beyond 10 ^ ±400 the exponent alone
decides. -/
def ofDecimal (negative : Bool) (coefficient : Nat) (exponent : Int) : Binary64 :=
  if coefficient = 0 then zero negative
  else
    let magnitude : Int := (Nat.toDigits 10 coefficient).length + exponent
    if 400 < magnitude then .infinite negative
    else if magnitude < -400 then zero negative
    else if 0 ≤ exponent then ofRatio negative (coefficient * Nat.pow 10 exponent.toNat) 1
    else ofRatio negative coefficient (Nat.pow 10 (-exponent).toNat)

def negate : Binary64 → Binary64
  | .finite s m e => .finite (!s) m e
  | .infinite s => .infinite (!s)
  | .nan => .nan

/-- The number nearest to a whole number. -/
def ofInt (n : Int) : Binary64 := ofRatio (decide (n < 0)) n.natAbs 1

def isZero : Binary64 → Bool
  | .finite _ m _ => m == 0
  | _ => false

def mul : Binary64 → Binary64 → Binary64
  | .finite s m e, .finite t n f =>
    let (p, q) := toRatio (m * n) (e + f)
    ofRatio (s ^^ t) p q
  | .infinite s, .infinite t => .infinite (s ^^ t)
  | .infinite s, .finite t n _ => if n = 0 then .nan else .infinite (s ^^ t)
  | .finite s m _, .infinite t => if m = 0 then .nan else .infinite (s ^^ t)
  | .nan, _ => .nan
  | _, .nan => .nan

def signed (negative : Bool) (n : Nat) : Int := if negative then -n else n

def add : Binary64 → Binary64 → Binary64
  | .finite s m e, .finite t n f =>
    let g := min e f
    let total := signed s (m * Nat.pow 2 (e - g).toNat) + signed t (n * Nat.pow 2 (f - g).toNat)
    if total = 0 then zero (s && t)
    else
      let (p, q) := toRatio total.natAbs g
      ofRatio (decide (total < 0)) p q
  | .infinite s, .infinite t => if s = t then .infinite s else .nan
  | .infinite s, .finite .. => .infinite s
  | .finite .., .infinite t => .infinite t
  | .nan, _ => .nan
  | _, .nan => .nan

/-- The whole number with the same value, if there is one. -/
def toInt? : Binary64 → Option Int
  | .finite s m e =>
    let (p, q) := toRatio m e
    if p % q = 0 then some (signed s (p / q)) else none
  | _ => none

/-- The exact value of a finite number. -/
def toRat? : Binary64 → Option Rat
  | .finite s m e =>
    let (p, q) := toRatio m e
    some (mkRat (signed s p) q)
  | _ => none

/-- The whole number next to a finite number on the side of zero, and the rest. -/
def split? : Binary64 → Option (Int × Binary64)
  | .finite s m e =>
    let (p, q) := toRatio m e
    some (signed s (p / q), ofRatio s (p % q) q)
  | _ => none

/-- The nearest whole number; of two the even one. -/
def nearest? : Binary64 → Option Int
  | .finite s m e =>
    let (p, q) := toRatio m e
    some (signed s (roundDiv p q))
  | _ => none

end Binary64

end VolumeExport
