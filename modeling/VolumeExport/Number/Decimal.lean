import VolumeExport.Number.Binary64

namespace VolumeExport.Binary64

/-- `digits` stands for `0.digits * 10 ^ point`. -/
structure Positional where
  digits : List Char
  point : Int
  deriving Repr

/-- The greatest `p` with `10 ^ p ≤ num / den`, for a positive fraction. -/
def decimalExponent (num den : Nat) : Int :=
  let guess : Int := (Nat.toDigits 10 num).length - (Nat.toDigits 10 den).length
  let reaches : Bool :=
    if 0 ≤ guess then den * Nat.pow 10 guess.toNat ≤ num else den ≤ num * Nat.pow 10 (-guess).toNat
  if reaches then guess else guess - 1

/-- The fraction in units of `10 ^ p`. -/
def inUnits (num den : Nat) (p : Int) : Nat × Nat :=
  if 0 ≤ p then (num, den * Nat.pow 10 p.toNat) else (num * Nat.pow 10 (-p).toNat, den)

def Positional.ofNat (n : Nat) (unit : Int) : Positional :=
  let ds := Nat.toDigits 10 n
  let kept := (ds.reverse.dropWhile (· == '0')).reverse
  ⟨if kept.isEmpty then ['0'] else kept, ds.length + unit⟩

/-- The `digits` leading digits, rounded to the nearest with ties to even. -/
def leading (digits : Nat) (m : Nat) (e : Int) : Positional :=
  let (num, den) := toRatio m e
  let unit := decimalExponent num den - digits + 1
  let (n, d) := inUnits num den unit
  Positional.ofNat (roundDiv n d) unit

/-- Whether `n * 10 ^ unit` is nearer to `m * 2 ^ e` than to any other number of the format; an
end of the interval belongs to it if the significand is even. -/
def readsBack (m : Nat) (e : Int) (n : Nat) (unit : Int) : Bool :=
  let below : Nat := if m = Nat.pow 2 52 ∧ minExponent < e then 4 * m - 1 else 4 * m - 2
  let above : Nat := 4 * m + 2
  let (lowNum, lowDen) := toRatio below (e - 2)
  let (highNum, highDen) := toRatio above (e - 2)
  let (p, q) := if 0 ≤ unit then (n * Nat.pow 10 unit.toNat, 1) else (n, Nat.pow 10 (-unit).toNat)
  if m % 2 = 0 then lowNum * q ≤ p * lowDen && p * highDen ≤ highNum * q
  else lowNum * q < p * lowDen && p * highDen < highNum * q

/-- The number's neighbour on the grid of `digits` digits that reads back; of two the nearer. -/
def onGrid? (m : Nat) (e : Int) (digits : Nat) : Option Positional :=
  let (num, den) := toRatio m e
  let unit := decimalExponent num den - digits + 1
  let (n, d) := inUnits num den unit
  let nearest := roundDiv n d
  let other := if nearest = n / d then nearest + 1 else n / d
  if readsBack m e nearest unit then some (.ofNat nearest unit)
  else if readsBack m e other unit then some (.ofNat other unit)
  else none

/-- The fewest digits that read back; seventeen always do. -/
def shortest (m : Nat) (e : Int) : Positional :=
  ((List.range 17).findSome? fun n => onGrid? m e (n + 1)).getD (leading 17 m e)

/-- How a number is laid out: the points for which it is written without an exponent, whether a
whole number keeps a zero behind the point. -/
structure Layout where
  least : Int
  greatest : Int
  keepsZero : Bool

def exponentText (n : Int) : List Char :=
  let ds := Nat.toDigits 10 n.natAbs
  'e' :: (if n < 0 then '-' else '+') :: (List.replicate (2 - ds.length) '0' ++ ds)

def Layout.render (l : Layout) (p : Positional) : List Char :=
  if p.point < l.least ∨ l.greatest < p.point then
    let mantissa := match p.digits with
      | [d] => [d]
      | d :: ds => d :: '.' :: ds
      | [] => []
    mantissa ++ exponentText (p.point - 1)
  else if p.point ≤ 0 then
    '0' :: '.' :: (List.replicate (-p.point).toNat '0' ++ p.digits)
  else
    let k := p.point.toNat
    let whole := p.digits.take k ++ List.replicate (k - p.digits.length) '0'
    match p.digits.drop k with
    | [] => if l.keepsZero then whole ++ ['.', '0'] else whole
    | ds => whole ++ '.' :: ds

/-- Positional from 10 ^ -4 up to 10 ^ 16. -/
def plain : Layout := ⟨-3, 16, true⟩

/-- Positional from 10 ^ -4 up to 10 ^ 6, without a trailing zero. -/
def compact : Layout := ⟨-3, 6, false⟩

def minus (negative : Bool) : List Char := if negative then ['-'] else []

def render (l : Layout) (digits : Nat → Int → Positional) : Binary64 → String
  | .finite s m e =>
    let p := if m = 0 then ⟨['0'], 1⟩ else digits m e
    String.ofList (minus s ++ l.render p)
  | .infinite s => String.ofList (minus s ++ ['i', 'n', 'f'])
  | .nan => "nan"

/-- The fewest digits that read back. -/
def text : Binary64 → String := render plain shortest

/-- At most six digits. -/
def sixDigits : Binary64 → String := render compact (leading 6)

end VolumeExport.Binary64
