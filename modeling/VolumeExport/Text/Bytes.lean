import VolumeExport.Text.Quoted

namespace VolumeExport.Text

/-- The value of a digit of base 64. -/
def base64Digit? (c : Char) : Option Nat :=
  let n := c.toNat
  if 'A' ≤ c ∧ c ≤ 'Z' then some (n - 'A'.toNat)
  else if 'a' ≤ c ∧ c ≤ 'z' then some (n - 'a'.toNat + 26)
  else if '0' ≤ c ∧ c ≤ '9' then some (n - '0'.toNat + 52)
  else if c = '+' then some 62
  else if c = '/' then some 63
  else none

/-- The bytes that have come together from `count` digits of a group of four, whose unused bits
are `rest`. Other characters are passed over; padding that fills a group ends the text. -/
def base64Bytes? (count pads rest : Nat) : List Char → Option (List UInt8)
  | [] => if count = 0 then some [] else none
  | '=' :: cs =>
    if 2 ≤ count then
      if 4 ≤ count + (pads + 1) then some [] else base64Bytes? count (pads + 1) rest cs
    else base64Bytes? count pads rest cs
  | c :: cs =>
    match base64Digit? c, count with
    | none, _ => base64Bytes? count pads rest cs
    | some d, 0 => base64Bytes? 1 0 d cs
    | some d, 1 => (base64Bytes? 2 0 (d % 16) cs).map (UInt8.ofNat (rest * 4 + d / 16) :: ·)
    | some d, 2 => (base64Bytes? 3 0 (d % 4) cs).map (UInt8.ofNat (rest * 16 + d / 4) :: ·)
    | some d, _ => (base64Bytes? 0 0 0 cs).map (UInt8.ofNat (rest * 64 + d) :: ·)

/-- Bytes between quotation marks; those that are no printable ASCII characters by their
numbers. -/
def quotedBytes (bytes : List UInt8) : String :=
  let cs := bytes.map fun b => Char.ofNat b.toNat
  let q := quotationMark cs
  let shown (c : Char) : List Char :=
    if c.toNat < 0x7f then escape q c else '\\' :: 'x' :: hex 2 c.toNat
  String.ofList ('b' :: q :: cs.flatMap shown ++ [q])

/-- The characters that stand for themselves in every part of a path. -/
def isUnreserved (c : Char) : Bool := c.isAlphanum || ['-', '.', '_', '~'].contains c

def percentByte (b : UInt8) : List Char := '%' :: (hex 2 b.toNat).map Char.toUpper

def percentChar (c : Char) : List Char :=
  if isUnreserved c then [c] else (String.utf8EncodeChar c).flatMap percentByte

/-- A text as a part of a path; code points that are no characters have no bytes. -/
def percent? (s : String) : Option String :=
  let ns := codes s.toList
  if ns.any isSurrogate then none
  else some (String.ofList (ns.flatMap fun n => percentChar (Char.ofNat n)))

end VolumeExport.Text
