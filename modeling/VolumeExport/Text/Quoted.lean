import VolumeExport.Text.Printable
import VolumeExport.Text.Surrogate

namespace VolumeExport.Text

/-- The lower-case hexadecimal digits of a number, at least `width` of them. -/
def hex (width n : Nat) : List Char :=
  let ds := Nat.toDigits 16 n
  List.replicate (width - ds.length) '0' ++ ds

/-- A single quotation mark, unless the text holds one and no double one. -/
def quotationMark (cs : List Char) : Char :=
  if cs.contains '\x27' && !cs.contains '\x22' then '\x22' else '\x27'

/-- A code point by its number, in the shortest of the three forms that can hold it. -/
def numericEscape (n : Nat) : List Char :=
  if n ≤ 0xff then '\\' :: 'x' :: hex 2 n
  else if n ≤ 0xffff then '\\' :: 'u' :: hex 4 n
  else '\\' :: 'U' :: hex 8 n

/-- A character between two marks `q`. -/
def escape (q c : Char) : List Char :=
  if c = q ∨ c = '\\' then ['\\', c]
  else if c = '\t' then ['\\', 't']
  else if c = '\n' then ['\\', 'n']
  else if c = '\r' then ['\\', 'r']
  else if isPrintable c then [c]
  else numericEscape c.toNat

def escapeCode (q : Char) (n : Nat) : List Char :=
  if isSurrogate n then numericEscape n else escape q (Char.ofNat n)

def quotedChars (cs : List Char) : List Char :=
  let q := quotationMark cs
  q :: (codes cs).flatMap (escapeCode q) ++ [q]

def quoted (s : String) : String := String.ofList (quotedChars s.toList)

end VolumeExport.Text
