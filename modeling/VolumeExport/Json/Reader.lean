import VolumeExport.Json
import VolumeExport.Number.Numeral

namespace VolumeExport.Json.Reader

def isBlank (c : Char) : Bool := c = ' ' || c = '\t' || c = '\n' || c = '\r'

def skipBlanks (cs : List Char) : List Char := cs.dropWhile isBlank

/-- Four hexadecimal digits. -/
def unit? : List Char → Option (Nat × List Char)
  | a :: b :: c :: d :: cs => do
    let ds ← [a, b, c, d].mapM fun c => (Numeral.digit? 16 c).filter fun _ => c.toNat < 0x80
    return (Numeral.ofDigits 16 ds, cs)
  | _ => none

/-- What a letter behind a backslash stands for. -/
def escaped? : Char → Option Nat
  | '\x22' => some 0x22
  | '\\' => some 0x5c
  | '/' => some 0x2f
  | 'b' => some 0x08
  | 'f' => some 0x0c
  | 'n' => some 0x0a
  | 'r' => some 0x0d
  | 't' => some 0x09
  | _ => none

/-- The code points up to the closing mark; `read` holds those before, the last one first. -/
def stringCodes? : Nat → List Nat → List Char → Option (List Nat × List Char)
  | 0, _, _ => none
  | _ + 1, _, [] => none
  | _ + 1, read, '\x22' :: cs => some (read.reverse, cs)
  | fuel + 1, read, '\\' :: 'u' :: cs => do
    let (n, cs) ← unit? cs
    stringCodes? fuel (n :: read) cs
  | fuel + 1, read, '\\' :: c :: cs => do stringCodes? fuel ((← escaped? c) :: read) cs
  | fuel + 1, read, c :: cs =>
    if c.toNat < 0x20 then none else stringCodes? fuel (c.toNat :: read) cs

/-- Units that form a pair become one code point. -/
def paired : List Nat → List Nat
  | [] => []
  | [n] => [n]
  | n :: m :: ns =>
    if Text.isLeadUnit n && Text.isTailUnit m then Text.ofPair n m :: paired ns
    else n :: paired (m :: ns)

/-- The text behind an opening mark. -/
def string (cs : List Char) : Option (String × List Char) := do
  let (ns, cs) ← stringCodes? (cs.length + 1) [] cs
  return (String.ofList ((paired ns).flatMap Text.hold), cs)

def digitsValue (ds : List Char) : Nat :=
  Numeral.ofDigits 10 (ds.map fun c => c.toNat - '0'.toNat)

/-- Digits behind a point, if there are any. -/
def fraction (cs : List Char) : List Char × List Char :=
  match cs with
  | '.' :: ds =>
    let places := ds.takeWhile Char.isDigit
    if places = [] then ([], cs) else (places, ds.drop places.length)
  | _ => ([], cs)

/-- A power of ten, if there is one. -/
def power (cs : List Char) : Option Int × List Char :=
  match cs with
  | e :: rest =>
    let (negative, ds) := Numeral.sign rest
    let digits := ds.takeWhile Char.isDigit
    if (e = 'e' ∨ e = 'E') ∧ digits ≠ [] then
      let n : Int := digitsValue digits
      (some (if negative then -n else n), ds.drop digits.length)
    else (none, cs)
  | [] => (none, cs)

/-- A number; one with a point or a power of ten is real. -/
def number? (cs : List Char) : Option (Json × List Char) :=
  let (negative, ds) := match cs with
    | '-' :: ds => (true, ds)
    | ds => (false, ds)
  let whole := ds.takeWhile Char.isDigit
  let whole := if whole.head? = some '0' then ['0'] else whole
  if whole = [] then none
  else
    let (places, rest) := fraction (ds.drop whole.length)
    let (exponent, rest) := power rest
    if places = [] ∧ exponent.isNone then
      let n : Int := digitsValue whole
      some (.int (if negative then -n else n), rest)
    else
      let coefficient := digitsValue (whole ++ places)
      some (.real (.ofDecimal negative coefficient (exponent.getD 0 - places.length)), rest)

/-- Words that stand for values. -/
def words : List (String × Json) :=
  [("null", .null), ("true", .bool true), ("false", .bool false), ("NaN", .real .nan),
    ("Infinity", .real (.infinite false)), ("-Infinity", .real (.infinite true))]

def word? (cs : List Char) : Option (Json × List Char) :=
  words.findSome? fun w =>
    if w.1.toList.isPrefixOf cs then some (w.2, cs.drop w.1.length) else none

mutual

def value? : Nat → List Char → Option (Json × List Char)
  | 0, _ => none
  | fuel + 1, cs =>
    match skipBlanks cs with
    | '\x22' :: cs => (string cs).map fun (s, cs) => (.string s, cs)
    | '[' :: cs =>
      match skipBlanks cs with
      | ']' :: cs => some (.array [], cs)
      | cs => do
        let (xs, cs) ← items? fuel cs
        return (.array xs, cs)
    | '\x7b' :: cs =>
      match skipBlanks cs with
      | '\x7d' :: cs => some (.object [], cs)
      | cs => do
        let (fields, cs) ← fields? fuel cs
        return (.ofFields fields, cs)
    | cs => (word? cs).or (number? cs)

/-- The items up to the closing bracket, one at least. -/
def items? : Nat → List Char → Option (List Json × List Char)
  | 0, _ => none
  | fuel + 1, cs => do
    let (x, cs) ← value? fuel cs
    match skipBlanks cs with
    | ']' :: cs => return ([x], cs)
    | ',' :: cs =>
      let (xs, cs) ← items? fuel cs
      return (x :: xs, cs)
    | _ => none

/-- The fields up to the closing brace, one at least. -/
def fields? : Nat → List Char → Option (List (String × Json) × List Char)
  | 0, _ => none
  | fuel + 1, cs => do
    match skipBlanks cs with
    | '\x22' :: cs =>
      let (name, cs) ← string cs
      match skipBlanks cs with
      | ':' :: cs =>
        let (x, cs) ← value? fuel cs
        match skipBlanks cs with
        | '\x7d' :: cs => return ([(name, x)], cs)
        | ',' :: cs =>
          let (rest, cs) ← fields? fuel cs
          return ((name, x) :: rest, cs)
        | _ => none
      | _ => none
    | _ => none

end

end Reader

/-- The value of a text. -/
def ofText? (text : String) : Option Json :=
  let cs := text.toList
  match Reader.value? (cs.length + 1) cs with
  | some (x, rest) => if (Reader.skipBlanks rest).isEmpty then some x else none
  | none => none

end VolumeExport.Json
