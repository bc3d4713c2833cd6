import VolumeExport.Number.Decimal
import VolumeExport.Text.Blank
import VolumeExport.Text.Letter

namespace VolumeExport.Binary64

def plainDigit (c : Char) : Char :=
  match Text.digitValue? c with
  | some d => Char.ofNat (d + '0'.toNat)
  | none => c

/-- The power of ten behind `e`, zero if there is none. -/
def power? : List Char → Option Int
  | [] => some 0
  | e :: cs =>
    let (negative, ds) := match cs with
      | '-' :: ds => (true, ds)
      | '+' :: ds => (false, ds)
      | ds => (false, ds)
    if (e = 'e' ∨ e = 'E') ∧ ds ≠ [] ∧ ds.all Char.isDigit then
      let n := ds.foldl (fun n d => n * 10 + (d.toNat - '0'.toNat)) 0
      some (if negative then -(n : Int) else n)
    else none

def unsigned? (negative : Bool) (cs : List Char) : Option Binary64 :=
  let word := cs.map Char.toLower
  if word = "inf".toList ∨ word = "infinity".toList then some (.infinite negative)
  else if word = "nan".toList then some .nan
  else
    let whole := cs.takeWhile Char.isDigit
    let rest := cs.dropWhile Char.isDigit
    let (fraction, rest) := match rest with
      | '.' :: cs => (cs.takeWhile Char.isDigit, cs.dropWhile Char.isDigit)
      | cs => ([], cs)
    let ds := whole ++ fraction
    if ds = [] then none
    else
      (power? rest).map fun p =>
        ofDecimal negative (ds.foldl (fun n d => n * 10 + (d.toNat - '0'.toNat)) 0)
          (p - fraction.length)

def ofChars? (text : List Char) : Option Binary64 :=
  match (Text.unpad text).map plainDigit with
  | '-' :: cs => unsigned? true cs
  | '+' :: cs => unsigned? false cs
  | cs => unsigned? false cs

end VolumeExport.Binary64
