import VolumeExport.Markup.Fault

namespace VolumeExport.Markup.Source

/-- Line ends, the tab and the characters that can be shown. -/
def isAllowed (c : Char) : Bool :=
  let n := c.toNat
  n = 0x09 || n = 0x0a || n = 0x0d || (0x20 ≤ n && n ≤ 0x7e) || n = 0x85 ||
    (0xa0 ≤ n && n ≤ 0xfffd) || 0x10000 ≤ n

def ofChars (cs : List Char) : Except Fault (List Char) :=
  if cs.all isAllowed then .ok cs else .error .malformed

/-- The characters of a text. A text may hold code points that are no characters. -/
def ofText (text : String) : Except Fault (List Char) :=
  let ns := Text.codes text.toList
  if ns.any Text.isSurrogate then .error .malformed else ofChars (ns.map Char.ofNat)

/-- Pairs of bytes as units of sixteen bits. -/
def units? (high : UInt8 → UInt8 → UInt8) (low : UInt8 → UInt8 → UInt8) :
    List UInt8 → Option (List Nat)
  | [] => some []
  | [_] => none
  | a :: b :: bs => do
    return ((high a b).toNat * 256 + (low a b).toNat) :: (← units? high low bs)

/-- Characters beyond the first 65536 take two units, neither of which stands alone. -/
def ofUnits? : List Nat → Option (List Char)
  | [] => some []
  | u :: us =>
    if Text.isLeadUnit u then
      match us with
      | v :: vs =>
        if Text.isTailUnit v then do return Char.ofNat (Text.ofPair u v) :: (← ofUnits? vs)
        else none
      | [] => none
    else if Text.isTailUnit u then none
    else do return Char.ofNat u :: (← ofUnits? us)

def chars? (bytes : List UInt8) : Option (List Char) :=
  match bytes with
  | 0xff :: 0xfe :: _ => (units? (fun _ b => b) (fun a _ => a) bytes).bind ofUnits?
  | 0xfe :: 0xff :: _ => (units? (fun a _ => a) (fun _ b => b) bytes).bind ofUnits?
  | _ => (String.fromUTF8? ⟨bytes.toArray⟩).map String.toList

def ofBytes (bytes : List UInt8) : Except Fault (List Char) :=
  match chars? bytes with
  | some cs => ofChars cs
  | none => .error .malformed

end VolumeExport.Markup.Source
