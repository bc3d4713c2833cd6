import VolumeExport.Dict
import VolumeExport.Number.Decimal
import VolumeExport.Text.Quoted

namespace VolumeExport

/-- The fields of an object are in the order of their names, each name once, so that values with the
same contents are equal. -/
inductive Json
  | null
  | bool (value : Bool)
  | int (value : Int)
  /-- A number that was written with a point or an exponent. -/
  | real (value : Binary64)
  | string (value : String)
  | array (items : List Json)
  | object (fields : List (String × Json))
  deriving Inhabited, Repr

namespace Json

mutual

def same : Json → Json → Bool
  | .null, .null => true
  | .bool a, .bool b => a == b
  | .int m, .int n => m == n
  | .real x, .real y => x == y
  | .string a, .string b => a == b
  | .array a, .array b => sameItems a b
  | .object a, .object b => sameFields a b
  | _, _ => false

def sameItems : List Json → List Json → Bool
  | [], [] => true
  | a :: as, b :: bs => same a b && sameItems as bs
  | _, _ => false

def sameFields : List (String × Json) → List (String × Json) → Bool
  | [], [] => true
  | (k, a) :: as, (l, b) :: bs => k == l && same a b && sameFields as bs
  | _, _ => false

end

mutual

theorem eq_of_same : {a b : Json} → same a b = true → a = b
  | .null, b, h => by cases b <;> simp_all [same]
  | .bool _, b, h => by cases b <;> simp_all [same]
  | .int _, b, h => by cases b <;> simp_all [same]
  | .real _, b, h => by cases b <;> simp_all [same]
  | .string _, b, h => by cases b <;> simp_all [same]
  | .array as, b, h => by
    cases b with
    | array bs => exact congrArg _ (eq_of_sameItems (by simpa [same] using h))
    | _ => simp [same] at h
  | .object as, b, h => by
    cases b with
    | object bs => exact congrArg _ (eq_of_sameFields (by simpa [same] using h))
    | _ => simp [same] at h

theorem eq_of_sameItems : {as bs : List Json} → sameItems as bs = true → as = bs
  | [], bs, h => by cases bs <;> simp_all [sameItems]
  | a :: as, bs, h => by
    cases bs with
    | nil => simp [sameItems] at h
    | cons b bs =>
      simp only [sameItems, Bool.and_eq_true] at h
      rw [eq_of_same h.1, eq_of_sameItems h.2]

theorem eq_of_sameFields : {as bs : List (String × Json)} → sameFields as bs = true → as = bs
  | [], bs, h => by cases bs <;> simp_all [sameFields]
  | (k, a) :: as, bs, h => by
    cases bs with
    | nil => simp [sameFields] at h
    | cons b bs =>
      obtain ⟨l, b⟩ := b
      simp only [sameFields, Bool.and_eq_true, beq_iff_eq] at h
      rw [h.1.1, eq_of_same h.1.2, eq_of_sameFields h.2]

end

mutual

theorem same_self : (a : Json) → same a a = true
  | .null => rfl
  | .bool _ => by simp [same]
  | .int _ => by simp [same]
  | .real _ => by simp [same]
  | .string _ => by simp [same]
  | .array as => by simpa [same] using sameItems_self as
  | .object as => by simpa [same] using sameFields_self as

theorem sameItems_self : (as : List Json) → sameItems as as = true
  | [] => rfl
  | a :: as => by simp [sameItems, same_self a, sameItems_self as]

theorem sameFields_self : (as : List (String × Json)) → sameFields as as = true
  | [] => rfl
  | (_, a) :: as => by simp [sameFields, same_self a, sameFields_self as]

end

instance : DecidableEq Json := fun a b =>
  if h : same a b = true then .isTrue (eq_of_same h)
  else .isFalse fun e => h (e ▸ same_self a)

def ofNat (n : Nat) : Json := .int n

def ofFields (fields : List (String × Json)) : Json :=
  .object (fields.foldl (fun xs p => Dict.place p.1 p.2 xs) [])

/-- A text, or null. -/
def ofText (text : Option String) : Json := (text.map Json.string).getD .null

def ofDict (d : Dict String) : Json := .object (d.toList.map fun p => (p.1, .string p.2))

/-- Texts by names, some of which may be missing. -/
def ofPartialDict (d : Dict (Option String)) : Json :=
  .object (d.toList.map fun p => (p.1, ofText p.2))

/-- A field of an object. -/
def field? (name : String) : Json → Option Json
  | .object fields => Dict.look name fields
  | _ => none

/-- A field of fields, one inside the other. -/
def path? : List String → Json → Option Json
  | [], j => some j
  | name :: names, j => (j.field? name).bind (path? names)

def string? : Json → Option String
  | .string s => some s
  | _ => none

def items? : Json → Option (List Json)
  | .array xs => some xs
  | _ => none

/-- The texts of an array; what is no text counts as missing. -/
def texts? (j : Json) : Option (List (Option String)) := j.items?.map (·.map string?)

/-- The fields of an object as texts; what is no text counts as missing. -/
def partialDict? : Json → Option (Dict (Option String))
  | .object fields => some (.ofList (fields.map fun p => (p.1, p.2.string?)))
  | _ => none

def setIn (name : String) (value : Json) (fields : List (String × Json)) :
    List (String × Json) :=
  Dict.place name value fields

def withoutIn (name : String) (fields : List (String × Json)) : List (String × Json) :=
  fields.filter (·.1 ≠ name)

mutual

/-- A patch of an object changes the fields that it names: `null` removes one, an object patches
one, any other value replaces one. -/
def merge (target : Json) : Json → Json
  | .object patch =>
    .object (mergeFields (match target with | .object fields => fields | _ => []) patch)
  | patch => patch

def mergeFields (fields : List (String × Json)) : List (String × Json) → List (String × Json)
  | [] => fields
  | (k, .null) :: patch => mergeFields (withoutIn k fields) patch
  | (k, v) :: patch =>
    mergeFields (setIn k (merge ((Dict.look k fields).getD .null) v) fields) patch

end

/-- A code point beyond ASCII in one or two units of sixteen bits. -/
def escapedUnits (n : Nat) : List Char :=
  let unit (u : Nat) : List Char := '\\' :: 'u' :: Text.hex 4 u
  if n < 0x10000 then unit n
  else unit (0xd800 + (n - 0x10000) / 0x400) ++ unit (0xdc00 + (n - 0x10000) % 0x400)

/-- A code point. -/
def escape (n : Nat) : List Char :=
  if n = 0x22 ∨ n = 0x5c then ['\\', Char.ofNat n]
  else if n = 0x0a then ['\\', 'n']
  else if n = 0x0d then ['\\', 'r']
  else if n = 0x09 then ['\\', 't']
  else if n = 0x08 then ['\\', 'b']
  else if n = 0x0c then ['\\', 'f']
  else if 0x20 ≤ n ∧ n ≤ 0x7e then [Char.ofNat n]
  else escapedUnits n

def quoted (s : String) : String :=
  String.ofList ('\x22' :: (Text.codes s.toList).flatMap escape ++ ['\x22'])

/-- The fewest digits that read back, or a word. -/
def realText (x : Binary64) : String :=
  match x with
  | .infinite negative => if negative then "-Infinity" else "Infinity"
  | .nan => "NaN"
  | x => x.text

mutual

/-- The text of a value on one line. -/
def text : Json → String
  | .null => "null"
  | .bool b => if b then "true" else "false"
  | .int n => toString n
  | .real x => realText x
  | .string s => quoted s
  | .array xs => "[" ++ ", ".intercalate (itemTexts xs) ++ "]"
  | .object fields => "\x7b" ++ ", ".intercalate (fieldTexts fields) ++ "\x7d"

def itemTexts : List Json → List String
  | [] => []
  | x :: xs => text x :: itemTexts xs

def fieldTexts : List (String × Json) → List String
  | [] => []
  | (k, v) :: fields => (quoted k ++ ": " ++ text v) :: fieldTexts fields

end

end Json

end VolumeExport
