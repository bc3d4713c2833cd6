import VolumeExport.Calendar
import VolumeExport.Json
import VolumeExport.Number.Decimal
import VolumeExport.Number.Numeral
import VolumeExport.Text.Bytes

namespace VolumeExport.Markup

/-- Tells the collections of a document apart; `item` is zero but for the pairs of a list. -/
structure Mark where
  node : Nat
  item : Nat
  deriving DecidableEq, Repr

/-- A collection that an alias puts into itself is a tree all the same: the collection has a mark,
and the place inside that stands for all of it again names the mark. -/
inductive Value
  | null
  | bool (b : Bool)
  | int (n : Int)
  | real (x : Binary64)
  /-- No number, made by a node for itself: it equals none that another node made. -/
  | nan (node : Nat)
  | text (s : String)
  | bytes (bs : List UInt8)
  | date (d : Date)
  | time (t : DateTime)
  | list (items : List Value)
  | pair (first second : Value)
  /-- The items are in the order in which the set shows them. -/
  | set (items : List Value)
  /-- The entries are in the order in which their keys first came; no key comes twice. -/
  | map (entries : List (Value × Value))
  /-- A collection with a mark, which its parts may name. -/
  | cycle (mark : Mark) (body : Value)
  /-- The collection around this place that has the mark. -/
  | again (mark : Mark)
  deriving Inhabited, Repr

namespace Value

/-- The number that a value counts as; truth values count as 0 and 1. -/
def number? : Value → Option Binary64
  | .bool b => some (.ofInt (if b then 1 else 0))
  | .int n => some (.ofInt n)
  | .real x => some x
  | .nan _ => some .nan
  | _ => none

def int? : Value → Option Int
  | .bool b => some (if b then 1 else 0)
  | .int n => some n
  | .real x => x.toInt?
  | _ => none

/-- Whether two values are the same key. Numbers compare by what they count as, whatever their kind;
what is no number is the same only as itself. -/
def same : Value → Value → Bool
  | .null, .null => true
  | .int m, .int n => m == n
  | .text a, .text b => a == b
  | .bytes a, .bytes b => a == b
  | .date a, .date b => a == b
  | .time a, .time b =>
    match a.offset, b.offset with
    | some o, some p =>
      (Instant.ofDateTime a.date a.time).microseconds - o.seconds * 1000000 =
        (Instant.ofDateTime b.date b.time).microseconds - p.seconds * 1000000
    | none, none => a == b
    | _, _ => false
  | .list as, .list bs => sameAll as bs
  | .pair a b, .pair c d => same a c && same b d
  | .set as, .set bs => sameAll as bs
  | .map as, .map bs => sameEntries as bs
  | .nan m, .nan n => m == n
  | .nan _, _ => false
  | _, .nan _ => false
  | a, b =>
    match a.number?, b.number? with
    | some x, some y =>
      match a.int?, b.int? with
      | some m, some n => m == n
      | none, none => x == y
      | _, _ => false
    | _, _ => false
where
  sameAll : List Value → List Value → Bool
    | [], [] => true
    | a :: as, b :: bs => same a b && sameAll as bs
    | _, _ => false
  sameEntries : List (Value × Value) → List (Value × Value) → Bool
    | [], [] => true
    | (a, b) :: as, (c, d) :: bs => same a c && same b d && sameEntries as bs
    | _, _ => false

/-- Sets the value of a key. A key that is there already keeps its place and its form. -/
def put {α : Type} (key : Value) (value : α) : List (Value × α) → List (Value × α)
  | [] => [(key, value)]
  | (k, v) :: entries =>
    if same k key then (k, value) :: entries else (k, v) :: put key value entries

mutual

/-- A value with another one in the places that name a mark. Inside of a collection that has the
mark itself they stand for that collection. -/
def substitute (mark : Mark) (whole : Value) : Value → Value
  | .again m => if m = mark then whole else .again m
  | .cycle m body => if m = mark then .cycle m body else .cycle m (substitute mark whole body)
  | .list items => .list (substituteAll mark whole items)
  | .pair a b => .pair (substitute mark whole a) (substitute mark whole b)
  | .map entries => .map (substituteEntries mark whole entries)
  | v => v

def substituteAll (mark : Mark) (whole : Value) : List Value → List Value
  | [] => []
  | v :: vs => substitute mark whole v :: substituteAll mark whole vs

def substituteEntries (mark : Mark) (whole : Value) :
    List (Value × Value) → List (Value × Value)
  | [] => []
  | (k, v) :: entries => (k, substitute mark whole v) :: substituteEntries mark whole entries

end

/-- The value without a mark of its own: its parts that stand for it are the value itself. -/
def unfold : Value → Value
  | .cycle mark body => substitute mark (.cycle mark body) body
  | v => v

def entries? (v : Value) : Option (List (Value × Value)) :=
  match v.unfold with
  | .map entries => some entries
  | _ => none

/-- The items of a list. -/
def items? (v : Value) : Option (List Value) :=
  match v.unfold with
  | .list items => some items
  | _ => none

/-- The items of a value that has items in order. -/
def ordered? (v : Value) : Option (List Value) :=
  match v.unfold with
  | .list items => some items
  | .pair a b => some [a, b]
  | .bytes bs => some (bs.map fun b => .int b.toNat)
  | _ => none

def look (key : String) : List (Value × Value) → Option Value
  | [] => none
  | (.text k, v) :: entries => if k = key then some v else look key entries
  | _ :: entries => look key entries

/-- The value of a key of a mapping. -/
def field? (key : String) (v : Value) : Option Value := v.entries?.bind (look key)

def text? : Value → Option String
  | .text s => some s
  | _ => none

def isNull : Value → Bool
  | .null => true
  | _ => false

def boolText (b : Bool) : String := if b then "True" else "False"

/-- How a collection is shown inside of itself. -/
def inside : Value → String
  | .list _ => "[...]"
  | .pair .. => "(...)"
  | .set _ => "set(...)"
  | .map _ => "\x7b...\x7d"
  | _ => "..."

mutual

/-- How a value is shown inside the collections with some marks. -/
def shownIn (around : List (Mark × String)) : Value → Except Numeral.Fault String
  | .null => .ok "None"
  | .bool b => .ok (boolText b)
  | .int n => Numeral.write n
  | .real x => .ok x.text
  | .nan _ => .ok Binary64.nan.text
  | .text s => .ok (Text.quoted s)
  | .bytes bs => .ok (Text.quotedBytes bs)
  | .date d => .ok d.shown
  | .time t => .ok t.shown
  | .list items => do return "[" ++ ", ".intercalate (← shownAll around items) ++ "]"
  | .pair a b => do return "(" ++ (← shownIn around a) ++ ", " ++ (← shownIn around b) ++ ")"
  | .set [] => .ok "set()"
  | .set items => do return "\x7b" ++ ", ".intercalate (← shownAll around items) ++ "\x7d"
  | .map entries => do
    return "\x7b" ++ ", ".intercalate (← shownEntries around entries) ++ "\x7d"
  | .again mark => .ok ((around.lookup mark).getD "...")
  | .cycle mark body =>
    match around.lookup mark with
    | some t => .ok t
    | none => shownIn ((mark, inside body) :: around) body

def shownAll (around : List (Mark × String)) :
    List Value → Except Numeral.Fault (List String)
  | [] => .ok []
  | v :: vs => do return (← shownIn around v) :: (← shownAll around vs)

def shownEntries (around : List (Mark × String)) :
    List (Value × Value) → Except Numeral.Fault (List String)
  | [] => .ok []
  | (k, v) :: entries => do
    return ((← shownIn around k) ++ ": " ++ (← shownIn around v)) ::
      (← shownEntries around entries)

end

/-- How a value is shown inside another one or in a message. -/
def shown (v : Value) : Except Numeral.Fault String := shownIn [] v

/-- The text of a value on its own: a text is not quoted, a time reads as one. -/
def plainText : Value → Except Numeral.Fault String
  | .text s => .ok s
  | .date d => .ok d.iso
  | .time t => .ok t.spaced
  | v => shown v

mutual

/-- Whether some part of a value stands for a collection around it. -/
def isEndless : Value → Bool
  | .again _ => true
  | .cycle _ _ => true
  | .list items => anyEndless items
  | .pair a b => isEndless a || isEndless b
  | .map entries => anyEndlessEntry entries
  | _ => false

def anyEndless : List Value → Bool
  | [] => false
  | v :: vs => isEndless v || anyEndless vs

def anyEndlessEntry : List (Value × Value) → Bool
  | [] => false
  | (_, v) :: entries => isEndless v || anyEndlessEntry entries

end

mutual

/-- Data as a value. -/
def ofJson : Json → Value
  | .null => .null
  | .bool b => .bool b
  | .int n => .int n
  | .real x => .real x
  | .string s => .text s
  | .array xs => .list (ofItems xs)
  | .object fields => .map (ofFields fields)

def ofItems : List Json → List Value
  | [] => []
  | x :: xs => ofJson x :: ofItems xs

def ofFields : List (String × Json) → List (Value × Value)
  | [] => []
  | (k, x) :: fields => (.text k, ofJson x) :: ofFields fields

end

end Value

end VolumeExport.Markup
