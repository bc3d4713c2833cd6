import VolumeExport.Markup.Cursor

namespace VolumeExport.Markup

/-- What a node stands for. A plain scalar without a tag has the one that its text suggests. -/
inductive Tag
  | null
  | bool
  | int
  | real
  | binary
  | time
  | orderedMap
  | pairs
  | set
  | text
  | list
  | map
  /-- A key whose value is merged into the mapping around it. -/
  | merge
  /-- A key whose value stands for the mapping around it. -/
  | value
  | unknown
  deriving DecidableEq, Repr

namespace Tag

/-- The common beginning of the tags that have a meaning. -/
def stem : List Char := "tag:yaml.org,2002:".toList

def named : List (String × Tag) :=
  [("null", .null), ("bool", .bool), ("int", .int), ("float", .real), ("binary", .binary),
   ("timestamp", .time), ("omap", .orderedMap), ("pairs", .pairs), ("set", .set), ("str", .text),
   ("seq", .list), ("map", .map), ("merge", .merge), ("value", .value)]

def ofUri (uri : List Char) : Tag :=
  if stem.isPrefixOf uri then
    (named.lookup (String.ofList (uri.drop stem.length))).getD .unknown
  else .unknown

/-- What follows a sign, if there is one. -/
def unsigned : List Char → List Char
  | '-' :: cs => cs
  | '+' :: cs => cs
  | cs => cs

def isDigitMark (c : Char) : Bool := c.isDigit || c = '_'

/-- Parts of a number in base sixty: a colon and one digit, or two below sixty. -/
def sixties : List Char → List Char
  | ':' :: a :: b :: cs =>
    if a.isDigit && a < '6' && b.isDigit then sixties cs
    else if a.isDigit then sixties (b :: cs)
    else ':' :: a :: b :: cs
  | [':', a] => if a.isDigit then [] else [':', a]
  | cs => cs

def startsSixty (cs : List Char) : Bool :=
  match cs with
  | ':' :: a :: _ => a.isDigit
  | _ => false

def isNonempty (p : Char → Bool) (cs : List Char) : Bool := !cs.isEmpty && cs.all p

def isInt (cs : List Char) : Bool :=
  match unsigned cs with
  | ['0'] => true
  | '0' :: 'b' :: ds => isNonempty (fun c => c = '0' || c = '1' || c = '_') ds
  | '0' :: 'x' :: ds => isNonempty (fun c => isHexDigit c || c = '_') ds
  | '0' :: ds => ds.all fun c => ('0' ≤ c && c ≤ '7') || c = '_'
  | c :: ds =>
    c.isDigit &&
      let rest := ds.dropWhile isDigitMark
      rest.isEmpty || (startsSixty rest && (sixties rest).isEmpty)
  | [] => false

/-- Nothing, or a power of ten with its sign. -/
def isExponent : List Char → Bool
  | [] => true
  | e :: s :: ds => (e = 'e' || e = 'E') && (s = '+' || s = '-') && isNonempty Char.isDigit ds
  | _ => false

def isReal (cs : List Char) : Bool :=
  let ds := unsigned cs
  if ds ∈ [".inf".toList, ".Inf".toList, ".INF".toList] then true
  else if cs ∈ [".nan".toList, ".NaN".toList, ".NAN".toList] then true
  else
    match cs with
    | '.' :: d :: rest => d.isDigit && isExponent (rest.dropWhile isDigitMark)
    | _ =>
      match ds with
      | d :: rest =>
        d.isDigit &&
          let rest := rest.dropWhile isDigitMark
          match sixties rest with
          | '.' :: fraction =>
            let power := fraction.dropWhile isDigitMark
            if startsSixty rest then power.isEmpty else isExponent power
          | _ => false
      | [] => false

/-- The digits of a time as they are written; a time of day and an offset may be missing. -/
structure Stamp where
  year : List Char
  month : List Char
  day : List Char
  clock : Option (List Char × List Char × List Char × List Char)
  /-- The sign, hours and minutes of the offset; `Z` stands for none. -/
  offset : Option (Option (Char × List Char × List Char))
  deriving DecidableEq, Repr

/-- One or two digits. -/
def upToTwo (cs : List Char) : Option (List Char × List Char) :=
  match cs with
  | a :: b :: rest =>
    if a.isDigit then if b.isDigit then some ([a, b], rest) else some ([a], b :: rest) else none
  | [a] => if a.isDigit then some ([a], []) else none
  | [] => none

def exactlyTwo (cs : List Char) : Option (List Char × List Char) :=
  match cs with
  | a :: b :: rest => if a.isDigit && b.isDigit then some ([a, b], rest) else none
  | _ => none

def behind (mark : Char) (cs : List Char) : Option (List Char) :=
  match cs with
  | c :: rest => if c = mark then some rest else none
  | [] => none

def isBlankMark (c : Char) : Bool := c = ' ' || c = '\t'

def offset? (cs : List Char) : Option (Option (Option (Char × List Char × List Char))) :=
  if cs = [] then some none
  else
    match cs.dropWhile isBlankMark with
    | ['Z'] => some (some none)
    | s :: rest => do
      if s ≠ '+' ∧ s ≠ '-' then none
      else
        let (hours, rest) ← upToTwo rest
        if rest = [] then some (some (some (s, hours, [])))
        else
          let (minutes, rest) ← exactlyTwo (← behind ':' rest)
          if rest = [] then some (some (some (s, hours, minutes))) else none
    | [] => none

def stamp? (cs : List Char) : Option Stamp := do
  let year := cs.take 4
  if year.length ≠ 4 ∨ !year.all Char.isDigit then none
  else
    let (month, rest) ← upToTwo (← behind '-' (cs.drop 4))
    let (day, rest) ← upToTwo (← behind '-' rest)
    if rest = [] then some ⟨year, month, day, none, none⟩
    else
      let time ←
        match rest with
        | c :: cs =>
          if c = 'T' ∨ c = 't' then some cs
          else if isBlankMark c then some (cs.dropWhile isBlankMark)
          else none
        | [] => none
      let (hour, rest) ← upToTwo time
      let (minute, rest) ← exactlyTwo (← behind ':' rest)
      let (second, rest) ← exactlyTwo (← behind ':' rest)
      let (fraction, rest) := match rest with
        | '.' :: cs => (cs.takeWhile Char.isDigit, cs.dropWhile Char.isDigit)
        | cs => ([], cs)
      let offset ← offset? rest
      some ⟨year, month, day, some (hour, minute, second, fraction), offset⟩

/-- A text suggests a time if a date alone is written with all its digits. -/
def isTime (cs : List Char) : Bool :=
  match stamp? cs with
  | some s => s.clock.isSome || (s.month.length = 2 && s.day.length = 2)
  | none => false

def truthWords : List (String × Bool) :=
  [("yes", true), ("no", false), ("true", true), ("false", false), ("on", true), ("off", false)]

/-- A word in lower case, in upper case, or with a capital. -/
def isWritten (word : String) (cs : List Char) : Bool :=
  let w := word.toList
  cs = w || cs = w.map Char.toUpper || cs = (w.take 1).map Char.toUpper ++ w.drop 1

/-- A line feed at the end of a text does not count here. -/
def withoutLineFeed (cs : List Char) : List Char :=
  if cs.getLast? = some '\n' then cs.dropLast else cs

/-- The tag that a plain text suggests. -/
def ofPlain (text : List Char) : Tag :=
  let cs := withoutLineFeed text
  if truthWords.any fun w => isWritten w.1 cs then .bool
  else if isReal cs then .real
  else if isInt cs then .int
  else if cs = ['<', '<'] then .merge
  else if text = [] || cs = ['~'] || isWritten "null" cs then .null
  else if isTime cs then .time
  else if cs = ['='] then .value
  else if cs = ['!'] || cs = ['&'] || cs = ['*'] then .unknown
  else .text

end Tag

end VolumeExport.Markup
