import VolumeExport.Dict

namespace VolumeExport.Selector

inductive Term
  | oneOf (key : List Char) (values : List (List Char))
  | equals (key value : List Char)
  | present (key : List Char)
  deriving DecidableEq, Repr

/-- A comma inside parentheses has a closing one behind it before any opens. -/
def isInside (rest : List Char) : Bool := (rest.takeWhile (· ≠ '(')).contains ')'

/-- The text cut at the commas outside parentheses. -/
def cut : List Char → List (List Char)
  | [] => [[]]
  | c :: cs =>
    if c = ',' && !isInside cs then [] :: cut cs
    else
      match cut cs with
      | t :: ts => (c :: t) :: ts
      | [] => [[c]]

/-- The text cut at every comma. -/
def items : List Char → List (List Char)
  | [] => [[]]
  | c :: cs =>
    if c = ',' then [] :: items cs
    else
      match items cs with
      | t :: ts => (c :: t) :: ts
      | [] => [[c]]

/-- What stands between a key and the values of `key in (a,b)`. -/
def inMark : List Char := [' ', 'i', 'n', ' ', '(']

/-- The text in front of the first occurrence of a mark, and the text behind it. -/
def splitAt? (mark : List Char) : List Char → Option (List Char × List Char)
  | [] => none
  | c :: cs =>
    if mark.isPrefixOf (c :: cs) then some ([], (c :: cs).drop mark.length)
    else (splitAt? mark cs).map fun p => (c :: p.1, p.2)

/-- The key and the values of `key in (a,b)`. -/
def oneOf? (text : List Char) : Option Term := do
  let (key, rest) ← splitAt? inMark text
  if rest.getLast? = some ')' then some (.oneOf key (items rest.dropLast)) else none

def term (text : List Char) : Term :=
  match oneOf? text with
  | some t => t
  | none =>
    match splitAt? ['='] text with
    | some (key, value) => .equals key value
    | none => .present text

def termsOfChars (cs : List Char) : List Term := ((cut cs).filter (· ≠ [])).map term

/-- The terms of a selector; empty ones ask for nothing. -/
def terms (selector : String) : List Term := termsOfChars selector.toList

/-- Whether labels have what a term asks for; a label may be there without a value. -/
def Term.holds (t : Term) (labels : Dict (Option String)) : Bool :=
  match t with
  | .oneOf key values =>
    ((labels.get? (String.ofList key)).getD none).any fun v => values.contains v.toList
  | .equals key value =>
    (labels.get? (String.ofList key)).getD none = some (String.ofList value)
  | .present key => labels.contains (String.ofList key)

/-- Whether labels have all that a selector asks for. -/
def selects (selector : String) (labels : Dict (Option String)) : Bool :=
  (terms selector).all (·.holds labels)

end VolumeExport.Selector
