import VolumeExport.Text.Blank

namespace VolumeExport.Affinity

/-- What a rule asks of a node's label. -/
inductive Operator
  | present
  | oneOf
  deriving DecidableEq, Repr

def Operator.name : Operator → String
  | .present => "Exists"
  | .oneOf => "In"

def Operator.ofName? (name : String) : Option Operator :=
  if name = "Exists" then some .present
  else if name = "In" then some .oneOf
  else none

/-- A rule on the labels of the nodes that may run a server. A text lists rules between commas; a
rule is a key, or a key with a list of values in square brackets, where commas separate values. -/
structure Rule where
  key : String
  operator : Operator
  values : List String
  deriving DecidableEq, Repr

/-- How many brackets are open behind a character; one that closes nothing is ignored. -/
def deeper (depth : Nat) (c : Char) : Nat :=
  if c = '[' then depth + 1 else if c = ']' then depth - 1 else depth

def depthAfter (depth : Nat) (cs : List Char) : Nat := cs.foldl deeper depth

/-- A comma separates two terms if no bracket is open in front of it. -/
def isCut (depth : Nat) (c : Char) : Bool := c = ',' && depth = 0

/-- The text cut at the commas that separate terms. -/
def terms (depth : Nat) : List Char → List (List Char)
  | [] => [[]]
  | c :: cs =>
    if isCut depth c then [] :: terms depth cs
    else
      match terms (deeper depth c) cs with
      | t :: ts => (c :: t) :: ts
      | [] => [[c]]

def items : List Char → List (List Char)
  | [] => [[]]
  | c :: cs =>
    if c = ',' then [] :: items cs
    else
      match items cs with
      | t :: ts => (c :: t) :: ts
      | [] => [[c]]

/-- A text without one bracket at each end. -/
def unbracketed (cs : List Char) : List Char :=
  let inner := match Text.trim cs with
    | '[' :: cs => cs
    | cs => cs
  if inner.getLast? = some ']' then inner.dropLast else inner

/-- The values of a list; blank ones are dropped. -/
def values (cs : List Char) : List (List Char) :=
  ((items (unbracketed cs)).map Text.trim).filter (· ≠ [])

/-- The rule of a term, unless its key is blank. -/
def rule? (term : List Char) : Option Rule :=
  let key := Text.trim (term.takeWhile (· ≠ ':'))
  let vs := values ((term.dropWhile (· ≠ ':')).drop 1)
  if key = [] then none
  else
    some ⟨String.ofList key, if vs = [] then .present else .oneOf, vs.map String.ofList⟩

def parseChars (cs : List Char) : List Rule := (terms 0 cs).filterMap rule?

def parse (text : String) : List Rule := parseChars text.toList

/-- A rule as a term of a label selector. -/
def Rule.term (r : Rule) : String :=
  match r.operator with
  | .oneOf => r.key ++ " in (" ++ ",".intercalate r.values ++ ")"
  | .present => r.key

def selector (rules : List Rule) : String := ",".intercalate (rules.map Rule.term)

end VolumeExport.Affinity
