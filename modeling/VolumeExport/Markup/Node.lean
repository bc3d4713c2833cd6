import VolumeExport.Markup.Stream
import VolumeExport.Markup.Tag

namespace VolumeExport.Markup

/-- What a node holds; parts are given by their numbers. -/
inductive Content
  | scalar (text : List Char)
  | sequence (items : List Nat)
  | mapping (entries : List (Nat × Nat))
  deriving DecidableEq, Repr

structure Node where
  tag : Tag
  content : Content
  deriving DecidableEq, Repr

/-- A node without text. -/
def Node.empty : Node := ⟨.null, .scalar []⟩

instance : Inhabited Node := ⟨.empty⟩

/-- The nodes of a document by their numbers. -/
structure Graph where
  nodes : Array Node
  root : Nat
  deriving Repr

namespace Node

/-- The tokens that are left, the handles of tags, the nodes and their anchors so far, and how many
collections are open. -/
structure State where
  tokens : List Token
  handles : List (List Char × List Char)
  nodes : Array Node
  anchors : List (List Char × Nat)
  depth : Nat

abbrev Parse := StateT State (Except Fault)

/-- Collections lie at most this deep inside each other. -/
def maxDepth : Nat := 485

def defaultHandles : List (List Char × List Char) :=
  [(['!'], ['!']), (['!', '!'], Tag.stem)]

/-- The next token. Where nothing can be read, no token can be looked at. -/
def peek : Parse Token := do
  match (← get).tokens with
  | .broken cause :: _ => throw cause
  | t :: _ => return t
  | [] => throw .malformed

def drop : Parse Unit := modify fun s => { s with tokens := s.tokens.drop 1 }

/-- Takes the next token if it is `t`. -/
def take? (t : Token) : Parse Bool := do
  if (← peek) = t then
    drop
    return true
  else return false

def expect (t : Token) : Parse Unit := do
  if !(← take? t) then throw .malformed

/-- Whether the next token is among some. -/
def nextIn (ts : List Token) : Parse Bool := do return ts.contains (← peek)

/-- The tag of a node as it is written, handles resolved. -/
def resolved (handle : Option (List Char)) (suffix : List Char) : Parse (List Char) := do
  match handle with
  | none => return suffix
  | some h =>
    match (← get).handles.lookup h with
    | some stem => return stem ++ suffix
    | none => throw .malformed

def anchor? : Parse (Option (List Char)) := do
  match ← peek with
  | .anchor name =>
    drop
    return some name
  | _ => return none

def tag? : Parse (Option (Option (List Char) × List Char)) := do
  match ← peek with
  | .tag handle suffix =>
    drop
    return some (handle, suffix)
  | _ => return none

/-- An anchor and a tag in front of a node, in any order. -/
def properties : Parse (Option (List Char) × Option (List Char)) := do
  let early ← anchor?
  let tag ← tag?
  let late ← if early.isNone && tag.isSome then anchor? else pure none
  let uri ← match tag with
    | some (handle, suffix) => some <$> resolved handle suffix
    | none => pure none
  return (early.or late, uri)

/-- A new node. Each anchor stands in front of one node only. -/
def add (anchor : Option (List Char)) (n : Node) : Parse Nat := do
  let s ← get
  if anchor.any fun name => (s.anchors.lookup name).isSome then throw .malformed
  let number := s.nodes.size
  set { s with
    nodes := s.nodes.push n
    anchors := (anchor.map (·, number)).toList ++ s.anchors }
  return number

/-- A new collection. Its parts are read when it has its number. -/
def collection (anchor : Option (List Char)) (tag : Tag) (parts : Parse Content) : Parse Nat := do
  let number ← add anchor ⟨tag, .sequence []⟩
  if maxDepth ≤ (← get).depth then throw .endless
  modify fun s => { s with depth := s.depth + 1 }
  let content ← parts
  modify fun s =>
    { s with nodes := s.nodes.setIfInBounds number ⟨tag, content⟩, depth := s.depth - 1 }
  return number

def aliased (name : List Char) : Parse Nat := do
  match (← get).anchors.lookup name with
  | some number => return number
  | none => throw .malformed

/-- The tag of a scalar; the tag `!` asks for none. -/
def scalarTag (uri : Option (List Char)) (text : List Char) (plain : Bool) : Tag :=
  match uri with
  | none => if plain then Tag.ofPlain text else .text
  | some u => if u = ['!'] then Tag.ofPlain text else Tag.ofUri u

def collectionTag (uri : Option (List Char)) (default : Tag) : Tag :=
  match uri with
  | none => default
  | some u => if u = ['!'] then default else Tag.ofUri u

/-- Where a node stands: in a flow collection, in a block, or behind a key of a block mapping,
where the entries of a sequence need no indentation. -/
inductive Place
  | flow
  | block
  | mappingBlock
  deriving DecidableEq

mutual

/-- The number of the next node. -/
def node (place : Place) : Nat → Parse Nat
  | 0 => throw .malformed
  | fuel + 1 => do
    match ← peek with
    | .alias name =>
      drop
      aliased name
    | _ =>
      let (anchor, uri) ← properties
      let sequence (items : Parse (List Nat)) : Parse Nat :=
        collection anchor (collectionTag uri .list) (Content.sequence <$> items)
      let mapping (entries : Parse (List (Nat × Nat))) : Parse Nat :=
        collection anchor (collectionTag uri .map) (Content.mapping <$> entries)
      match ← peek with
      | .scalar text plain =>
        drop
        add anchor ⟨scalarTag uri text plain, .scalar text⟩
      | .flowSequence =>
        drop
        sequence (flowItems fuel true)
      | .flowMapping =>
        drop
        mapping (flowEntries fuel true)
      | t =>
        if t = .blockEntry ∧ place = .mappingBlock then sequence (looseItems fuel)
        else if t = .blockSequence ∧ place ≠ .flow then do
          drop
          sequence (blockItems fuel)
        else if t = .blockMapping ∧ place ≠ .flow then do
          drop
          mapping (blockEntries fuel)
        else if anchor.isSome ∨ uri.isSome then add anchor ⟨scalarTag uri [] true, .scalar []⟩
        else throw .malformed

/-- A node, or an empty one in front of some tokens. -/
def optional (place : Place) (ends : List Token) : Nat → Parse Nat
  | 0 => throw .malformed
  | fuel + 1 => do if ← nextIn ends then add none .empty else node place fuel

/-- The items of a block sequence. -/
def blockItems : Nat → Parse (List Nat)
  | 0 => throw .malformed
  | fuel + 1 => do
    if ← take? .blockEntry then
      let item ← optional .block [.blockEntry, .blockEnd] fuel
      return item :: (← blockItems fuel)
    else
      expect .blockEnd
      return []

/-- The items of a block sequence that is not indented. -/
def looseItems : Nat → Parse (List Nat)
  | 0 => throw .malformed
  | fuel + 1 => do
    if ← take? .blockEntry then
      let item ← optional .block [.blockEntry, .key, .value, .blockEnd] fuel
      return item :: (← looseItems fuel)
    else return []

def blockEntries : Nat → Parse (List (Nat × Nat))
  | 0 => throw .malformed
  | fuel + 1 => do
    if ← take? .key then
      let key ← optional .mappingBlock [.key, .value, .blockEnd] fuel
      let value ←
        if ← take? .value then optional .mappingBlock [.key, .value, .blockEnd] fuel
        else add none .empty
      return (key, value) :: (← blockEntries fuel)
    else
      expect .blockEnd
      return []

/-- The items of a flow sequence; a key among them makes a mapping of one entry. -/
def flowItems : Nat → Bool → Parse (List Nat)
  | 0, _ => throw .malformed
  | fuel + 1, first => do
    if ← take? .flowSequenceEnd then return []
    else
      if !first then expect .flowEntry
      if ← take? .key then
        let key ← optional .flow [.value, .flowEntry, .flowSequenceEnd] fuel
        let value ←
          if ← take? .value then optional .flow [.flowEntry, .flowSequenceEnd] fuel
          else add none .empty
        let single ← add none ⟨.map, .mapping [(key, value)]⟩
        return single :: (← flowItems fuel false)
      else if ← take? .flowSequenceEnd then return []
      else
        let item ← node .flow fuel
        return item :: (← flowItems fuel false)

/-- The entries of a flow mapping; a node alone is a key without a value. -/
def flowEntries : Nat → Bool → Parse (List (Nat × Nat))
  | 0, _ => throw .malformed
  | fuel + 1, first => do
    if ← take? .flowMappingEnd then return []
    else
      if !first then expect .flowEntry
      if ← take? .key then
        let key ← optional .flow [.value, .flowEntry, .flowMappingEnd] fuel
        let value ←
          if ← take? .value then optional .flow [.flowEntry, .flowMappingEnd] fuel
          else add none .empty
        return (key, value) :: (← flowEntries fuel false)
      else if ← take? .flowMappingEnd then return []
      else
        let key ← node .flow fuel
        let value ← add none .empty
        return (key, value) :: (← flowEntries fuel false)

end

/-- The directives in front of a document: one version at most, which has to be of the first
kind, and each handle once. -/
def directives : Nat → Bool → List (List Char × List Char) → Parse Unit
  | 0, _, _ => throw .malformed
  | fuel + 1, versioned, handles => do
    match ← peek with
    | .directive d =>
      drop
      match d with
      | .version major =>
        if versioned ∨ major ≠ 1 then throw .malformed
        directives fuel true handles
      | .tagHandle handle stem =>
        if (handles.lookup handle).isSome then throw .malformed
        directives fuel versioned ((handle, stem) :: handles)
      | .other => directives fuel versioned handles
    | _ => modify fun s => { s with handles := handles ++ defaultHandles }

def skipDocumentEnds : Nat → Parse Unit
  | 0 => throw .malformed
  | fuel + 1 => do if ← take? .documentEnd then skipDocumentEnds fuel

/-- Passes ends of documents, directives and the mark of a start behind them. False where the stream
ends in place of a start. -/
def start? (fuel : Nat) : Parse Bool := do
  skipDocumentEnds fuel
  if (← peek) = .streamEnd then return false
  else
    directives fuel false []
    expect .documentStart
    return true

/-- The document behind its start, unless the stream ends. -/
def explicitDocument (fuel : Nat) : Parse (Option Nat) := do
  if ← start? fuel then
    match ← peek with
    | .directive _ => some <$> add none .empty
    | t =>
      if t ∈ [.documentStart, .documentEnd, .streamEnd] then some <$> add none .empty
      else some <$> node .block fuel
  else return none

/-- The first document; a text without directives and marks is one. -/
def firstDocument (fuel : Nat) : Parse (Option Nat) := do
  match ← peek with
  | .directive _ => explicitDocument fuel
  | .documentStart => explicitDocument fuel
  | .streamEnd => return none
  | _ =>
    modify fun s => { s with handles := defaultHandles }
    some <$> node .block fuel

/-- The only document of a stream. Another one is refused behind its start, so what cannot be read
up to there comes first, and what is behind it is not looked at. -/
def document (fuel : Nat) : Parse (Option Nat) := do
  match ← firstDocument fuel with
  | none => return none
  | some root => if ← start? fuel then throw .malformed else return some root

end Node

/-- The nodes of a document, if it is not empty. -/
def Graph.ofTokens (tokens : List Token) : Except Fault (Option Graph) := do
  let (root, s) ← (Node.document (3 * tokens.length + 3)).run ⟨tokens, [], #[], [], 0⟩
  return root.map fun n => ⟨s.nodes, n⟩

end VolumeExport.Markup
