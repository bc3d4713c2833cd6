import VolumeExport.Markup.Merge
import VolumeExport.Markup.Scalar
import VolumeExport.Markup.SetOrder
import VolumeExport.Markup.Source

namespace VolumeExport.Markup

/-- What a node stands for. The parts of a collection are given by their numbers; keys are
scalars. -/
inductive Cell
  | scalar (value : Value)
  /-- A collection whose parts have not been looked at. -/
  | blank
  | list (items : List Nat)
  | pairs (items : List (Nat × Nat))
  | set (items : List Value)
  | map (entries : List (Value × Nat))

/-- How far a document has been read: what its nodes stand for, and the collections whose parts are
still to be looked at. -/
structure Reading where
  graph : Graph
  /-- The number of merge entries that the document had. -/
  merges : Nat
  cells : Array (Option Cell)
  waiting : List Nat
  /-- The collections behind those that wait, the last one first. -/
  later : List Nat

namespace Reading

abbrev Step := StateT Reading (Except Fault)

/-- Tags whose values are collections. -/
def isCollectionTag (tag : Tag) : Bool :=
  tag ∈ [.list, .map, .set, .orderedMap, .pairs]

/-- The text that a node stands for where a scalar is asked: of a mapping that of the value behind
its mark of a value. -/
def scalarText (g : Graph) : Nat → Nat → Except Fault (List Char)
  | 0, _ => .error .endless
  | fuel + 1, n =>
    match (g.node n).content with
    | .scalar text => .ok text
    | .sequence _ => .error .malformed
    | .mapping entries =>
      match entries.find? fun e => g.tag e.1 = .value with
      | some e => scalarText g fuel e.2
      | none => .error .malformed

/-- The value of a node with a tag for scalars. A time has to be a scalar itself. -/
def scalarValue (g : Graph) (n : Nat) : Except Fault Value := do
  let tag := g.tag n
  if tag ∈ [.merge, .value, .unknown] then throw .malformed
  let text ← scalarText g (g.nodes.size + 1) n
  match (g.node n).content with
  | .scalar _ => Scalar.value n tag text
  | _ => if tag = .time then throw .timeOfCollection else Scalar.value n tag text

def setCell (n : Nat) (cell : Cell) : Step Unit :=
  modify fun r => { r with cells := r.cells.setIfInBounds n (some cell) }

/-- What a node stands for, as far as it is known when the node is met. -/
def meet (n : Nat) : Step Cell := do
  let r ← get
  match r.cells.getD n none with
  | some cell => return cell
  | none =>
    if isCollectionTag (r.graph.tag n) then
      setCell n .blank
      modify fun r => { r with later := n :: r.later }
      return .blank
    else
      let value ← scalarValue r.graph n
      setCell n (.scalar value)
      return .scalar value

/-- A key of a mapping, which has to be a scalar. -/
def key (n : Nat) : Step Value := do
  match ← meet n with
  | .scalar value => return value
  | _ => throw .malformed

/-- The entries of a mapping, each key once. -/
def entries (n : Nat) : Step (List (Value × Nat)) := do
  let r ← get
  if (r.graph.entries? n).isNone then throw .malformed
  let graph ← r.graph.merged r.merges n
  set { r with graph }
  ((graph.entries? n).getD []).foldlM (fun es e => do
    let k ← key e.1
    discard <| meet e.2
    return Value.put k e.2 es) []

def items (n : Nat) : Step (List Nat) := do
  match (← get).graph.items? n with
  | some ns => return ns
  | none => throw .malformed

/-- The only entry of a mapping. -/
def single (n : Nat) : Step (Nat × Nat) := do
  match (← get).graph.entries? n with
  | some [(k, v)] =>
    discard <| meet k
    discard <| meet v
    return (k, v)
  | _ => throw .malformed

/-- Looks at the parts of a collection. -/
def fill (n : Nat) : Step Unit := do
  match (← get).graph.tag n with
  | .map => setCell n (.map (← entries n))
  | .set => setCell n (.set (SetOrder.arrange ((← entries n).map (·.1))))
  | .list =>
    let ns ← items n
    ns.forM fun m => discard <| meet m
    setCell n (.list ns)
  | _ => setCell n (.pairs (← (← items n).mapM single))

/-- The collection that has waited longest. -/
def next : Step (Option Nat) := do
  let r ← get
  match r.waiting with
  | n :: waiting =>
    set { r with waiting }
    return some n
  | [] =>
    match r.later.reverse with
    | n :: waiting =>
      set { r with waiting, later := [] }
      return some n
    | [] => return none

/-- Each node waits once at most, so the number of nodes is fuel enough. -/
def fillAll : Nat → Step Unit
  | 0 => return
  | fuel + 1 => do
    match ← next with
    | some n =>
      fill n
      fillAll fuel
    | none => return

/-- What all nodes stand for that the root leads to. The parts of a collection are looked at when
all collections that came before it have theirs, so of two faults the one nearer to the root counts,
and of two on one level the first. -/
def cellsOf (g : Graph) : Except Fault (Array (Option Cell)) := do
  let steps : Step Unit := do
    discard <| meet g.root
    fillAll (g.nodes.size + 1)
  let (_, r) ← steps.run ⟨g, g.mergeCount, .replicate g.nodes.size none, [], []⟩
  return r.cells

end Reading

/-- A value, and the marks that it names of collections around it. -/
structure Part where
  value : Value
  named : List Mark

namespace Part

/-- Values of nodes that name no marks, by the numbers of the nodes. -/
abbrev Known := StateM (Array (Option Value))

def all (f : List Value → Value) (parts : List Part) : Part :=
  ⟨f (parts.map (·.value)), (parts.map (·.named)).flatten⟩

/-- A collection. If it names marks, it can be reached from itself and has to have its own. -/
def collection (mark : Mark) (body : Part) : Part :=
  if body.named = [] then body else ⟨.cycle mark body.value, body.named.filter (· ≠ mark)⟩

/-- The part of a node inside the collections with some marks; its depth bounds `fuel`. -/
def ofNode (cells : Array (Option Cell)) : Nat → List Mark → Nat → Known Part
  | 0, _, _ => return ⟨.null, []⟩
  | fuel + 1, around, n => do
    let mark : Mark := ⟨n, 0⟩
    if around.contains mark then return ⟨.again mark, [mark]⟩
    else
      match (← get).getD n none with
      | some value => return ⟨value, []⟩
      | none =>
        let part := ofNode cells fuel (mark :: around)
        let body ← match cells.getD n none with
          | some (.scalar value) => pure ⟨value, []⟩
          | some (.list items) => do pure (all .list (← items.mapM part))
          | some (.pairs items) => do
            let pairs ← items.mapIdxM fun i (k, v) => do
              let mark : Mark := ⟨n, i + 1⟩
              let key ← part k
              let value ← part v
              pure (collection mark ⟨.pair key.value value.value, key.named ++ value.named⟩)
            pure (all .list pairs)
          | some (.set items) => pure ⟨.set items, []⟩
          | some (.map entries) => do
            let parts ← entries.mapM fun (_, v) => part v
            pure (all (fun vs => .map ((entries.map (·.1)).zip vs)) parts)
          | _ => pure ⟨.null, []⟩
        let whole := collection mark body
        if whole.named = [] then modify fun known => known.setIfInBounds n (some whole.value)
        return whole

end Part

namespace Value

/-- The value of a document. -/
def ofGraph (g : Graph) : Except Fault Value := do
  let cells ← Reading.cellsOf g
  let (part, _) := (Part.ofNode cells (cells.size + 1) [] g.root).run (.replicate cells.size none)
  return part.value

/-- The value of a document; an empty one holds nothing. -/
def ofChars (cs : List Char) : Except Fault Value := do
  match ← Graph.ofTokens (Token.ofChars cs) with
  | some g => ofGraph g
  | none => return .null

def read (text : String) : Except Fault Value := do ofChars (← Source.ofText text)

def readBytes (bytes : List UInt8) : Except Fault Value := do ofChars (← Source.ofBytes bytes)

end Value

end VolumeExport.Markup
