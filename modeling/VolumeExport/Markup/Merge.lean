import VolumeExport.Markup.Node

namespace VolumeExport.Markup.Graph

def node (g : Graph) (n : Nat) : Node := g.nodes.getD n .empty

def tag (g : Graph) (n : Nat) : Tag := (g.node n).tag

/-- The entries of a mapping. -/
def entries? (g : Graph) (n : Nat) : Option (List (Nat × Nat)) :=
  match (g.node n).content with
  | .mapping entries => some entries
  | _ => none

def items? (g : Graph) (n : Nat) : Option (List Nat) :=
  match (g.node n).content with
  | .sequence items => some items
  | _ => none

def set (g : Graph) (n : Nat) (node : Node) : Graph :=
  { g with nodes := g.nodes.setIfInBounds n node }

def setEntries (g : Graph) (n : Nat) (entries : List (Nat × Nat)) : Graph :=
  g.set n ⟨g.tag n, .mapping entries⟩

/-- The value of the first merge entry, and the other entries. -/
def takeMerge? (g : Graph) : List (Nat × Nat) → Option (Nat × List (Nat × Nat))
  | [] => none
  | (k, v) :: entries =>
    if g.tag k = .merge then some (v, entries)
    else (takeMerge? g entries).map fun p => (p.1, (k, v) :: p.2)

/-- A key that marks a value is an ordinary text once its mapping has been merged. -/
def plainKeys (g : Graph) (entries : List (Nat × Nat)) : Graph :=
  entries.foldl (fun g e =>
    if g.tag e.1 = .value then g.set e.1 ⟨.text, (g.node e.1).content⟩ else g) g

/-- What a merge entry brings, given how a mapping is merged; of several mappings the last one
comes first. -/
def broughtBy (merge : Nat → Graph → Except Fault Graph) (g : Graph) (source : Nat) :
    Except Fault (Graph × List (Nat × Nat)) :=
  match (g.node source).content with
  | .mapping _ => do
    let g ← merge source g
    return (g, (g.entries? source).getD [])
  | .sequence items => do
    let (g, parts) ← items.foldlM (fun (g, parts) item => do
      if (g.entries? item).isNone then throw .malformed
      let g ← merge item g
      return (g, (g.entries? item).getD [] :: parts)) (g, [])
    return (g, parts.flatten)
  | .scalar _ => .error .malformed

/-- A mapping without merge entries. `brought` is what the merge entries before have brought; each
step takes one of the merge entries of the graph away. -/
def mergeFrom : Nat → List (Nat × Nat) → Nat → Graph → Except Fault Graph
  | fuel, brought, n, g =>
    let entries := (g.entries? n).getD []
    match g.takeMerge? entries, fuel with
    | none, _ => .ok ((g.plainKeys entries).setEntries n (brought ++ entries))
    | some _, 0 => .error .endless
    | some (source, rest), fuel + 1 => do
      let (g, more) ← broughtBy (mergeFrom fuel []) (g.setEntries n rest) source
      mergeFrom fuel (brought ++ more) n g

/-- The number of merge entries. -/
def mergeCount (g : Graph) : Nat :=
  g.nodes.foldl (fun count node =>
    match node.content with
    | .mapping entries => count + (entries.filter fun e => g.tag e.1 = .merge).length
    | _ => count) 0

/-- A mapping takes over the entries that are merged into it; what is merged goes in front of its
own entries, so that these win. The graph has had no more than `fuel` merge entries. -/
def merged (g : Graph) (fuel n : Nat) : Except Fault Graph :=
  if ((g.entries? n).getD []).any fun e => g.tag e.1 ∈ [.merge, .value] then mergeFrom fuel [] n g
  else .ok g

end VolumeExport.Markup.Graph
