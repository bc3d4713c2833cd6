import VolumeExport.Markup.Document

namespace VolumeExport.Markup

namespace Node

variable {f depth : Nat} {first : Bool} {text : List Char} {plain : Bool} {ts : List Token}
  {handles : List (List Char × List Char)} {nodes : Array Node} {n v : Nat} {s s' : State}
  {es : List (Nat × Nat)} {is : List Nat} {p : Place}

theorem node_scalar :
    (node p (f + 1)).run ⟨.scalar text plain :: ts, handles, nodes, [], depth⟩ =
      .ok (nodes.size,
        ⟨ts, handles, nodes.push ⟨scalarTag none text plain, .scalar text⟩, [], depth⟩) := rfl

theorem collection_eq {tag : Tag} {parts : Parse Content} {content : Content}
    (hdepth : depth < maxDepth)
    (h : parts.run ⟨ts, handles, nodes.push ⟨tag, .sequence []⟩, [], depth + 1⟩ =
      .ok (content, s)) :
    (collection none tag parts).run ⟨ts, handles, nodes, [], depth⟩ =
      .ok (nodes.size, { s with
        nodes := s.nodes.setIfInBounds nodes.size ⟨tag, content⟩, depth := s.depth - 1 }) := by
  have hopen : (collection none tag parts).run ⟨ts, handles, nodes, [], depth⟩ =
      (fun r => (nodes.size, { r.2 with
        nodes := r.2.nodes.setIfInBounds nodes.size ⟨tag, r.1⟩, depth := r.2.depth - 1 })) <$>
        parts.run ⟨ts, handles, nodes.push ⟨tag, .sequence []⟩, [], depth + 1⟩ := by
    simp [collection, add, if_neg (Nat.not_le.2 hdepth)]
  rw [hopen, h]
  rfl

theorem node_flowMapping (hdepth : depth < maxDepth)
    (h : (flowEntries f true).run ⟨ts, handles, nodes.push ⟨.map, .sequence []⟩, [],
      depth + 1⟩ = .ok (es, s)) :
    (node p (f + 1)).run ⟨.flowMapping :: ts, handles, nodes, [], depth⟩ =
      .ok (nodes.size, { s with
        nodes := s.nodes.setIfInBounds nodes.size ⟨.map, .mapping es⟩, depth := s.depth - 1 }) := by
  have hparts : (Content.mapping <$> flowEntries f true).run ⟨ts, handles,
      nodes.push ⟨.map, .sequence []⟩, [], depth + 1⟩ = .ok (.mapping es, s) := by
    rw [StateT.run_map, h]
    rfl
  exact collection_eq hdepth hparts

theorem node_blockSequence (hdepth : depth < maxDepth)
    (h : (blockItems f).run ⟨ts, handles, nodes.push ⟨.list, .sequence []⟩, [], depth + 1⟩ =
      .ok (is, s)) :
    (node .block (f + 1)).run ⟨.blockSequence :: ts, handles, nodes, [], depth⟩ =
      .ok (nodes.size, { s with
        nodes := s.nodes.setIfInBounds nodes.size ⟨.list, .sequence is⟩
        depth := s.depth - 1 }) := by
  have hparts : (Content.sequence <$> blockItems f).run ⟨ts, handles,
      nodes.push ⟨.list, .sequence []⟩, [], depth + 1⟩ = .ok (.sequence is, s) := by
    rw [StateT.run_map, h]
    rfl
  exact collection_eq hdepth hparts

theorem optional_eq {t : Token} {ends : List Token} (hs : peek.run s = .ok (t, s))
    (ht : ends.contains t = false) :
    (optional p ends (f + 1)).run s = (node p f).run s := by
  have hnext : (nextIn ends).run s = .ok (false, s) := by
    rw [nextIn, StateT.run_bind, hs, ← ht]
    rfl
  rw [optional, StateT.run_bind, hnext]
  rfl

theorem flowEntries_end :
    (flowEntries (f + 1) first).run ⟨.flowMappingEnd :: ts, handles, nodes, [], depth⟩ =
      .ok ([], ⟨ts, handles, nodes, [], depth⟩) := rfl

theorem flowEntries_comma :
    (flowEntries (f + 1) false).run ⟨.flowEntry :: .key :: ts, handles, nodes, [], depth⟩ =
      (flowEntries (f + 1) true).run ⟨.key :: ts, handles, nodes, [], depth⟩ := rfl

theorem flowEntries_key
    (hvalue : (optional .flow [.flowEntry, .flowMappingEnd] (f + 2)).run ⟨ts, handles,
      nodes.push ⟨scalarTag none text plain, .scalar text⟩, [], depth⟩ = .ok (v, s))
    (hmore : (flowEntries (f + 2) false).run s = .ok (es, s')) :
    (flowEntries (f + 3) true).run
      ⟨.key :: .scalar text plain :: .value :: ts, handles, nodes, [], depth⟩ =
        .ok ((nodes.size, v) :: es, s') := by
  have hstep : (flowEntries (f + 3) true).run
      ⟨.key :: .scalar text plain :: .value :: ts, handles, nodes, [], depth⟩ =
        ((optional .flow [.flowEntry, .flowMappingEnd] (f + 2)).run ⟨ts, handles,
          nodes.push ⟨scalarTag none text plain, .scalar text⟩, [], depth⟩ >>= fun p =>
          (flowEntries (f + 2) false).run p.2 >>= fun q =>
            .ok ((nodes.size, p.1) :: q.1, q.2)) := rfl
  rw [hstep, hvalue]
  change ((flowEntries (f + 2) false).run s >>= _) = _
  rw [hmore]
  rfl

theorem blockItems_end :
    (blockItems (f + 1)).run ⟨.blockEnd :: ts, handles, nodes, [], depth⟩ =
      .ok ([], ⟨ts, handles, nodes, [], depth⟩) := rfl

theorem blockItems_item
    (hitem : (optional .block [.blockEntry, .blockEnd] f).run ⟨ts, handles, nodes, [], depth⟩ =
      .ok (n, s))
    (hmore : (blockItems f).run s = .ok (is, s')) :
    (blockItems (f + 1)).run ⟨.blockEntry :: ts, handles, nodes, [], depth⟩ =
      .ok (n :: is, s') := by
  have hstep : (blockItems (f + 1)).run ⟨.blockEntry :: ts, handles, nodes, [], depth⟩ =
      ((optional .block [.blockEntry, .blockEnd] f).run ⟨ts, handles, nodes, [], depth⟩ >>=
        fun p => (blockItems f).run p.2 >>= fun q => .ok (p.1 :: q.1, q.2)) := rfl
  rw [hstep, hitem]
  change ((blockItems f).run s >>= _) = _
  rw [hmore]
  rfl

theorem document_eq (hf : f ≠ 0)
    (h : (node .block f).run ⟨.blockSequence :: ts, defaultHandles, #[], [], 0⟩ =
      .ok (n, ⟨[.streamEnd], defaultHandles, nodes, [], 0⟩)) :
    (document f).run ⟨.blockSequence :: ts, [], #[], [], 0⟩ =
      .ok (some n, ⟨[.streamEnd], defaultHandles, nodes, [], 0⟩) := by
  obtain ⟨f, rfl⟩ := Nat.exists_eq_succ_of_ne_zero hf
  have hfirst : (firstDocument (f + 1)).run ⟨.blockSequence :: ts, [], #[], [], 0⟩ =
      ((node .block (f + 1)).run ⟨.blockSequence :: ts, defaultHandles, #[], [], 0⟩ >>= fun p =>
        .ok (some p.1, p.2)) := rfl
  rw [document, StateT.run_bind, hfirst, h]
  rfl

end Node

namespace Reading

variable {r : Reading} {n f : Nat}

theorem meet_scalar (hcell : r.cells[n]?.getD none = none)
    (htag : isCollectionTag (r.graph.tag n) = false) :
    (meet n).run r = (do
      let v ← scalarValue r.graph n
      return (.scalar v, { r with cells := r.cells.setIfInBounds n (some (.scalar v)) })) := by
  simp [meet, hcell, htag, setCell]

theorem key_text {text : List Char} (hcell : r.cells[n]?.getD none = none)
    (hnode : r.graph.node n = ⟨.text, .scalar text⟩) :
    (key n).run r = .ok (.text (.ofList text),
      { r with cells := r.cells.setIfInBounds n (some (.scalar (.text (.ofList text)))) }) := by
  have htag : r.graph.tag n = .text := congrArg Node.tag hnode
  have hvalue : scalarValue r.graph n = .ok (.text (String.ofList text)) := by
    simp [scalarValue, htag, scalarText, hnode]
    rfl
  rw [key, StateT.run_bind, meet_scalar hcell (by rw [htag]; rfl), hvalue]
  rfl

def putEntry (es : List (Value × Nat)) (e : Nat × Nat) : Step (List (Value × Nat)) := do
  let k ← key e.1
  discard <| meet e.2
  return Value.put k e.2 es

/-- A mapping without merge entries has its own entries. -/
theorem fill_map (entries : List (Nat × Nat))
    (hnode : r.graph.node n = ⟨.map, .mapping entries⟩)
    (hplain : ∀ e ∈ entries, r.graph.tag e.1 ∉ [.merge, .value]) :
    (fill n).run r = ((entries.foldlM putEntry []).run r >>= fun p =>
      .ok ((), { p.2 with cells := p.2.cells.setIfInBounds n (some (.map p.1)) })) := by
  have htag : r.graph.tag n = .map := congrArg Node.tag hnode
  have hentries : r.graph.entries? n = some entries := by rw [Graph.entries?, hnode]
  have hmerged : r.graph.merged r.merges n = .ok r.graph := by
    rw [Graph.merged, hentries]
    apply if_neg
    simpa using hplain
  rw [fill]
  simp only [StateT.run_bind, StateT.run_get, pure_bind, htag]
  have hentries' : (Reading.entries n).run r = (entries.foldlM putEntry []).run r := by
    rw [Reading.entries]
    simp only [StateT.run_bind, StateT.run_get, pure_bind, hentries, hmerged, Option.isNone_some,
      Bool.false_eq_true, if_false]
    change (((r.graph.entries? n).getD []).foldlM putEntry []).run r = _
    rw [hentries]
    rfl
  rw [hentries']
  rfl

theorem next_later {waiting : List Nat} (h : r.waiting = [])
    (hlater : r.later.reverse = n :: waiting) :
    next.run r = .ok (some n, { r with waiting, later := [] }) := by
  simp [next, h, hlater]
  rfl

theorem next_none (h : r.waiting = []) (hlater : r.later = []) : next.run r = .ok (none, r) := by
  simp [next, h, hlater]
  rfl

theorem fillAll_next {r' : Reading} (h : next.run r = .ok (some n, r')) :
    (fillAll (f + 1)).run r = ((fill n).run r' >>= fun p => (fillAll f).run p.2) := by
  rw [fillAll, StateT.run_bind, h]
  rfl

theorem fillAll_done (h : next.run r = .ok (none, r)) :
    (fillAll (f + 1)).run r = .ok ((), r) := by
  rw [fillAll, StateT.run_bind, h]
  rfl

end Reading

end VolumeExport.Markup
