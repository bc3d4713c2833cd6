import VolumeExport.Proofs.Failure
import VolumeExport.Proofs.Markup.Flow
import VolumeExport.Proofs.Markup.Nodes

namespace VolumeExport

theorem Text.codes_of_lt {cs : List Char} (h : ∀ c ∈ cs, c.toNat < 0x80) :
    Text.codes cs = cs.map (·.toNat) := by
  induction cs with
  | nil => rfl
  | cons c cs ih =>
    obtain ⟨hc, hcs⟩ := List.forall_mem_cons.1 h
    have hmark : c ≠ surrogateMark := by
      rintro rfl
      exact absurd hc (by decide)
    rw [codes_cons hmark, ih hcs, List.map_cons]

end VolumeExport

namespace VolumeExport.Markup

/-- The characters of a list of one entry, with a word in the place of the mode. -/
def entryChars (w : List Char) : List Char :=
  '-' :: ' ' :: '\x7b' :: ("name".toList ++ ':' :: ' ' :: ("FilePermissions".toList ++ ',' :: ' ' ::
    ("data".toList ++ ':' :: ' ' :: '\x7b' :: ("mode".toList ++ ':' :: ' ' ::
      (w ++ ['\x7d', '\x7d'])))))

def entryTokens (w : List Char) : List Token :=
  [.blockSequence, .blockEntry, .flowMapping, .key, .scalar "name".toList true, .value,
    .scalar "FilePermissions".toList true, .flowEntry, .key, .scalar "data".toList true, .value,
    .flowMapping, .key, .scalar "mode".toList true, .value, .scalar w true, .flowMappingEnd,
    .flowMappingEnd, .blockEnd, .streamEnd]

namespace Stream

theorem reads_entry {w : List Char} (hw : IsWord w) :
    Reads 13 (.start (entryChars w))
      (Within ['\x7d'] ((entryTokens w).reverse.drop 3) 0 false) := by
  apply (reads_start _).bind (m := 11)
  intro s hname
  apply (hname.key (b := []) (w := "name".toList) (.inl rfl) (by decide) (by decide)).bind
    (m := 9)
  intro s hvalue
  apply (hvalue.word (b := [' ']) (w := "FilePermissions".toList) (.inr rfl) (by decide)
    (by decide) rfl).bind (m := 8)
  intro s hcomma
  apply (hcomma.comma (b := []) (.inl rfl)).bind (m := 7)
  intro s hdata
  apply (hdata.key (b := [' ']) (w := "data".toList) (.inr rfl) (by decide) (by decide)).bind
    (m := 5)
  intro s hopen
  apply (hopen.open (b := [' ']) (.inr rfl)).bind (m := 4)
  intro s hmode
  apply (hmode.key (b := []) (w := "mode".toList) (.inl rfl) (by decide) (by decide)).bind
    (m := 2)
  intro s hword
  apply (hword.word (b := [' ']) (c := '\x7d') (.inr rfl) hw (by decide) (by decide)).bind
    (m := 1)
  intro s hclose
  exact hclose.close (b := []) (.inl rfl)

end Stream

theorem Token.ofChars_entry {w : List Char} (hw : IsWord w) :
    Token.ofChars (entryChars w) = entryTokens w := by
  obtain ⟨s, hsteps, hs⟩ := Stream.reads_entry hw
  have hfuel : (entryChars w).length + 1 = (27 + w.length) + 2 + 13 := by
    simp [entryChars]
    omega
  rw [Token.ofChars, hfuel, Stream.run_of_steps hsteps, hs.run_end]
  simp [entryTokens]

def Graph.entry (w : List Char) : Graph where
  nodes := #[⟨.list, .sequence [1]⟩, ⟨.map, .mapping [(2, 3), (4, 5)]⟩,
    ⟨.text, .scalar "name".toList⟩, ⟨.text, .scalar "FilePermissions".toList⟩,
    ⟨.text, .scalar "data".toList⟩, ⟨.map, .mapping [(6, 7)]⟩, ⟨.text, .scalar "mode".toList⟩,
    ⟨Tag.ofPlain w, .scalar w⟩]
  root := 0

namespace Node

variable {f depth : Nat} {ts : List Token} {handles : List (List Char × List Char)}
  {nodes : Array Node} {s s' : State} {es es' : List (Nat × Nat)} {k w : List Char}

def plainNode (w : List Char) : Node := ⟨Tag.ofPlain w, .scalar w⟩

theorem flowEntries_word
    (hmore : (flowEntries (f + 2) false).run
      ⟨ts, handles, (nodes.push (plainNode k)).push (plainNode w), [], depth⟩ = .ok (es, s)) :
    (flowEntries (f + 3) true).run ⟨.key :: .scalar k true :: .value :: .scalar w true :: ts,
      handles, nodes, [], depth⟩ = .ok ((nodes.size, nodes.size + 1) :: es, s) := by
  have hvalue : (optional .flow [.flowEntry, .flowMappingEnd] (f + 2)).run
      ⟨.scalar w true :: ts, handles, nodes.push (plainNode k), [], depth⟩ =
        .ok (nodes.size + 1,
          ⟨ts, handles, (nodes.push (plainNode k)).push (plainNode w), [], depth⟩) := by
    rw [optional_eq rfl rfl, node_scalar, Array.size_push]
    rfl
  exact flowEntries_key hvalue hmore

theorem flowEntries_mapping (hdepth : depth < maxDepth)
    (hmapping : (flowEntries f true).run
      ⟨ts, handles, (nodes.push (plainNode k)).push ⟨.map, .sequence []⟩, [], depth + 1⟩ =
        .ok (es, s))
    (hmore : (flowEntries (f + 2) false).run { s with
      nodes := s.nodes.setIfInBounds (nodes.size + 1) ⟨.map, .mapping es⟩, depth := s.depth - 1 } =
        .ok (es', s')) :
    (flowEntries (f + 3) true).run ⟨.key :: .scalar k true :: .value :: .flowMapping :: ts,
      handles, nodes, [], depth⟩ = .ok ((nodes.size, nodes.size + 1) :: es', s') := by
  have hnode := node_flowMapping (p := .flow) hdepth hmapping
  rw [Array.size_push] at hnode
  refine flowEntries_key ?_ hmore
  rw [optional_eq (t := .flowMapping) rfl rfl]
  exact hnode

theorem document_entry (w : List Char) :
    (document 63).run ⟨entryTokens w, [], #[], [], 0⟩ =
      .ok (some 0, ⟨[.streamEnd], defaultHandles, (Graph.entry w).nodes, [], 0⟩) := by
  let unfilled := (Graph.entry w).nodes.set! 0 ⟨.list, .sequence []⟩
  have hentry : (optional .block [.blockEntry, .blockEnd] 61).run
      ⟨(entryTokens w).drop 2, defaultHandles, #[⟨.list, .sequence []⟩], [], 1⟩ =
        .ok (1, ⟨[.blockEnd, .streamEnd], defaultHandles, unfilled, [], 1⟩) := by
    rw [optional_eq (t := .flowMapping) rfl rfl]
    apply node_flowMapping (f := 59) (s := ⟨[.blockEnd, .streamEnd], defaultHandles,
      unfilled.set! 1 ⟨.map, .sequence []⟩, [], 2⟩) (by decide)
    apply flowEntries_word (f := 56)
    rw [flowEntries_comma]
    exact flowEntries_mapping (f := 55) (by decide)
      (flowEntries_word (f := 52) flowEntries_end) flowEntries_end
  apply document_eq (by decide)
  exact node_blockSequence (f := 62)
    (s := ⟨[.streamEnd], defaultHandles, unfilled, [], 1⟩) (by decide)
    (blockItems_item (f := 61) hentry blockItems_end)

end Node

theorem Graph.ofTokens_entry (w : List Char) :
    Graph.ofTokens (entryTokens w) = .ok (some (Graph.entry w)) := by
  have hlength : 3 * (entryTokens w).length + 3 = 63 := rfl
  rw [Graph.ofTokens, hlength, Node.document_entry]
  rfl

/-- What a document with such an entry stands for. -/
def Value.entry (v : Value) : Value :=
  .map [(.text "name", .text "FilePermissions"), (.text "data", .map [(.text "mode", v)])]

namespace Reading

def entryCells (v : Option Cell) (data mode : Option Cell) : Array (Option Cell) :=
  #[some (.list [1]), some (.map [(.text "name", 3), (.text "data", 5)]),
    some (.scalar (.text "name")), some (.scalar (.text "FilePermissions")),
    some (.scalar (.text "data")), data, mode, v]

theorem run_discard {α : Type} (a : Step α) (r : Reading) :
    (discard a).run r = (a.run r >>= fun p => .ok ((), p.2)) := rfl

section

variable {r : Reading} {k n : Nat} {es : List (Value × Nat)}

theorem putEntry_scalar (text : List Char) (hkey : r.cells[k]?.getD none = none)
    (hnode : r.graph.node k = ⟨.text, .scalar text⟩)
    (hcell : (r.cells.setIfInBounds k (some (.scalar (.text (.ofList text)))))[n]?.getD none = none)
    (htag : isCollectionTag (r.graph.tag n) = false) :
    (putEntry es (k, n)).run r = (scalarValue r.graph n >>= fun v =>
      .ok (Value.put (.text (.ofList text)) n es, { r with
        cells := (r.cells.setIfInBounds k (some (.scalar (.text (.ofList text))))).setIfInBounds n
          (some (.scalar v)) })) := by
  have hmeet := meet_scalar (r := { r with
    cells := r.cells.setIfInBounds k (some (.scalar (.text (.ofList text)))) }) hcell htag
  rw [putEntry, StateT.run_bind, key_text hkey hnode]
  change ((discard (meet n) >>= fun _ => pure (Value.put (.text (.ofList text)) n es)).run { r with
    cells := r.cells.setIfInBounds k (some (.scalar (.text (.ofList text)))) }) = _
  rw [StateT.run_bind, run_discard, hmeet]
  cases scalarValue r.graph n with
  | error => rfl
  | ok v => rfl

end

variable {w : List Char}

theorem fill_root : (fill 0).run ⟨Graph.entry w, 0,
      #[some .blank, none, none, none, none, none, none, none], [], []⟩ =
    .ok ((), ⟨Graph.entry w, 0,
      #[some (.list [1]), some .blank, none, none, none, none, none, none], [], [1]⟩) := rfl

theorem fill_entry : (fill 1).run ⟨Graph.entry w, 0,
      #[some (.list [1]), some .blank, none, none, none, none, none, none], [], []⟩ =
    .ok ((), ⟨Graph.entry w, 0, entryCells none (some .blank) none, [], [5]⟩) := rfl

theorem fill_data (h : Tag.ofPlain w = .int) :
    (fill 5).run ⟨Graph.entry w, 0, entryCells none (some .blank) none, [], []⟩ =
      (Scalar.value 7 .int w >>= fun v => .ok ((), ⟨Graph.entry w, 0,
        entryCells (some (.scalar v)) (some (.map [(.text "mode", 7)]))
          (some (.scalar (.text "mode"))), [], []⟩)) := by
  have htag : (Graph.entry w).tag 7 = .int := h
  have hvalue : scalarValue (Graph.entry w) 7 = Scalar.value 7 .int w := by
    simp [scalarValue, htag]
    rfl
  have hkey : (Graph.entry w).tag 6 = .text := rfl
  rw [fill_map [(6, 7)] rfl (by simp [hkey])]
  simp only [List.foldlM_cons, List.foldlM_nil, StateT.run_bind]
  rw [putEntry_scalar "mode".toList rfl rfl rfl (by rw [htag]; rfl), hvalue]
  cases Scalar.value 7 .int w with
  | error => rfl
  | ok v => rfl

theorem fillAll_filled {r r' r'' : Reading} {n f : Nat} (hnext : next.run r = .ok (some n, r'))
    (hfill : (fill n).run r' = .ok ((), r'')) :
    (fillAll (f + 1)).run r = (fillAll f).run r'' := by
  rw [fillAll_next hnext, hfill]
  rfl

theorem cellsOf_entry (h : Tag.ofPlain w = .int) :
    cellsOf (Graph.entry w) = (Scalar.value 7 .int w >>= fun v => .ok
      (entryCells (some (.scalar v)) (some (.map [(.text "mode", 7)]))
        (some (.scalar (.text "mode"))))) := by
  have hmeet : (meet 0).run ⟨Graph.entry w, 0, .replicate 8 none, [], []⟩ = .ok (.blank,
      ⟨Graph.entry w, 0, #[some .blank, none, none, none, none, none, none, none], [], [0]⟩) := rfl
  have hfill : (fillAll 9).run ⟨Graph.entry w, 0,
      #[some .blank, none, none, none, none, none, none, none], [], [0]⟩ =
        (Scalar.value 7 .int w >>= fun v => .ok ((), ⟨Graph.entry w, 0,
          entryCells (some (.scalar v)) (some (.map [(.text "mode", 7)]))
            (some (.scalar (.text "mode"))), [], []⟩)) := by
    rw [fillAll_filled (next_later rfl rfl) fill_root,
      fillAll_filled (next_later rfl rfl) fill_entry, fillAll_next (next_later rfl rfl),
      fill_data h]
    cases Scalar.value 7 .int w with
    | error => rfl
    | ok v =>
      rw [Except.ok_bind, Except.ok_bind, fillAll_done (next_none rfl rfl)]
  have hcount : (Graph.entry w).mergeCount = 0 := rfl
  have hsize : (Graph.entry w).nodes.size = 8 := rfl
  have hroot : (Graph.entry w).root = 0 := rfl
  rw [cellsOf, hcount, hsize, hroot]
  simp only [StateT.run_bind, run_discard, hmeet, Except.ok_bind, hfill]
  cases Scalar.value 7 .int w with
  | error => rfl
  | ok v => rfl

end Reading

namespace Part

variable {cells : Array (Option Cell)} {f n : Nat} {around : List Mark} {vs : List Value}
  {known known' : Array (Option Value)}

theorem id_bind {α β : Type} (a : α) (f : α → Id β) : @bind Id _ α β a f = f a := rfl

theorem ofNode_list (items : List Nat) (haround : around.contains ⟨n, 0⟩ = false)
    (hknown : known[n]?.getD none = none) (hcell : cells[n]?.getD none = some (.list items))
    (hparts : (items.mapM (ofNode cells f (⟨n, 0⟩ :: around))).run known =
      (vs.map (⟨·, []⟩), known')) :
    (ofNode cells (f + 1) around n).run known =
      (⟨.list vs, []⟩, known'.setIfInBounds n (some (.list vs))) := by
  rw [List.contains_eq_mem, decide_eq_false_iff_not] at haround
  have hall : all .list (vs.map (⟨·, []⟩)) = ⟨.list vs, []⟩ := by
    simp [all, Function.comp_def]
  simp [ofNode, hknown, hcell, haround, hparts, collection]
  rw [id_bind]
  simp [hall]
  rfl

end Part

theorem Value.ofGraph_entry {w : List Char} (h : Tag.ofPlain w = .int) :
    Value.ofGraph (Graph.entry w) =
      (Scalar.value 7 .int w >>= fun v => .ok (.list [.entry v])) := by
  rw [Value.ofGraph, Reading.cellsOf_entry h]
  cases Scalar.value 7 .int w with
  | error => rfl
  | ok v =>
    have hroot : ((Part.ofNode (Reading.entryCells (some (.scalar v))
        (some (.map [(.text "mode", 7)])) (some (.scalar (.text "mode")))) 9 [] 0).run
          (.replicate 8 none)).1 = ⟨.list [.entry v], []⟩ :=
      congrArg Prod.fst (Part.ofNode_list [1] rfl rfl rfl rfl)
    exact congrArg (fun p => Except.ok p.value) hroot

/-- A document with a word in the place of the mode, which counts as a number. -/
theorem Value.ofChars_entry {w : List Char} (hw : IsWord w) (h : Tag.ofPlain w = .int) :
    Value.ofChars (entryChars w) =
      (Scalar.int w >>= fun n => .ok (.list [.entry (.int n)])) := by
  have hvalue : Scalar.value 7 .int w = Value.int <$> Scalar.int w := rfl
  rw [Value.ofChars, Token.ofChars_entry hw, Graph.ofTokens_entry, Except.ok_bind]
  simp only [Value.ofGraph_entry h, hvalue]
  cases Scalar.int w with
  | error => rfl
  | ok n => rfl

theorem Source.ofText_of_printable {s : String}
    (h : ∀ c ∈ s.toList, 0x20 ≤ c.toNat ∧ c.toNat ≤ 0x7e) : Source.ofText s = .ok s.toList := by
  have hcodes := Text.codes_of_lt fun c hc =>
    Nat.lt_of_le_of_lt (h c hc).2 (by decide : 0x7e < 0x80)
  have hsurrogate : ((s.toList.map (·.toNat)).any Text.isSurrogate) = false := by
    rw [List.any_eq_false]
    intro n hn
    obtain ⟨c, hc, rfl⟩ := List.mem_map.1 hn
    have hsmall := h c hc
    simp [Text.isSurrogate]
    omega
  have hchars : (s.toList.map (·.toNat)).map Char.ofNat = s.toList := by
    rw [List.map_map]
    simp [Function.comp_def]
  have hallowed : s.toList.all isAllowed = true := by
    rw [List.all_eq_true]
    intro c hc
    have hsmall := h c hc
    simp [isAllowed]
    omega
  rw [ofText, hcodes]
  simp only [hsurrogate, hchars, ofChars, hallowed]
  rfl

@[irreducible] def entryText (d : String) : String :=
  "- \x7bname: FilePermissions, data: \x7bmode: " ++ d ++ "\x7d\x7d"

theorem toList_entryText (d : String) : (entryText d).toList = entryChars d.toList := by
  unfold entryText
  simp [entryChars]

variable {w : List Char}

theorem isTrimmed_entryChars : Text.IsTrimmed (entryChars w) := by
  constructor
  · intro c hc
    obtain rfl : '-' = c := by simpa [entryChars] using hc
    decide
  · intro c hc
    have hlast : (entryChars w).getLast? = some '\x7d' := by
      simp [entryChars, List.getLast?_cons]
    obtain rfl : '\x7d' = c := by simpa [hlast] using hc
    decide

theorem printable_entryChars (h : IsWord w) :
    ∀ c ∈ entryChars w, 0x20 ≤ c.toNat ∧ c.toNat ≤ 0x7e := by
  intro c hc
  have hframe : ∀ c ∈ entryChars [], 0x20 ≤ c.toNat ∧ c.toNat ≤ 0x7e := by
    simp [entryChars]
  have hcases : c ∈ entryChars [] ∨ c ∈ w := by
    simp only [entryChars, List.mem_cons, List.mem_append, List.nil_append] at hc ⊢
    grind
  cases hcases with
  | inl hmem => exact hframe c hmem
  | inr hmem =>
    have hsmall := toNat_of_isAlphanum (h.2 c hmem)
    omega

theorem Value.read_entryText {d : String} (hw : IsWord d.toList)
    (h : Tag.ofPlain d.toList = .int) :
    Value.read (entryText d) =
      (Scalar.int d.toList >>= fun n => .ok (.list [.entry (.int n)])) := by
  have hprintable : ∀ c ∈ (entryText d).toList, 0x20 ≤ c.toNat ∧ c.toNat ≤ 0x7e := by
    rw [toList_entryText]
    exact printable_entryChars hw
  rw [Value.read, Source.ofText_of_printable hprintable, toList_entryText, Except.ok_bind,
    Value.ofChars_entry hw h]

end VolumeExport.Markup
