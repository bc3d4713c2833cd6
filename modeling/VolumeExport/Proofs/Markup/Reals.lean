import VolumeExport.Markup.Document
import VolumeExport.Proofs.Binary64
import VolumeExport.Proofs.Stateful

namespace VolumeExport.Markup

namespace Value

def InFormat (v : Value) : Prop := ∀ x, v = .real x → x.InFormat

/-- A value of which this holds, and of the values of its keys. -/
structure Formed (v : Value) : Prop where
  self : v.InFormat
  entries : ∀ es, v.entries? = some es → ∀ e ∈ es, e.2.InFormat

theorem formed_of_entries?_eq_none {v : Value} (h : v.InFormat) (hnone : v.entries? = none) :
    v.Formed :=
  ⟨h, fun es hes => by rw [hnone] at hes; cases hes⟩

theorem inFormat_substitute {v whole : Value} {mark : Mark} (h : v.InFormat)
    (hwhole : whole.InFormat) : (substitute mark whole v).InFormat := by
  cases v with
  | real x => exact h
  | again m =>
    rw [substitute]
    split
    · exact hwhole
    · rintro _ ⟨⟩
  | cycle m body =>
    rw [substitute]
    split
    · rintro _ ⟨⟩
    · rintro _ ⟨⟩
  | _ => rintro _ ⟨⟩

theorem inFormat_of_mem_substituteEntries {mark : Mark} {whole : Value} (hwhole : whole.InFormat)
    {es : List (Value × Value)} (h : ∀ e ∈ es, e.2.InFormat) :
    ∀ e ∈ substituteEntries mark whole es, e.2.InFormat := by
  induction es with
  | nil => nofun
  | cons e es ih =>
    obtain ⟨he, hes⟩ := List.forall_mem_cons.1 h
    exact List.forall_mem_cons.2 ⟨inFormat_substitute he hwhole, ih hes⟩

theorem Formed.cycle {v : Value} (h : v.Formed) (mark : Mark) : (Value.cycle mark v).Formed := by
  refine ⟨nofun, fun es hes => ?_⟩
  have hwhole : (Value.cycle mark v).InFormat := nofun
  cases v with
  | map es' =>
    cases hes
    exact inFormat_of_mem_substituteEntries hwhole (h.entries es' rfl)
  | again m =>
    rw [entries?, unfold, substitute] at hes
    split at hes
    · next heq =>
      split at heq <;> cases heq
    · cases hes
  | cycle m body =>
    rw [entries?, unfold, substitute] at hes
    split at hes
    · next heq =>
      split at heq <;> cases heq
    · cases hes
  | _ => cases hes

end Value

namespace Scalar

variable {text : List Char} {x sum : Binary64} {xs : List Binary64} {base node : Nat} {tag : Tag}
  {v : Value}

theorem sixtiethReal_inFormat (hsum : sum.InFormat) (h : sixtiethReal base sum xs = .ok x) :
    x.InFormat := by
  induction xs generalizing base sum with
  | nil =>
    cases h
    exact hsum
  | cons y ys ih =>
    rw [sixtiethReal] at h
    split at h
    · exact ih Binary64.add_inFormat h
    · cases h

theorem realPart_inFormat (h : realPart text = .ok x) : x.InFormat := by
  rw [realPart] at h
  split at h
  · next y hy =>
    cases h
    exact Binary64.ofChars?_inFormat hy
  · cases h

theorem real_inFormat (h : real text = .ok x) : x.InFormat := by
  have hsigned {y : Binary64} {negative : Bool} (hy : y.InFormat)
      (h : (pure (if negative then y.negate else y) : Except Fault Binary64) = .ok x) :
      x.InFormat := by
    cases negative <;> cases h
    · exact hy
    · exact hy.negate
  rw [real] at h
  dsimp only at h
  split at h
  · cases h
  · split at h
    · exact hsigned (y := .infinite false) trivial h
    · split at h
      · exact hsigned (y := .nan) trivial h
      · split at h
        · obtain ⟨parts, -, h⟩ := eq_ok_of_bind h
          obtain ⟨y, hy, h⟩ := eq_ok_of_bind h
          exact hsigned (sixtiethReal_inFormat Binary64.zero_inFormat hy) h
        · obtain ⟨y, hy, h⟩ := eq_ok_of_bind h
          exact hsigned (realPart_inFormat hy) h

theorem time_formed (h : time text = .ok v) : v.Formed := by
  rw [time] at h
  split at h
  · cases h
  · split at h
    · obtain ⟨d, -, h⟩ := eq_ok_of_bind h
      cases h
      exact ⟨nofun, nofun⟩
    · obtain ⟨o, -, h⟩ := eq_ok_of_bind h
      obtain ⟨d, -, h⟩ := eq_ok_of_bind h
      split at h
      · cases h
        exact ⟨nofun, nofun⟩
      · cases h

theorem value_formed (h : value node tag text = .ok v) : v.Formed := by
  have hmap {α : Type} {f : α → Value} {r : Except Fault α} (hr : f <$> r = .ok v)
      (hf : ∀ a, (f a).Formed) : v.Formed := by
    cases r with
    | error => cases hr
    | ok a =>
      cases hr
      exact hf a
  unfold value at h
  split at h
  · cases h
    exact ⟨nofun, nofun⟩
  · exact hmap h fun _ => ⟨nofun, nofun⟩
  · exact hmap h fun _ => ⟨nofun, nofun⟩
  · rw [realValue] at h
    obtain ⟨x, hx, h⟩ := eq_ok_of_bind h
    split at h
    · cases h
      exact ⟨nofun, nofun⟩
    · cases h
      refine ⟨?_, nofun⟩
      rintro _ ⟨⟩
      exact real_inFormat hx
  · exact hmap h fun _ => ⟨nofun, nofun⟩
  · exact time_formed h
  · cases h
    exact ⟨nofun, nofun⟩
  · cases h

end Scalar

def EachKnown {α : Type} (P : α → Prop) (xs : Array (Option α)) : Prop := ∀ a, some a ∈ xs → P a

section EachKnown

variable {α : Type} {P : α → Prop} {xs : Array (Option α)} {a : α} {n : Nat}

theorem EachKnown.set (h : EachKnown P xs) (ha : P a) (n : Nat) :
    EachKnown P (xs.setIfInBounds n (some a)) := by
  intro b hb
  obtain hb | hb := Array.mem_or_eq_of_mem_setIfInBounds hb
  · exact h b hb
  · cases hb
    exact ha

theorem EachKnown.of_getD (h : EachKnown P xs) (ha : xs.getD n none = some a) : P a := by
  rw [Array.getD_eq_getD_getElem?] at ha
  cases hn : xs[n]? with
  | none =>
    rw [hn] at ha
    cases ha
  | some b =>
    rw [hn] at ha
    cases ha
    exact h a (Array.mem_of_getElem? hn)

theorem eachKnown_replicate : EachKnown P (.replicate n none) := by
  intro a ha
  cases Array.eq_of_mem_replicate ha

end EachKnown

def Cell.Sound (c : Cell) : Prop := ∀ v, c = .scalar v → v.Formed

abbrev CellsSound : Array (Option Cell) → Prop := EachKnown Cell.Sound

open Stateful

namespace Reading

variable {α : Type} {P : α → Prop} {n : Nat}

/-- A step keeps cells sound, and gives what has a property. -/
abbrev Keeps (P : α → Prop) (a : Step α) : Prop :=
  Stateful.Keeps (fun r : Reading => CellsSound r.cells) P a

theorem keeps_setCell {c : Cell} (h : c.Sound) : Keeps (fun _ => True) (setCell n c) :=
  keeps_modify fun _ hr => hr.set h n

theorem scalarValue_formed {g : Graph} {v : Value} (h : scalarValue g n = .ok v) :
    v.Formed := by
  rw [scalarValue] at h
  dsimp only at h
  split at h
  · cases h
  · obtain ⟨text, -, h⟩ := eq_ok_of_bind h
    split at h
    · exact Scalar.value_formed h
    · split at h
      · cases h
      · exact Scalar.value_formed h

theorem keeps_meet : Keeps Cell.Sound (meet n) := by
  rw [meet]
  apply keeps_get.bind
  intro r hr
  split
  · next cell hcell =>
    exact keeps_pure (hr.of_getD hcell)
  · split
    · refine (keeps_setCell (c := .blank) nofun).bind fun _ _ => ?_
      refine Keeps.bind (keeps_modify ?_) fun _ _ => keeps_pure ?_
      · exact fun _ hr => hr
      · nofun
    · apply keeps_lift.bind
      intro v hv
      have hsound : (Cell.scalar v).Sound := by
        rintro _ ⟨⟩
        exact scalarValue_formed hv
      exact (keeps_setCell hsound).bind fun _ _ => keeps_pure hsound

theorem keeps_key : Keeps (fun _ => True) (key n) := by
  apply keeps_meet.bind
  intro cell _
  split
  · exact keeps_pure trivial
  · exact keeps_throw

theorem keeps_entries : Keeps (fun _ => True) (entries n) := by
  have hput (es : List (Value × Nat)) (e : Nat × Nat) : Keeps (fun _ => True) (do
      let k ← key e.1
      discard <| meet e.2
      return Value.put k e.2 es) :=
    keeps_key.bind fun _ _ => keeps_meet.discard.bind fun _ _ => keeps_pure trivial
  apply keeps_get.bind
  intro r hr
  split
  · exact keeps_throw.bind (P := fun _ => False) nofun
  · refine keeps_lift.bind fun graph _ => Keeps.bind (keeps_set ?_) fun _ _ => keeps_foldlM hput _
    exact hr

theorem keeps_items : Keeps (fun _ => True) (items n) := by
  apply keeps_get.bind
  intro r _
  split
  · exact keeps_pure trivial
  · exact keeps_throw

theorem keeps_single : Keeps (fun _ => True) (single n) := by
  apply keeps_get.bind
  intro r _
  split
  · exact keeps_meet.discard.bind fun _ _ => keeps_meet.discard.bind fun _ _ => keeps_pure trivial
  · exact keeps_throw

theorem keeps_fill : Keeps (fun _ => True) (fill n) := by
  apply keeps_get.bind
  intro r _
  split
  · exact keeps_entries.bind fun _ _ => keeps_setCell nofun
  · exact keeps_entries.bind fun _ _ => keeps_setCell nofun
  · exact keeps_items.bind fun _ _ =>
      (keeps_forM fun _ => keeps_meet.discard).bind fun _ _ => keeps_setCell nofun
  · exact keeps_items.bind fun _ _ =>
      (keeps_mapM fun _ => keeps_single).bind fun _ _ => keeps_setCell nofun

theorem keeps_next : Keeps (fun _ => True) next := by
  apply keeps_get.bind
  intro r hr
  split
  · refine Keeps.bind (keeps_set ?_) fun _ _ => keeps_pure trivial
    exact hr
  · split
    · refine Keeps.bind (keeps_set ?_) fun _ _ => keeps_pure trivial
      exact hr
    · exact keeps_pure trivial

theorem keeps_fillAll {fuel : Nat} : Keeps (fun _ => True) (fillAll fuel) := by
  induction fuel with
  | zero => exact keeps_pure trivial
  | succ fuel ih =>
    apply keeps_next.bind
    intro found _
    split
    · exact keeps_fill.bind fun _ _ => ih
    · exact keeps_pure trivial

theorem cellsOf_sound {g : Graph} {cells : Array (Option Cell)} (h : cellsOf g = .ok cells) :
    CellsSound cells := by
  rw [cellsOf] at h
  obtain ⟨⟨u, r⟩, hrun, h⟩ := eq_ok_of_bind h
  cases h
  have hsteps : Keeps (fun _ => True) (do
      discard <| meet g.root
      fillAll (g.nodes.size + 1)) := keeps_meet.discard.bind fun _ _ => keeps_fillAll
  exact (hsteps _ u r eachKnown_replicate hrun).2

end Reading

namespace Part

variable {α : Type} {cells : Array (Option Cell)}

abbrev KnownSound : Array (Option Value) → Prop := EachKnown Value.Formed

/-- A step keeps what is known of the format, and gives what has a property. -/
abbrev Keeps (P : α → Prop) (a : Known α) : Prop := Stateful.Keeps KnownSound P a

theorem collection_formed (mark : Mark) {body : Part} (h : body.value.Formed) :
    (collection mark body).value.Formed := by
  rw [collection]
  split
  · exact h
  · exact h.cycle mark

theorem keeps_ofNode (hcells : CellsSound cells) (fuel : Nat) (around : List Mark) (n : Nat) :
    Keeps (fun p => p.value.Formed) (ofNode cells fuel around n) := by
  induction fuel generalizing around n with
  | zero => exact keeps_pure ⟨nofun, nofun⟩
  | succ fuel ih =>
    rw [ofNode]
    dsimp only
    split
    · exact keeps_pure ⟨nofun, nofun⟩
    · apply keeps_get.bind
      intro known hknown
      have hwhole (body : Part) (hbody : body.value.Formed) :
          Keeps (fun p : Part => p.value.Formed) (do
            if (collection ⟨n, 0⟩ body).named = [] then
              modify fun known => known.setIfInBounds n (some (collection ⟨n, 0⟩ body).value)
            return collection ⟨n, 0⟩ body) := by
        have hformed := collection_formed ⟨n, 0⟩ hbody
        split
        · exact (keeps_modify fun _ hknown => hknown.set hformed n).bind fun _ _ =>
            keeps_pure hformed
        · exact keeps_pure hformed
      split
      · next v hv => exact keeps_pure (hknown.of_getD hv)
      · split
        · next v hv => exact hwhole ⟨v, []⟩ (hcells.of_getD hv v rfl)
        · exact (keeps_mapM fun m => ih _ m).bind fun parts _ =>
            hwhole (all .list parts) ⟨nofun, nofun⟩
        · refine (keeps_mapIdxM fun i e => ?_).bind fun pairs _ =>
            hwhole (all .list pairs) ⟨nofun, nofun⟩
          exact (ih _ e.1).bind fun _ _ => (ih _ e.2).bind fun _ _ => keeps_pure trivial
        · next items _ => exact hwhole ⟨.set items, []⟩ ⟨nofun, nofun⟩
        · next entries _ =>
          refine (keeps_mapM fun e : Value × Nat => ih _ e.2).bind fun parts hparts =>
            hwhole (all (fun vs => .map ((entries.map (·.1)).zip vs)) parts) ⟨nofun, ?_⟩
          rintro _ ⟨⟩ e he
          obtain ⟨p, hp, hvalue⟩ := List.mem_map.1 (List.of_mem_zip he).2
          rw [← hvalue]
          exact (hparts p hp).self
        · exact hwhole ⟨.null, []⟩ ⟨nofun, nofun⟩

end Part

namespace Value

variable {v : Value} {g : Graph} {text : String}

theorem ofGraph_formed (h : ofGraph g = .ok v) : v.Formed := by
  obtain ⟨cells, hcells, h⟩ := eq_ok_of_bind h
  have hroot := Part.keeps_ofNode (Reading.cellsOf_sound hcells) (cells.size + 1) [] g.root
    (.replicate cells.size none)
  cases hrun : (Part.ofNode cells (cells.size + 1) [] g.root).run (.replicate cells.size none) with
  | mk part known =>
    rw [hrun] at h
    cases h
    exact (hroot part known eachKnown_replicate hrun).1

/-- The real numbers among the values of a document's keys are of the 64-bit format. -/
theorem read_formed (h : read text = .ok v) : v.Formed := by
  obtain ⟨cs, -, h⟩ := eq_ok_of_bind h
  obtain ⟨g?, -, h⟩ := eq_ok_of_bind h
  split at h
  · exact ofGraph_formed h
  · cases h
    exact ⟨nofun, nofun⟩

end Value

end VolumeExport.Markup
