import VolumeExport.Calendar
import VolumeExport.Object

namespace VolumeExport.Sequence

variable {α : Type} [BEq α]

/-- Appends the items that are not there yet, each once. -/
def appendMissing (xs items : List α) : List α :=
  items.foldl (fun xs x => if xs.contains x then xs else xs ++ [x]) xs

def removeAll (xs items : List α) : List α := xs.filter fun x => !items.contains x

end VolumeExport.Sequence

namespace VolumeExport

namespace Hook

inductive Event
  | create
  | delete
  deriving DecidableEq, Repr

def Event.name : Event → String
  | .create => "Create"
  | .delete => "Delete"

def Event.all : List Event := [.create, .delete]

def Event.ofName? (name : String) : Option Event := Event.all.find? (·.name = name)

inductive Action
  | add
  | remove
  deriving DecidableEq, Repr

def Action.name : Action → String
  | .add => "Add"
  | .remove => "Remove"

def Action.ofName? (name : String) : Option Action := [Action.add, .remove].find? (·.name = name)

/-- The objects that hooks can be declared for. -/
inductive Target
  | backendClaim
  | backendVolume
  | service
  | volume
  | server
  deriving DecidableEq, Repr

namespace Target

def all : List Target := [.backendClaim, .backendVolume, .service, .volume, .server]

/-- The name of the target's block in a hook. -/
def field : Target → String
  | .backendClaim => "backendPVC"
  | .backendVolume => "backendPV"
  | .service => "nfsService"
  | .volume => "nfsPV"
  | .server => "nfsDeployment"

def ofField? (name : String) : Option Target := all.find? (·.field = name)

/-- The kind of the target's objects. -/
def kind : Target → String
  | .backendClaim => "PersistentVolumeClaim"
  | .backendVolume => "PersistentVolume"
  | .service => "Service"
  | .volume => "PersistentVolume"
  | .server => "Deployment"

end Target

/-- What a hook adds to an object or removes from it. -/
structure Change where
  annotations : Dict String
  finalizers : List String
  deriving DecidableEq, Repr

end Hook

/-- A declared change to the annotations and finalizers of objects when volumes are created or
deleted. -/
structure Hook where
  name : String
  event : Hook.Event
  action : Hook.Action
  changes : List (Hook.Target × Hook.Change)
  deriving DecidableEq, Repr

/-- Hooks in the order of their declaration. -/
abbrev Hooks := List Hook

namespace Hook

def change? (h : Hook) (target : Target) : Option Change := h.changes.lookup target

/-- Stands for the time at which the hook is applied. -/
def timestampToken : List Char := "$\x7bCURRENT_TIMESTAMP\x7d".toList

/-- A text with a word put for every occurrence of a token; `skip` characters of an occurrence
are still to be passed over. -/
def substitute (token word : List Char) : Nat → List Char → List Char
  | _, [] => []
  | skip + 1, _ :: cs => substitute token word skip cs
  | 0, c :: cs =>
    if token.isPrefixOf (c :: cs) then word ++ substitute token word (token.length - 1) cs
    else c :: substitute token word 0 cs

/-- The value of an annotation that a hook adds. -/
def stamped (now : Instant) (value : String) : String :=
  String.ofList (substitute timestampToken now.rfc3339.toList 0 value.toList)

def Change.add (c : Change) (now : Instant) (m : Metadata) : Metadata :=
  { m with
    annotations :=
      if c.annotations.isEmpty then m.annotations
      else
        some (c.annotations.toList.foldl (fun d p => d.insert p.1 (some (stamped now p.2)))
          (m.annotations.getD ∅))
    finalizers :=
      if c.finalizers.isEmpty then m.finalizers
      else some (Sequence.appendMissing (m.finalizers.getD []) (c.finalizers.map some)) }

def Change.remove (c : Change) (m : Metadata) : Metadata :=
  { m with
    annotations := m.annotations.map fun d => c.annotations.keys.foldl Dict.erase d
    finalizers := m.finalizers.map fun fs =>
      Sequence.removeAll fs (c.finalizers.map some) }

/-- What a hook does to the metadata of an object. -/
def perform (h : Hook) (target : Target) (event : Event) (now : Instant) (m : Metadata) :
    Metadata :=
  match h.change? target with
  | some c =>
    if h.event = event then
      match h.action with
      | .add => c.add now m
      | .remove => c.remove m
    else m
  | none => m

/-- Whether a hook looks at the time: it does for each annotation that it adds. -/
def readsTime (h : Hook) (target : Target) (event : Event) : Bool :=
  h.event = event && h.action = .add && (h.change? target).any fun c => !c.annotations.isEmpty

end Hook

namespace Hooks

open Hook

/-- The targets that hooks are declared for at an event, each once. -/
def targets (hooks : Hooks) (event : Event) : List Target :=
  ((hooks.filter (·.event = event)).flatMap fun h => h.changes.map Prod.fst).eraseDups

/-- The targets of all events, made once for a document. -/
def index (hooks : Hooks) : List (Event × List Target) :=
  Event.all.map fun event => (event, hooks.targets event)

/-- Whether any hook is declared for a target and an event, by the index. -/
def covers (hooks : Hooks) (target : Target) (event : Event) : Bool :=
  (hooks.index.lookup event).any (·.contains target)

theorem lookup_index (hooks : Hooks) (event : Event) :
    hooks.index.lookup event = some (hooks.targets event) := by
  cases event with
  | create => rfl
  | delete => rfl

theorem mem_targets_iff {hooks : Hooks} {target : Target} {event : Event} :
    target ∈ hooks.targets event ↔
      ∃ h ∈ hooks, h.event = event ∧ (h.change? target).isSome := by
  simp only [targets, List.mem_eraseDups, List.mem_flatMap, List.mem_filter, List.mem_map,
    decide_eq_true_eq, Hook.change?, List.lookup_isSome_iff, beq_iff_eq, and_assoc]
  constructor
  · rintro ⟨h, hmem, hevent, p, hp, rfl⟩
    exact ⟨h, hmem, hevent, p, hp, rfl⟩
  · rintro ⟨h, hmem, hevent, p, hp, rfl⟩
    exact ⟨h, hmem, hevent, p, hp, rfl⟩

/-- The index is exact. -/
theorem covers_iff {hooks : Hooks} {target : Target} {event : Event} :
    hooks.covers target event ↔
      ∃ h ∈ hooks, h.event = event ∧ (h.change? target).isSome := by
  rw [covers, lookup_index, Option.any_some, List.contains_iff_mem, mem_targets_iff]

theorem not_covers_iff {hooks : Hooks} {target : Target} {event : Event} :
    hooks.covers target event = false ↔
      ∀ h ∈ hooks, h.event = event → h.change? target = none := by
  rw [Bool.eq_false_iff, ne_eq, covers_iff]
  simp only [not_exists, not_and, Option.not_isSome_iff_eq_none]

/-- An object of another kind than the one that hooks are declared for. -/
structure Mismatch where
  actual : String
  expected : String
  deriving DecidableEq, Repr

def Mismatch.message (m : Mismatch) : String := s!"{m.actual} is not a {m.expected} type"

def performAll (hooks : Hooks) (target : Target) (event : Event) (now : Instant) (m : Metadata) :
    Metadata :=
  hooks.foldl (fun m h => h.perform target event now m) m

/-- Why hooks cannot be applied. -/
inductive Obstacle
  | mismatch (cause : Mismatch)
  /-- The time is needed, and there is none. -/
  | clock (cause : Instant.Fault)
  deriving DecidableEq, Repr

/-- The object after all hooks for a target and an event. Without any, objects of every kind
pass. -/
def apply (hooks : Hooks) (target : Target) (event : Event) (now : Except Instant.Fault Instant)
    (kind : String) (o : Object) : Except Obstacle Object :=
  if !covers hooks target event then .ok o
  else if kind ≠ target.kind then .error (.mismatch ⟨kind, target.kind⟩)
  else
    match now with
    | .ok t => .ok (o.modifyMetadata (performAll hooks target event t))
    | .error cause =>
      if hooks.any (·.readsTime target event) then .error (.clock cause)
      else .ok (o.modifyMetadata (performAll hooks target event .first))

/-- What an object has become when the first hook that looks at the time finds none: the hooks in
front of it have been applied, and it has made room for annotations. -/
def interrupted (hooks : Hooks) (target : Target) (event : Event) (o : Object) : Object :=
  let before := hooks.takeWhile fun h => !h.readsTime target event
  o.modifyMetadata fun m =>
    let m := performAll before target event .first m
    { m with annotations := some (m.annotations.getD ∅) }

end Hooks

end VolumeExport
