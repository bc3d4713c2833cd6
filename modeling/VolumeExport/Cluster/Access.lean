import VolumeExport.Program

namespace VolumeExport.Access

/-- The object, unless there is none. -/
def get (r : Resource) (ns name : Option String) : Action (Option Object) := do
  match ← Action.call (.read r ns name) with
  | .ok o => return some o
  | .error e => if e.isNotFound then return none else .fail (.api e)

/-- The created object, unless there is one of its name. -/
def create (r : Resource) (ns : Option String) (body : Object) : Action (Option Object) := do
  match ← Action.call (.create r ns body) with
  | .ok o => return some o
  | .error e => if e.isConflict then return none else .fail (.api e)

/-- Whether there was an object to delete. -/
def delete (r : Resource) (ns name : Option String) : Action Bool := do
  match ← Action.call (.delete r ns name) with
  | .ok _ => return true
  | .error e => if e.isNotFound then return false else .fail (.api e)

def listAll (r : Resource) (ns selector : Option String) : Action (List Object) := do
  match ← Action.call (.list r ns selector) with
  | .ok page => if page.continues then .fail .partialList else return page.items
  | .error e => .fail (.api e)

/-- What is left of a change when a round ends: the object, unless it is gone, and the number of
times the change was made. -/
structure Modified where
  object : Option Object
  attempts : Nat
  deriving DecidableEq, Repr

/-- One round of a change: the object as it was read is changed and written back, unless the change
leaves it as it is. The round has to be repeated if the object was written in between. -/
def modifyRound (r : Resource) (ns name : Option String)
    (change : Except Instant.Fault Instant → Object → Except Fault Object) (attempts : Nat)
    (answer : Except ApiError Object) : Action (Nat ⊕ Modified) := do
  match answer with
  | .error e => if e.isNotFound then return .inr ⟨none, attempts⟩ else .fail (.api e)
  | .ok o =>
    let changed ← Action.ofExcept id (change (← Action.now) o)
    if changed = o then return .inr ⟨some o, attempts + 1⟩
    else
      match ← Action.call (.replace r ns name changed) with
      | .ok written => return .inr ⟨some written, attempts + 1⟩
      | .error e =>
        if e.isNotFound then return .inr ⟨none, attempts + 1⟩
        else if e.isConflict then return .inl (attempts + 1)
        else .fail (.api e)

/-- Changes an object as a whole: no write of others in between is lost. -/
def modify (r : Resource) (ns name : Option String)
    (change : Except Instant.Fault Instant → Object → Except Fault Object) : Action Modified :=
  .rounds 0 (.call (.read r ns name)) (modifyRound r ns name change)

end VolumeExport.Access
