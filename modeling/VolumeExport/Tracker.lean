import VolumeExport.Dict

namespace VolumeExport

/-- The names of the volumes whose backing is being made or taken down. The collector leaves them
alone. -/
structure Tracker where
  names : Dict Unit
  deriving DecidableEq, Repr

namespace Tracker

def empty : Tracker := ⟨∅⟩

def contains (t : Tracker) (name : String) : Bool := t.names.contains name

def add (t : Tracker) (name : String) : Tracker := ⟨t.names.insert name ()⟩

/-- Names that are not tracked stay so. -/
def erase (t : Tracker) (name : String) : Tracker := ⟨t.names.erase name⟩

theorem contains_add (t : Tracker) (name n : String) :
    (t.add name).contains n = (decide (name = n) || t.contains n) := by
  simp only [contains, add, Dict.contains, Dict.get?_insert]
  split <;> simp_all

theorem contains_erase (t : Tracker) (name n : String) :
    (t.erase name).contains n = (!decide (name = n) && t.contains n) := by
  simp only [contains, erase, Dict.contains, Dict.get?_erase]
  split <;> simp_all

theorem erase_add (t : Tracker) (name : String) : (t.add name).erase name = t.erase name := by
  simp only [add, erase, Tracker.mk.injEq]
  refine Dict.ext_get? fun key => ?_
  simp only [Dict.get?_erase, Dict.get?_insert]
  split <;> rfl

theorem erase_erase (t : Tracker) (name : String) :
    (t.erase name).erase name = t.erase name := by
  simp only [erase, Tracker.mk.injEq]
  refine Dict.ext_get? fun key => ?_
  simp only [Dict.get?_erase]
  split <;> rfl

/-- What may be done with a tracker. A section tracks a name while its inner acts run, and may
fail after them; the failure ends the section and nothing else. -/
inductive Act
  | add (name : String)
  | erase (name : String)
  | ask (name : String)
  | within (name : String) (acts : List Act) (failure : Option String)

/-- What an act shows. -/
inductive Event
  | changed
  | answered (tracked : Bool)
  | entered
  | left (failure : Option String)
  deriving DecidableEq, Repr

mutual

def perform (t : Tracker) : Act → Tracker × List Event
  | .add name => (t.add name, [.changed])
  | .erase name => (t.erase name, [.changed])
  | .ask name => (t, [.answered (t.contains name)])
  | .within name acts failure =>
    let (t, events) := performAll (t.add name) acts
    (t.erase name, .entered :: events ++ [.left failure])

def performAll (t : Tracker) : List Act → Tracker × List Event
  | [] => (t, [])
  | act :: acts =>
    let (t, events) := perform t act
    let (t, more) := performAll t acts
    (t, events ++ more)

end

mutual

/-- The names that an act may track or stop to track. -/
def Act.names : Act → List String
  | .add name => [name]
  | .erase name => [name]
  | .ask _ => []
  | .within name acts _ => name :: Act.namesAll acts

def Act.namesAll : List Act → List String
  | [] => []
  | act :: acts => act.names ++ Act.namesAll acts

end

theorem contains_add_of_ne {t : Tracker} {name n : String} (h : n ≠ name) :
    (t.add name).contains n = t.contains n := by
  rw [contains_add, decide_eq_false (Ne.symm h), Bool.false_or]

theorem contains_erase_self (t : Tracker) (name : String) :
    (t.erase name).contains name = false := by
  rw [contains_erase, decide_eq_true rfl, Bool.not_true, Bool.false_and]

theorem contains_erase_of_ne {t : Tracker} {name n : String} (h : n ≠ name) :
    (t.erase name).contains n = t.contains n := by
  rw [contains_erase, decide_eq_false (Ne.symm h), Bool.not_false, Bool.true_and]

mutual

theorem contains_perform {n : String} (t : Tracker) :
    (act : Act) → n ∉ act.names → (t.perform act).1.contains n = t.contains n
  | .add _, h => contains_add_of_ne (List.ne_of_not_mem_cons h)
  | .erase _, h => contains_erase_of_ne (List.ne_of_not_mem_cons h)
  | .ask _, _ => rfl
  | .within name acts failure, h => by
    obtain ⟨hne, hacts⟩ := not_or.1 (mt List.mem_cons.2 h)
    have hinner := contains_performAll (t.add name) acts hacts
    rw [contains_add_of_ne hne] at hinner
    exact (contains_erase_of_ne hne).trans hinner

theorem contains_performAll {n : String} (t : Tracker) :
    (acts : List Act) → n ∉ Act.namesAll acts →
      (t.performAll acts).1.contains n = t.contains n
  | [], _ => rfl
  | act :: acts, h => by
    obtain ⟨hact, hacts⟩ := not_or.1 (mt List.mem_append.2 h)
    exact (contains_performAll (t.perform act).1 acts hacts).trans (contains_perform t act hact)

end

/-- A section ends with its name untracked, whatever is done in it and whether it fails or not;
all names that nothing in it is about are as they were. -/
theorem contains_within (t : Tracker) (name : String) (acts : List Act) (failure : Option String) :
    (t.perform (.within name acts failure)).1.contains name = false ∧
      ∀ n ∉ name :: Act.namesAll acts,
        (t.perform (.within name acts failure)).1.contains n = t.contains n := by
  exact ⟨contains_erase_self _ name, fun _ hn => contains_perform t _ hn⟩

end Tracker

end VolumeExport
