import Mathlib.Control.Monad.Basic
import VolumeExport.Proofs.Ends

namespace VolumeExport

structure Moment where
  before : Site
  turn : Turn
  after : Site

/-- What a program runs among: how calls fail, and what others may make of a site before an
answer. -/
structure Surroundings where
  faults : ApiError → Prop
  moves : Site → Site → Prop

/-- Nobody else acts. Calls fail without telling anything about objects. -/
def Surroundings.alone : Surroundings := ⟨Site.Mute, fun w w' => w' = w⟩

/-- The site after some moments, the latest first. -/
def Site.along (w : Site) : List Moment → Site
  | [] => w
  | m :: _ => m.after

theorem Site.along_append (w : Site) (ms ms' : List Moment) :
    w.along (ms' ++ ms) = (w.along ms).along ms' := by
  cases ms' with
  | nil => rfl
  | cons m ms' => rfl

namespace Prog

variable {α : Type} {S : Surroundings} {w : Site} {p rest : Prog α} {ms : List Moment}

/-- A part of a run: the moments so far, the latest first, and what is left of the program. -/
inductive Course (S : Surroundings) (w : Site) (p : Prog α) : List Moment → Prog α → Prop
  | start : Course S w p [] p
  | answer {ms rest q k v x v'} : Course S w p ms rest → rest.head = .ask q k →
      S.moves (w.along ms) v → v.Answers S.faults q x v' →
      Course S w p (⟨v, ⟨q, x⟩, v'⟩ :: ms) (k x)

def Runs (S : Surroundings) (w : Site) (p : Prog α) (ms : List Moment) (a : α) : Prop :=
  ∃ rest, Course S w p ms rest ∧ rest.head = .done a

theorem Course.keeps {may : Request → Past → Prop} {goal : α → Past → Prop}
    (h : Course S w p ms rest) (hp : p.Keeps may goal []) :
    rest.Keeps may goal (ms.map Moment.turn) := by
  induction h with
  | start => exact hp
  | answer _ hhead _ _ ih =>
    have hask := ih.head
    rw [hhead] at hask
    exact hask.2 _

/-- What was asked may be asked after what was answered before. -/
theorem Course.asked {may : Request → Past → Prop} {goal : α → Past → Prop} {m : Moment}
    (h : Course S w p (m :: ms) rest) (hp : p.Keeps may goal []) :
    may m.turn.request (ms.map Moment.turn) := by
  cases h with
  | answer h hhead _ _ =>
    have hask := (h.keeps hp).head
    rw [hhead] at hask
    exact hask.1

theorem Course.tail {m : Moment} (h : Course S w p (m :: ms) rest) :
    ∃ earlier, Course S w p ms earlier := by
  cases h with
  | answer h => exact ⟨_, h⟩

theorem Course.moment {m : Moment} (h : Course S w p (m :: ms) rest) :
    S.moves (w.along ms) m.before ∧
      m.before.Answers S.faults m.turn.request m.turn.answer m.after := by
  cases h with
  | answer _ _ hmoves hx => exact ⟨hmoves, hx⟩

theorem Course.earlier (later : List Moment) (h : Course S w p (later ++ ms) rest) :
    ∃ earlier, Course S w p ms earlier := by
  induction later generalizing rest with
  | nil => exact ⟨rest, h⟩
  | cons m later ih =>
    obtain ⟨_, h⟩ := h.tail
    exact ih h

/-- What holds of the moments so far and is kept by one more holds of all of them. -/
theorem Course.inv {may : Request → Past → Prop} {goal : α → Past → Prop}
    {I : List Moment → Prop} {past : List Moment} (h : Course S (w.along past) p ms rest)
    (hp : p.Keeps may goal []) (hstart : I past)
    (hstep : ∀ m ms before, I ms → S.moves (w.along ms) m.before →
      m.before.Answers S.faults m.turn.request m.turn.answer m.after →
      may m.turn.request before → I (m :: ms)) : I (ms ++ past) := by
  induction h with
  | start => exact hstart
  | answer h hhead hmoves hx ih =>
    have hask := (h.keeps hp).head
    rw [hhead] at hask
    rw [← Site.along_append] at hmoves
    exact hstep _ _ _ ih hmoves hx hask.1

end Prog

/-- What happens at an answer: an act of others before it, and a failure of the call, if any. -/
structure Incident where
  act : Site → Site
  failure : Option ApiError

namespace Incident

def none : Incident := ⟨id, .none⟩

def fault (e : ApiError) : Incident := ⟨id, some e⟩

def among (i : Incident) (S : Surroundings) : Prop :=
  (∀ w, S.moves w (i.act w)) ∧ ∀ e, i.failure = some e → S.faults e

theorem among_none : Incident.none.among .alone := ⟨fun _ => rfl, fun _ h => nomatch h⟩

def refusal : Incident := fault (.refused 500 "Internal Server Error" .none)

theorem among_refusal : refusal.among .alone := by
  refine ⟨fun _ => rfl, fun e he => ?_⟩
  cases he
  exact ⟨by decide, by decide⟩

def reply (i : Incident) (w : Site) : (q : Request) → q.Answer × Site
  | .call c =>
    match i.failure with
    | some e => (.error e, w)
    | .none => w.reply (.call c)
  | q => w.reply q

theorem answers_reply {i : Incident} {faults : ApiError → Prop}
    (h : ∀ e, i.failure = some e → faults e) (w : Site) (q : Request) :
    w.Answers faults q (i.reply w q).1 (i.reply w q).2 := by
  cases q with
  | call c =>
    rw [reply]
    split
    · next e he => exact .inr ⟨e, h e he, rfl, rfl⟩
    · exact w.answers_reply _
  | _ => exact w.answers_reply _

end Incident

namespace Prog

variable {α : Type}

def result? (p : Prog α) : Option α :=
  match p.head with
  | .done a => some a
  | .ask .. => none

theorem head_of_result? {p : Prog α} {a : α} (h : p.result? = some a) : p.head = .done a := by
  rw [result?] at h
  split at h
  · next b hb =>
    cases h
    exact hb
  · cases h

/-- A program among incidents, the latest first. -/
def replay (w : Site) (p : Prog α) : List Incident → List Moment × Prog α
  | [] => ([], p)
  | i :: is =>
    let before := replay w p is
    match before.2.head with
    | .done _ => before
    | .ask q k =>
      let v := i.act (w.along before.1)
      (⟨v, ⟨q, (i.reply v q).1⟩, (i.reply v q).2⟩ :: before.1, k (i.reply v q).1)

theorem course_replay {S : Surroundings} (w : Site) (p : Prog α) {is : List Incident}
    (h : ∀ i ∈ is, i.among S) : Course S w p (replay w p is).1 (replay w p is).2 := by
  induction is with
  | nil => exact .start
  | cons i is ih =>
    obtain ⟨hi, his⟩ := List.forall_mem_cons.1 h
    have hcourse := ih his
    rw [replay]
    split
    · exact hcourse
    · next q k hhead => exact .answer hcourse hhead (hi.1 _) (i.answers_reply hi.2 _ q)

theorem runs_replay {S : Surroundings} {w : Site} {p : Prog α} {is : List Incident} {a : α}
    (h : ∀ i ∈ is, i.among S) (ha : (replay w p is).2.result? = some a) :
    p.Runs S w (replay w p is).1 a :=
  ⟨_, course_replay w p h, head_of_result? ha⟩

end Prog

end VolumeExport
