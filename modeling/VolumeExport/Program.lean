import VolumeExport.Fault

namespace VolumeExport

inductive Request
  | call (c : Call)
  | sleep (span : Duration)
  /-- Waits for the signal to stop, but no longer than a span of time. -/
  | wait (span : Duration)
  /-- The seconds since some moment in the past, which only grow. -/
  | uptime
  /-- What these seconds will be at the end of a span that starts now. -/
  | deadline (span : Duration)
  /-- The time of day. -/
  | now
  | log (text : String)
  | track (volume : String)
  | untrack (volume : String)
  | isTracked (volume : String)
  deriving DecidableEq, Repr

namespace Request

/-- What answers a request; a wait is answered by whether the signal came. The time of day may be
one that has no date, and then there are no log lines either. -/
def Answer : Request → Type
  | .call c => Except ApiError c.Result
  | .sleep _ => Unit
  | .wait _ => Bool
  | .uptime => Rat
  | .deadline _ => Rat
  | .now => Except Instant.Fault Instant
  | .log _ => Except Instant.Fault Unit
  | .track _ => Unit
  | .untrack _ => Unit
  | .isTracked _ => Bool

end Request

/-- A program with a result: requests one after the other, each of which may depend on the answers
before it. A loop begins each round with the same request and goes on with a new state until a round
ends with a value. All that others may do happens between a request and its answer. -/
inductive Prog : Type → Type 1
  | done {α : Type} (a : α) : Prog α
  | ask {α : Type} (q : Request) (k : q.Answer → Prog α) : Prog α
  | loop {α σ β : Type} (s : σ) (q : Request) (round : σ → q.Answer → Prog (σ ⊕ β))
      (k : β → Prog α) : Prog α

namespace Prog

variable {α β γ σ : Type}

def bind : Prog α → (α → Prog β) → Prog β
  | .done a, f => f a
  | .ask q k, f => .ask q fun x => (k x).bind f
  | .loop s q round k, f => .loop s q round fun b => (k b).bind f

instance : Monad Prog where
  pure := .done
  bind := .bind

@[simp] theorem pure_eq (a : α) : (pure a : Prog α) = .done a := rfl

@[simp] theorem bind_eq (p : Prog α) (f : α → Prog β) : p >>= f = p.bind f := rfl

theorem bind_done (p : Prog α) : p.bind .done = p := by
  induction p with
  | done => rfl
  | ask q k ih =>
    simp only [bind]
    congr 1
    funext x
    exact ih x
  | loop s q round k _ ih =>
    simp only [bind]
    congr 1
    funext b
    exact ih b

theorem bind_assoc (p : Prog α) (f : α → Prog β) (g : β → Prog γ) :
    (p.bind f).bind g = p.bind fun a => (f a).bind g := by
  induction p with
  | done => rfl
  | ask q k ih =>
    simp only [bind]
    congr 1
    funext x
    exact ih x f
  | loop s q round k _ ih =>
    simp only [bind]
    congr 1
    funext b
    exact ih b f

instance : LawfulMonad Prog :=
  LawfulMonad.mk' Prog (fun p => bind_done p) (fun _ _ => rfl) (fun p f g => bind_assoc p f g)

/-- One request. -/
def request (q : Request) : Prog q.Answer := .ask q .done

/-- What a program does next: it ends, or it makes a request and goes on with the answer. -/
inductive Head (α : Type) : Type 1
  | done (a : α)
  | ask (q : Request) (k : q.Answer → Prog α)

def head : Prog α → Head α
  | .done a => .done a
  | .ask q k => .ask q k
  | .loop s q round k =>
    .ask q fun x => (round s x).bind fun
      | .inl s => .loop s q round k
      | .inr b => k b

/-- Something that answers requests and changes as it does. -/
abbrev Handler (σ : Type) := (q : Request) → σ → q.Answer × σ

/-- Runs a program with at most `fuel` requests; without a result if these are not enough. -/
def run (handler : Handler σ) : Nat → Prog α → σ → Option α × σ
  | 0, _, s => (none, s)
  | fuel + 1, p, s =>
    match p.head with
    | .done a => (some a, s)
    | .ask q k =>
      let (x, s) := handler q s
      run handler fuel (k x) s

end Prog

/-- A program that may fail. -/
abbrev Action := ExceptT Fault Prog

namespace Action

variable {α σ : Type}

def request (q : Request) : Action q.Answer := ExceptT.lift (.request q)

def fail (f : Fault) : Action α := throw f

/-- A call; a failure is left to the caller. -/
def call (c : Call) : Action (Except ApiError c.Result) := request (.call c)

def log (text : String) : Action Unit := do
  match ← request (.log text) with
  | .ok _ => return
  | .error e => fail (.clock e)

/-- The time of day, as far as there is one. -/
def now : Action (Except Instant.Fault Instant) := request .now

/-- The outcome of an action, which itself does not fail. -/
def outcome (a : Action α) : Action (Except Fault α) := ExceptT.lift a.run

/-- An action whose fault is seen in a wider setting. -/
def orElseFault (a : Action α) (f : Fault → Fault) : Action α := do
  match ← a.outcome with
  | .ok x => return x
  | .error e => fail (f e)

/-- Rounds that begin with a request, until one ends with a value or fails. -/
def rounds (s : σ) (q : Request) (round : σ → q.Answer → Action (σ ⊕ α)) : Action α :=
  ExceptT.mk <| .loop s q
    (fun s x => (round s x).run.bind fun
      | .ok (.inl s) => .done (.inl s)
      | .ok (.inr a) => .done (.inr (.ok a))
      | .error e => .done (.inr (.error e)))
    .done

/-- A value that may be a fault. -/
def ofExcept {ε : Type} (f : ε → Fault) (x : Except ε α) : Action α :=
  match x with
  | .ok a => return a
  | .error e => fail (f e)

/-- A volume is tracked while an action on it runs, however the action ends. -/
def tracking (volume : String) (a : Action α) : Action α := do
  request (.track volume)
  let r ← a.outcome
  request (.untrack volume)
  ofExcept id r

end Action

end VolumeExport
