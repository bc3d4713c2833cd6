import VolumeExport.Scenario.Act

namespace VolumeExport.Scenario

/-- Everything that outlives a step. -/
structure World where
  cluster : Cluster
  tracker : Tracker
  clock : Clock
  setup : Setup

/-- What an act gives back. -/
inductive Result
  | none
  | text (s : String)
  | flag (b : Bool)
  | texts (xs : List String)
  | spans (xs : List Duration)
  | object (o : Option Object)
  | objects (os : List Object)
  | config (c : Volume.Config)
  | modified (m : Access.Modified)
  deriving Repr

/-- Why an act fails. -/
inductive Failure
  | fault (cause : Fault)
  | illegible (cause : Illegible)
  | noEvent (name : String)
  | notStored
  /-- A namespace is missing, or is given for objects that live in none. -/
  | misplaced (r : Resource)
  /-- The use lacks the name or the body of its object. -/
  | incomplete
  /-- The act needs more requests than are allowed. -/
  | endless
  deriving Repr

abbrev Outcome := Except Failure Result

/-- What is recorded while a step runs. -/
inductive Entry
  | call (name : String) (namespaceName subject : Option String) (status : Int)
  | sleep (span : Duration)
  | act (act : Act) (outcome : Outcome)

/-- The world and what belongs to the step that runs. -/
structure State where
  world : World
  entries : List Entry
  logs : List String
  /-- How often each call was made in this step. -/
  counts : Dict Nat
  triggers : List Trigger
  naps : List (List Act)
  /-- The acts that fill the waits to come, whether the signal has come, and the waits so far. -/
  between : List (List Act)
  stopped : Bool
  waits : List Duration

namespace State

def record (s : State) (e : Entry) : State := { s with entries := s.entries ++ [e] }

def setWorld (s : State) (f : World → World) : State := { s with world := f s.world }

def advance (s : State) (seconds : Binary64) : State :=
  s.setWorld fun w => { w with clock := w.clock.advance seconds }

/-- Lets others act; nobody acts in between then. -/
def aside (others : List Act → State → State) (acts : List Act) (s : State) : State :=
  { others acts { s with triggers := [], naps := [] } with
    triggers := s.triggers
    naps := s.naps }

end State

def statusOf {α : Type} : Except ApiError α → Int
  | .ok _ => 200
  | .error e => e.status

/-- A call: others may act first, then the cluster answers. -/
def answerCall (others : List Act → State → State) (c : Call) (s : State) :
    Except ApiError c.Result × State :=
  let number := (s.counts.get? c.name).getD 0 + 1
  let s := { s with counts := s.counts.insert c.name number }
  let due := s.triggers.filter fun t => t.call = c.name && t.number = number
  let s := due.foldl (fun s t => s.aside others t.acts) s
  let (x, cluster) := s.world.cluster.answer c
  let s := s.setWorld fun w => { w with cluster := cluster }
  (x, s.record (.call c.name c.namespaceName c.subject (statusOf x)))

/-- A sleep ends when its time is over; then others may act. -/
def answerSleep (others : List Act → State → State) (span : Duration) (s : State) : State :=
  let s := (s.advance span.toReal).record (.sleep span)
  match s.naps with
  | [] => s
  | acts :: naps => State.aside others acts { s with naps := naps }

/-- A wait ends with the signal or when its time is over. -/
def answerWait (others : List Act → State → State) (span : Duration) (s : State) : Bool × State :=
  let s := { s with waits := s.waits ++ [span] }
  let s := match s.between with
    | [] => { s with stopped := true }
    | acts :: between => State.aside others acts { s with between := between }
  if s.stopped then (true, s) else (false, s.advance span.toReal)

/-- A line is written with the time in front, which there has to be. -/
def answerLog (text : String) (s : State) : Except Instant.Fault Unit × State :=
  match s.world.clock.now with
  | .ok _ => (.ok (), { s with logs := s.logs ++ [text] })
  | .error e => (.error e, s)

def answer (others : List Act → State → State) : Prog.Handler State
  | .call c, s => answerCall others c s
  | .sleep span, s => ((), answerSleep others span s)
  | .wait span, s => answerWait others span s
  | .uptime, s => (s.world.clock.uptime, s)
  | .deadline span, s => ((s.world.clock.advance span.toReal).uptime, s)
  | .now, s => (s.world.clock.now, s)
  | .log text, s => answerLog text s
  | .track volume, s => ((), s.setWorld fun w => { w with tracker := w.tracker.add volume })
  | .untrack volume, s => ((), s.setWorld fun w => { w with tracker := w.tracker.erase volume })
  | .isTracked volume, s => (s.world.tracker.contains volume, s)

/-- How many requests one act may make. -/
def requestLimit : Nat := 1000000000

def perform {α : Type} (others : List Act → State → State) (a : Action α) (f : α → Result)
    (s : State) : Outcome × State :=
  match Prog.run (answer others) requestLimit a.run s with
  | (some (.ok x), s) => (.ok (f x), s)
  | (some (.error e), s) => (.error (.fault e), s)
  | (none, s) => (.error .endless, s)

/-- The stored object of a kind with a name, in any namespace. -/
def World.find? (w : World) (r : Resource) (name : String) : Option Object :=
  (w.cluster.store.entries.find? fun e => e.1.resource = r && e.1.name = some name).map (·.2)

def World.object? (w : World) (r : Resource) : Subject → Option Object
  | .given o => some o
  | .stored name => w.find? r name

def useAction (r : Resource) : Usage → Action Result
  | .get ns name => Result.object <$> Access.get r ns name
  | .create ns (some body) => Result.object <$> Access.create r ns body
  | .create _ none => .fail (.absent "metadata")
  | .delete ns name => Result.flag <$> Access.delete r ns name
  | .list ns selector => Result.objects <$> Access.listAll r ns selector
  | .modify ns name edit => Result.modified <$> Access.modify r ns name fun _ o => edit.apply o

def change (s : State) (f : World → World) : Outcome × State := (.ok .none, s.setWorld f)

def changeCluster (s : State) (f : Cluster → Cluster) : Outcome × State :=
  change s fun w => { w with cluster := f w.cluster }

/-- Stores an object, which needs metadata for that. -/
def store (r : Resource) (o : Object) (s : State) : Outcome × State :=
  match o.metadata with
  | some _ => changeCluster s (·.put r o)
  | none => (.error (.fault (.absent "name")), s)

/-- Stores an object with a patch merged into it. -/
def patch (k : Key) (merge : Json) (s : State) : Outcome × State :=
  match s.world.cluster.store.get? k with
  | some o =>
    match Object.merge s.world.clock.start.date k.resource.form o merge with
    | .ok o => store k.resource o s
    | .error e => (.error (.illegible (.object e)), s)
  | none => (.error .notStored, s)

/-- Makes a volume and, if asked, stores it. -/
def provide (others : List Act → State → State) (volume : String) (claim storageClass : Subject)
    (save : Bool) (s : State) : Outcome × State :=
  match s.world.object? .claim claim, s.world.object? .storageClass storageClass with
  | some c, some sc =>
    let action := Provisioning.provide s.world.setup ⟨volume, c, sc⟩
    match perform others action (fun o => .object (some o)) s with
    | (.ok (.object (some o)), s) =>
      let s := if save then (changeCluster s (·.put .volume o)).2 else s
      (.ok (.object (some o)), s)
    | other => other
  | _, _ => (.error .notStored, s)

/-- The object after the hooks of an event, by the name of the event. -/
def applyHooks (target : Hook.Target) (event kind : String) (o : Object) (s : State) :
    Outcome :=
  match Hook.Event.ofName? event with
  | none => .error (.noEvent event)
  | some event =>
    match s.world.setup.hooks.apply target event s.world.clock.now kind o with
    | .ok o => .ok (.object (some o))
    | .error (.mismatch m) => .error (.fault (.mismatch m))
    | .error (.clock e) => .error (.fault (.clock e))

/-- Runs the collector with waits of its own. -/
def collect (others : List Act → State → State) (stopped : Bool) (between : List (List Act))
    (s : State) : Outcome × State :=
  let inner := { s with between := between, stopped := stopped, waits := [] }
  let (x, t) := perform others (Collector.serve s.world.setup) (fun _ => .none) inner
  (x.map fun _ => .spans t.waits,
    { t with between := s.between, stopped := s.stopped, waits := s.waits })

def performAct (others : List Act → State → State) (act : Act) (s : State) : Outcome × State :=
  let setup := s.world.setup
  match act with
  | .put r o => store r o s
  | .remove k => changeCluster s fun c => { c with store := c.store.erase k }
  | .patch k merge => patch k merge s
  | .fail call f => changeCluster s fun c => { c with failing := c.failing.insert call f }
  | .unfail call => changeCluster s fun c => { c with failing := c.failing.erase call }
  | .behave binds assigns =>
    changeCluster s fun c =>
      { c with binds := binds.getD c.binds, assigns := assigns.getD c.assigns }
  | .advance seconds => (.ok .none, s.advance seconds)
  | .reconfigure settings document =>
    match document.mapM Hooks.load with
    | .ok hooks =>
      change s fun w =>
        { w with setup := ⟨settings.getD setup.settings, hooks.getD setup.hooks⟩ }
    | .error e => (.error (.fault (.hooks e)), s)
  | .track volume => change s fun w => { w with tracker := w.tracker.add volume }
  | .untrack volume => change s fun w => { w with tracker := w.tracker.erase volume }
  | .isTracked volume => (.ok (.flag (s.world.tracker.contains volume)), s)
  | .createBacking volume plan => perform others (Backing.create setup volume plan) .text s
  | .deleteBacking volume => perform others (Backing.delete setup volume) (fun _ => .none) s
  | .provide volume claim storageClass save => provide others volume claim storageClass save s
  | .withdraw volume =>
    match s.world.object? .volume volume with
    | some o => perform others (Provisioning.withdraw setup o) (fun _ => .none) s
    | none => (.error .notStored, s)
  | .sweep => perform others (Collector.sweep setup) .texts s
  | .collect stopped between => collect others stopped between s
  | .resolve claim defaults =>
    let entries := defaults.getD (Volume.Config.defaultEntries setup.settings)
    perform others (Claim.config claim entries) .config s
  | .claimed claim => perform others (Controller.claimed setup claim) .texts s
  | .released volume => perform others (Controller.released setup volume) .texts s
  | .use r usage => perform others (useAction r usage) id s
  | .applyHooks target event kind o => (applyHooks target event kind o s, s)
  | .illegible _ cause => (.error (.illegible cause), s)

/-- Acts of others, one inside the other at most `depth` deep. -/
def performAll : Nat → List Act → State → State
  | 0, _, s => s
  | depth + 1, acts, s =>
    acts.foldl (fun s act =>
      let (x, s) := performAct (performAll depth) act s
      s.record (.act act x)) s

/-- What is shown of a step. -/
structure Report where
  outcome : Outcome
  entries : List Entry
  logs : List String
  /-- Objects that are new or have changed. -/
  changed : List (Key × Object)
  gone : List Key

def changed (before after : Store) : List (Key × Object) :=
  after.entries.filter fun e => before.get? e.1 ≠ some e.2

def gone (before after : Store) : List Key :=
  (before.entries.map (·.1)).filter fun k => !after.contains k

def runStep (step : Step) (w : World) : Report × World :=
  let start : State :=
    { world := w, entries := [], logs := [], counts := ∅, triggers := step.triggers,
      naps := step.naps, between := [], stopped := false, waits := [] }
  let (x, s) := performAct (performAll step.depth) step.act start
  let before := w.cluster.store
  let after := s.world.cluster.store
  (⟨x, s.entries, s.logs, changed before after, gone before after⟩, s.world)

def run : List Step → World → List Report
  | [], _ => []
  | step :: steps, w =>
    let (report, w) := runStep step w
    report :: run steps w

/-- A world with some objects, put there in order. -/
def World.start (setup : Setup) (now : Instant) (binds assigns : Bool)
    (objects : List (Resource × Object)) : World where
  cluster := objects.foldl (fun c p => c.put p.1 p.2)
    { Cluster.empty with binds := binds, assigns := assigns }
  tracker := .empty
  clock := .ofInstant now
  setup := setup

end VolumeExport.Scenario
