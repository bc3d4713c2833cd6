import VolumeExport.Cluster.Http
import VolumeExport.Scenario.Run

namespace VolumeExport.Scenario

/-- The responses to come and the requests so far. -/
structure Exchange where
  responses : List Http.Response
  sent : List Http.Request
  clock : Clock

namespace Exchange

/-- A request that nobody responds to. -/
def silence : ApiError := .refused 0 "No Response" none

def answerCall (c : Call) (x : Exchange) : Except ApiError c.Result × Exchange :=
  match Http.Request.ofCall c with
  | .error e => (.error e, x)
  | .ok request =>
    let x := { x with sent := x.sent ++ [request] }
    match x.responses with
    | [] => (.error silence, x)
    | r :: rs => (r.read x.clock.start.date c, { x with responses := rs })

/-- Only calls and the time matter: nothing else happens while a single use lasts. -/
def answer : Prog.Handler Exchange
  | .call c, x => answerCall c x
  | .now, x => (x.clock.now, x)
  | .sleep _, x => ((), x)
  | .wait _, x => (true, x)
  | .uptime, x => (x.clock.uptime, x)
  | .deadline span, x => ((x.clock.advance span.toReal).uptime, x)
  | .log _, x => (.ok (), x)
  | .track _, x => ((), x)
  | .untrack _, x => ((), x)
  | .isTracked _, x => (false, x)

/-- Whether a use names a namespace if and only if the kind's objects live in one. -/
def isPlaced (r : Resource) (usage : Usage) : Bool :=
  usage.namespaceName.isSome == r.isNamespaced

/-- A result as it is shown: its objects have to be such that can be written. -/
def shown (r : Resource) (result : Result) : Outcome :=
  let objects := match result with
    | .object o => o.toList
    | .objects os => os
    | .modified m => m.object.toList
    | _ => []
  match objects.mapM fun o => o.written r.form with
  | .ok _ => .ok result
  | .error cause => .error (.fault (.api (.unreadable cause)))

/-- The outcome of a use of the objects of a kind, and the requests that it made. -/
def run (x : Exchange) (r : Resource) (usage : Usage) : Outcome × List Http.Request :=
  if !isPlaced r usage then (.error (.misplaced r), x.sent)
  else if usage.isIncomplete then (.error .incomplete, x.sent)
  else
    match Prog.run answer requestLimit (useAction r usage).run x with
    | (some (.ok result), x) => (shown r result, x.sent)
    | (some (.error e), x) => (.error (.fault e), x.sent)
    | (none, x) => (.error .endless, x.sent)

end Exchange

end VolumeExport.Scenario
