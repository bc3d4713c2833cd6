import VolumeExport.Calendar
import VolumeExport.Number.Binary64

namespace VolumeExport

namespace Duration

/-- The span, if it can be held. -/
def checked (d : Duration) : Except Instant.Fault Duration :=
  if d.isRepresentable then .ok d else .error (.noSpan d.days)

/-- The span of a number of seconds, a tie between microseconds going to the even one. The fraction
is turned into microseconds in the format of its number. -/
def ofReal (x : Binary64) : Except Instant.Fault Duration :=
  match x with
  | .nan => .error .noNumber
  | .infinite _ => .error .endless
  | x =>
    match x.split? with
    | some (whole, fraction) =>
      let part := (Binary64.ofInt 1000000).mul fraction
      checked ⟨whole * 1000000 + part.nearest?.getD 0⟩
    | none => .error .noNumber

def toReal (d : Duration) : Binary64 :=
  .ofRatio (d.microseconds < 0) d.microseconds.natAbs 1000000

end Duration

/-- The time at which a clock was started and the seconds since then. The seconds are a real number,
which grows by addition in its format. -/
structure Clock where
  start : Instant
  elapsed : Binary64
  deriving DecidableEq, Repr

namespace Clock

def ofInstant (start : Instant) : Clock := ⟨start, .zero false⟩

/-- The clock some seconds later. -/
def advance (c : Clock) (seconds : Binary64) : Clock :=
  { c with elapsed := c.elapsed.add seconds }

/-- The seconds since the start; none if they cannot be told. -/
def uptime (c : Clock) : Rat := c.elapsed.toRat?.getD 0

/-- The time of day, if there is a date for it. -/
def now (c : Clock) : Except Instant.Fault Instant := do
  let t := c.start.add (← Duration.ofReal c.elapsed)
  if t.isDated then return t else throw .noDate

end Clock

end VolumeExport
