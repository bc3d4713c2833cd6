import VolumeExport.Text.Letter

namespace VolumeExport

/-- A number with zeros in front, at least `width` characters. -/
def padded (width n : Nat) : String :=
  let ds := Nat.toDigits 10 n
  String.ofList (List.replicate (width - ds.length) '0' ++ ds)

structure Date where
  year : Nat
  month : Nat
  day : Nat
  deriving DecidableEq, Repr

namespace Date

def isLeap (year : Nat) : Bool := year % 4 = 0 && (year % 100 ≠ 0 || year % 400 = 0)

def daysInMonth (year month : Nat) : Nat :=
  if month = 2 then (if isLeap year then 29 else 28)
  else if month ∈ [4, 6, 9, 11] then 30
  else 31

inductive Fault
  | noYear (number : Nat)
  | noMonth
  | noDay
  deriving DecidableEq, Repr

def Fault.message : Fault → String
  | .noYear number => s!"year {number} is out of range"
  | .noMonth => "month must be in 1..12"
  | .noDay => "day is out of range for month"

/-- A date of the years 1 to 9999. -/
def of (year month day : Nat) : Except Fault Date :=
  if year < 1 ∨ 9999 < year then .error (.noYear year)
  else if month < 1 ∨ 12 < month then .error .noMonth
  else if day < 1 ∨ daysInMonth year month < day then .error .noDay
  else .ok ⟨year, month, day⟩

/-- Years that begin in March put the leap day last; an era has 400 of them. Days are counted
from 1 January 1970. -/
def toDays (d : Date) : Int :=
  let y : Int := if d.month ≤ 2 then d.year - 1 else d.year
  let era := y.fdiv 400
  let yearOfEra := y - era * 400
  let m : Int := if d.month ≤ 2 then d.month + 9 else d.month - 3
  let dayOfYear := (153 * m + 2) / 5 + d.day - 1
  let dayOfEra := yearOfEra * 365 + yearOfEra / 4 - yearOfEra / 100 + dayOfYear
  era * 146097 + dayOfEra - 719468

def ofDays (days : Int) : Date :=
  let z := days + 719468
  let era := z.fdiv 146097
  let dayOfEra := z - era * 146097
  let yearOfEra :=
    (dayOfEra - dayOfEra / 1460 + dayOfEra / 36524 - dayOfEra / 146096) / 365
  let dayOfYear := dayOfEra - (365 * yearOfEra + yearOfEra / 4 - yearOfEra / 100)
  let m := (5 * dayOfYear + 2) / 153
  let day := dayOfYear - (153 * m + 2) / 5 + 1
  let month := if m < 10 then m + 3 else m - 9
  let year := yearOfEra + era * 400 + (if month ≤ 2 then 1 else 0)
  ⟨year.toNat, month.toNat, day.toNat⟩

def iso (d : Date) : String := padded 4 d.year ++ "-" ++ padded 2 d.month ++ "-" ++ padded 2 d.day

end Date

/-- A time of day to the microsecond. -/
structure TimeOfDay where
  hour : Nat
  minute : Nat
  second : Nat
  microsecond : Nat
  deriving DecidableEq, Repr

namespace TimeOfDay

inductive Fault
  | noHour
  | noMinute
  | noSecond
  deriving DecidableEq, Repr

def Fault.message : Fault → String
  | .noHour => "hour must be in 0..23"
  | .noMinute => "minute must be in 0..59"
  | .noSecond => "second must be in 0..59"

def of (hour minute second microsecond : Nat) : Except Fault TimeOfDay :=
  if 23 < hour then .error .noHour
  else if 59 < minute then .error .noMinute
  else if 59 < second then .error .noSecond
  else .ok ⟨hour, minute, second, microsecond⟩

def toMicroseconds (t : TimeOfDay) : Nat :=
  ((t.hour * 60 + t.minute) * 60 + t.second) * 1000000 + t.microsecond

def ofMicroseconds (n : Nat) : TimeOfDay :=
  ⟨n / 3600000000, n / 60000000 % 60, n / 1000000 % 60, n % 1000000⟩

def clock (t : TimeOfDay) : String :=
  padded 2 t.hour ++ ":" ++ padded 2 t.minute ++ ":" ++ padded 2 t.second

/-- The fraction is left out if it is zero. -/
def iso (t : TimeOfDay) : String :=
  t.clock ++ if t.microsecond = 0 then "" else "." ++ padded 6 t.microsecond

end TimeOfDay

/-- A difference from universal time, in seconds. -/
structure Offset where
  seconds : Int
  deriving DecidableEq, Repr

namespace Offset

def secondsPerDay : Nat := 86400

/-- Days and a rest that is not negative. -/
def split (o : Offset) : Int × Nat :=
  (o.seconds.fdiv secondsPerDay, (o.seconds.fmod secondsPerDay).toNat)

/-- Shown as a constructor of a difference of times, zero fields left out. -/
def span (o : Offset) : String :=
  let (days, seconds) := o.split
  let fields := (if days = 0 then [] else [s!"days={days}"]) ++
    (if seconds = 0 then [] else [s!"seconds={seconds}"])
  "datetime.timedelta(" ++ (if fields = [] then "0" else ", ".intercalate fields) ++ ")"

/-- Differences of a day or more are refused. -/
def isValid (o : Offset) : Bool := o.seconds.natAbs < secondsPerDay

def faultMessage (o : Offset) : String :=
  "offset must be a timedelta strictly between -timedelta(hours=24) and " ++
    s!"timedelta(hours=24), not {o.span}."

def iso (o : Offset) : String :=
  let n := o.seconds.natAbs
  let rest := n % 60
  (if o.seconds < 0 then "-" else "+") ++ padded 2 (n / 3600) ++ ":" ++ padded 2 (n / 60 % 60) ++
    if rest = 0 then "" else ":" ++ padded 2 rest

def shown (o : Offset) : String :=
  if o.seconds = 0 then "datetime.timezone.utc" else s!"datetime.timezone({o.span})"

end Offset

/-- A date with a time of day, at a known offset or none. -/
structure DateTime where
  date : Date
  time : TimeOfDay
  offset : Option Offset
  deriving DecidableEq, Repr

namespace DateTime

def joined (separator : String) (t : DateTime) : String :=
  t.date.iso ++ separator ++ t.time.iso ++ (t.offset.map Offset.iso).getD ""

def iso : DateTime → String := joined "T"

def spaced : DateTime → String := joined " "

end DateTime

def Date.shown (d : Date) : String := s!"datetime.date({d.year}, {d.month}, {d.day})"

/-- Trailing zeros of the time of day are left out, but not the minutes. -/
def DateTime.shown (t : DateTime) : String :=
  let tail :=
    if t.time.microsecond ≠ 0 then [t.time.second, t.time.microsecond]
    else if t.time.second ≠ 0 then [t.time.second]
    else []
  let numbers := [t.date.year, t.date.month, t.date.day, t.time.hour, t.time.minute] ++ tail
  let offset := (t.offset.map fun o => [s!"tzinfo={o.shown}"]).getD []
  "datetime.datetime(" ++ ", ".intercalate (numbers.map toString ++ offset) ++ ")"

/-- A span of time in microseconds. -/
structure Duration where
  microseconds : Int
  deriving DecidableEq, Repr

namespace Duration

def ofSeconds (n : Int) : Duration := ⟨n * 1000000⟩

/-- The whole seconds, toward zero. -/
def seconds (d : Duration) : Int := d.microseconds.tdiv 1000000

instance : LE Duration := ⟨fun a b => a.microseconds ≤ b.microseconds⟩

instance (a b : Duration) : Decidable (a ≤ b) :=
  inferInstanceAs (Decidable (a.microseconds ≤ b.microseconds))

def microsecondsPerDay : Nat := 86400000000

/-- Spans are held as days, no more than this many, and a rest that is not negative. -/
def maxDays : Nat := 999999999

def days (d : Duration) : Int := d.microseconds.fdiv microsecondsPerDay

def isRepresentable (d : Duration) : Bool := d.days.natAbs ≤ maxDays

end Duration

/-- A point in time, in microseconds from 1 January 1970, universal time. -/
structure Instant where
  microseconds : Int
  deriving DecidableEq, Repr

namespace Instant

open Duration (microsecondsPerDay)

inductive Fault
  /-- A time before the year 1 or after the year 9999. -/
  | noDate
  /-- A span of time that cannot be held. -/
  | noSpan (days : Int)
  /-- A span of time without an end. -/
  | endless
  /-- A span of time that is no number. -/
  | noNumber
  deriving DecidableEq, Repr

/-- Counts of days up to this one can be compared with the greatest that can be held. -/
def maxCount : Nat := 0x7fffffff

def Fault.message : Fault → String
  | .noDate => "date value out of range"
  | .noSpan days =>
    if days.natAbs ≤ maxCount then
      s!"days={days}; must have magnitude <= {Duration.maxDays}"
    else "Python int too large to convert to C int"
  | .endless => "cannot convert float infinity to integer"
  | .noNumber => "cannot convert float NaN to integer"

def add (t : Instant) (d : Duration) : Instant := ⟨t.microseconds + d.microseconds⟩

def ofDateTime (date : Date) (time : TimeOfDay) : Instant :=
  ⟨date.toDays * microsecondsPerDay + time.toMicroseconds⟩

def date (t : Instant) : Date := .ofDays (t.microseconds.fdiv microsecondsPerDay)

def time (t : Instant) : TimeOfDay :=
  .ofMicroseconds (t.microseconds.fmod microsecondsPerDay).toNat

/-- The first moment of the year 1, and that of the year 10000. -/
def first : Instant := ofDateTime ⟨1, 1, 1⟩ ⟨0, 0, 0, 0⟩

def afterLast : Instant := ofDateTime ⟨10000, 1, 1⟩ ⟨0, 0, 0, 0⟩

/-- Whether the time has a date. -/
def isDated (t : Instant) : Bool :=
  first.microseconds ≤ t.microseconds && t.microseconds < afterLast.microseconds

/-- The text of a timestamp, to the second; the year has no zeros in front. -/
def rfc3339 (t : Instant) : String :=
  s!"{t.date.year}-{padded 2 t.date.month}-{padded 2 t.date.day}T{t.time.clock}Z"

/-- A log line: the time in colour, a blank, the text. -/
def logLine (t : Instant) (text : String) : String :=
  s!"\x1b[36m[{t.date.year}-{padded 2 t.date.month}-{padded 2 t.date.day} {t.time.clock}" ++
    s!".{padded 6 t.time.microsecond}]\x1b[0m {text}"

/-- Reads `2024-01-02T03:04:05`, which may have a fraction of up to six digits. -/
def ofIso? (text : String) : Option Instant := do
  let (before, fraction) := match text.toList.span (· ≠ '.') with
    | (before, '.' :: fraction) => (before, fraction)
    | (before, _) => (before, [])
  let numbers := (before.splitBy fun a b => a.isDigit = b.isDigit).filterMap fun cs =>
    (String.ofList cs).toNat?
  let micro ← (String.ofList (fraction ++ List.replicate (6 - fraction.length) '0')).toNat?
  match numbers with
  | [year, month, day, hour, minute, second] =>
    let date ← (Date.of year month day).toOption
    let time ← (TimeOfDay.of hour minute second micro).toOption
    some (ofDateTime date time)
  | _ => none

end Instant

end VolumeExport
