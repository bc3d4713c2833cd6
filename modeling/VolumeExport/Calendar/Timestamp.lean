import VolumeExport.Calendar
import VolumeExport.Calendar.Timestamp.Amount
import VolumeExport.Calendar.Timestamp.DateParts
import VolumeExport.Calendar.Timestamp.Vocabulary

namespace VolumeExport

namespace Timestamp

/-- What the lexemes so far have given. -/
structure Fields where
  date : DateParts
  weekday : Option Nat
  hour : Option Nat
  minute : Option Nat
  second : Option Nat
  microsecond : Option Nat
  zone : Option Lexeme
  /-- The seconds by which the zone is ahead of universal time. -/
  ahead : Option Int
  /-- Whether the name of a zone came right before, so that a sign means the opposite. -/
  isReversed : Bool

namespace Fields

def empty : Fields := ⟨.empty, none, none, none, none, none, none, none, false⟩

/-- One more number of the date, as it is written. -/
def addText? (f : Fields) (t : Lexeme) (role : Role) : Option Fields := do
  return { f with date := ← f.date.add? (← whole? t) (2 < t.length) role }

def addMonth? (f : Fields) (month : Nat) : Option Fields := do
  return { f with date := ← f.date.add? month false .month }

/-- One more number of the date by its value; what is beyond a hundred is a year. -/
def addAmount? (f : Fields) (a : Amount) : Option Fields := do
  return { f with date := ← f.date.add? a.whole (a.exceeds 100) .any }

/-- A month by its name, or a number. -/
def addNamed? (f : Fields) (t : Lexeme) : Option Fields :=
  match t.month? with
  | some month => f.addMonth? month
  | none => f.addText? t .any

/-- An hour, which a half of the day turns into one of twenty-four. -/
def setHour (f : Fields) (isAfternoon : Bool) (hour : Nat) : Fields :=
  let hour :=
    if isAfternoon ∧ hour < 12 then hour + 12
    else if !isAfternoon ∧ hour = 12 then 0
    else hour
  { f with hour := some hour }

/-- Whether a number can be the day of the month. The month is known if its name came before, and
may have the days that it has in a leap year as long as there is no year. -/
def canBeDay (f : Fields) (a : Amount) : Bool :=
  let most := match f.date.monthAt.bind (f.date.numbers[·]?) with
    | none => DateParts.maxDay
    | some month =>
      Date.daysInMonth ((f.date.yearAt.bind (f.date.numbers[·]?)).getD 2000) month
  a.unit ≤ a.coefficient && !a.exceeds most

end Fields

/-! ### Numbers -/

open Lexeme (Measure)

/-- The measure that a number is given in: the word behind it, which a blank may separate. -/
def measureBehind? : List Lexeme → Option (Measure × Nat)
  | [] => none
  | t :: after =>
    match t.measure? with
    | some m => some (m, 1)
    | none => if t = [' '] then (after.head?.bind Lexeme.measure?).map (·, 2) else none

/-- The measure of the number before; only at the end of the text a blank may follow it. -/
def measureBefore? (before after : List Lexeme) : Option Measure :=
  match before with
  | [] => none
  | t :: before =>
    match t.measure? with
    | some m => some m
    | none => if after = [] ∧ t = [' '] then before.head?.bind Lexeme.measure? else none

/-- A number in some measure; its fraction is given in the next smaller one. -/
def setMeasured (t : Lexeme) (a : Amount) (f : Fields) : Measure → Except Fault Fields
  | .hour => do
    return { f with hour := some a.whole, minute := (← a.sixtieths?).or f.minute }
  | .minute => do return { f with minute := some a.whole, second := ← a.sixtieths? }
  | .second => do
    let (second, microsecond) ← found (seconds? t)
    return { f with second, microsecond }

/-- The measure below another one, for a number without one that follows it. -/
def nextMeasure? : Measure → Option Measure
  | .hour => some .minute
  | .minute => some .second
  | .second => none

/-- Hours and minutes without a mark between them, behind a whole date. -/
def compactHour (t : Lexeme) (f : Fields) : Except Fault Fields := do
  let hour ← found (whole? (t.take 2))
  if t.length = 2 then return { f with hour }
  else return { f with hour, minute := ← found (whole? (t.drop 2)) }

/-- Six digits: a date if there is none yet, otherwise hours, minutes and seconds. -/
def compactSix (t : Lexeme) (f : Fields) : Except Fault Fields := do
  if f.date.numbers = [] ∧ !t.contains '.' then
    let f ← found (f.addText? (t.take 2) .any)
    let f ← found (f.addText? ((t.drop 2).take 2) .any)
    found (f.addText? (t.drop 4) .any)
  else
    let hour ← found (whole? (t.take 2))
    let minute ← found (whole? ((t.drop 2).take 2))
    let (second, microsecond) ← found (seconds? (t.drop 4))
    return { f with hour, minute, second, microsecond }

/-- Eight digits of a date, which those of a time of day may follow. -/
def compactDate (t : Lexeme) (f : Fields) : Except Fault Fields := do
  let f ← found (f.addText? (t.take 4) .year)
  let f ← found (f.addText? ((t.drop 4).take 2) .any)
  let f ← found (f.addText? ((t.drop 6).take 2) .any)
  if t.length = 8 then return f
  let hour ← found (whole? ((t.drop 8).take 2))
  let minute ← found (whole? ((t.drop 10).take 2))
  if t.length = 12 then return { f with hour, minute }
  return { f with hour, minute, second := ← found (whole? (t.drop 12)) }

def isColon (t : Lexeme) : Bool := t = [':']

/-- Hours, and behind a colon minutes, and behind another one seconds. -/
def readClock (a : Amount) (minutes : Lexeme) (after : List Lexeme) (f : Fields) :
    Except Fault (Fields × Nat) := do
  let m ← found (Amount.ofLexeme? minutes)
  let f := { f with hour := some a.whole, minute := some m.whole, second := ← m.sixtieths? }
  match after with
  | colon :: seconds :: _ =>
    if isColon colon then
      let (second, microsecond) ← found (seconds? seconds)
      return ({ f with second, microsecond }, 4)
    else return (f, 2)
  | _ => return (f, 2)

def isSeparator (t : Lexeme) : Bool := t = ['-'] || t = ['/'] || t = ['.']

/-- The parts of a date behind a separator; a third part has the same separator in front. -/
def readSeparated (t separator : Lexeme) (after : List Lexeme) (f : Fields) :
    Except Fault (Fields × Nat) := do
  let f ← found (f.addText? t .any)
  match after with
  | [] => return (f, 1)
  | second :: after =>
    if second.isFiller then return (f, 1)
    else
      let f ← found (f.addNamed? second)
      match after with
      | [] => return (f, 2)
      | mark :: after =>
        if mark = separator then
          return (← found (f.addNamed? (← found after.head?)), 4)
        else return (f, 2)

/-- A number on its own: an hour if a half of the day follows, otherwise a part of the date. -/
def readAlone (a : Amount) (after : List Lexeme) (f : Fields) : Except Fault (Fields × Nat) :=
  match (after[1]?).bind Lexeme.isAfternoon? with
  | some isAfternoon => .ok (f.setHour isAfternoon a.whole, 2)
  | none => do return (← found (f.addAmount? a), 1)

/-- A number right in front of a word. -/
def readJoined (a : Amount) (word : Lexeme) (f : Fields) : Except Fault (Fields × Nat) :=
  match word.isAfternoon?.filter fun _ => a.whole < 24 with
  | some isAfternoon => .ok (f.setHour isAfternoon a.whole, 1)
  | none =>
    if f.canBeDay a then do return (← found (f.addAmount? a), 0) else .error .unreadable

/-- A number, with the lexemes before and behind it. The lexemes behind it that it uses up are
counted. -/
def readNumber (before : List Lexeme) (t : Lexeme) (a : Amount) (after : List Lexeme)
    (f : Fields) : Except Fault (Fields × Nat) := do
  let n := t.length
  let next := after.head?
  let isFree := !next.any fun s => isColon s || s.measure?.isSome
  if f.date.numbers.length = 3 ∧ n ∈ [2, 4] ∧ f.hour = none ∧ isFree then
    return (← compactHour t f, 0)
  else if n = 6 ∨ (6 < n ∧ t.idxOf '.' = 6) then return (← compactSix t f, 0)
  else if n ∈ [8, 12, 14] then return (← compactDate t f, 0)
  else
    match measureBehind? after, measureBefore? before after with
    | some (m, used), _ => return (← setMeasured t a f m, used)
    | none, some m =>
      match nextMeasure? m with
      | some m => return (← setMeasured t a f m, 0)
      | none => return (f, 0)
    | none, none =>
      match after with
      | [] => readAlone a [] f
      | mark :: rest =>
        if isColon mark ∧ rest ≠ [] then readClock a (rest.headD []) (rest.drop 1) f
        else if isSeparator mark then readSeparated t mark rest f
        else if mark.isFiller then readAlone a after f
        else readJoined a mark f

/-! ### Words and marks -/

/-- The full year of two digits: those from 76 on belong to the last century. -/
def fullYear (year : Nat) : Nat :=
  if year < 76 then year + 2000 else if year < 100 then year + 1900 else year

/-- A month by its name. The day and the year may follow behind the same separator, or the year
behind `of`. -/
def readMonth (month : Nat) (after : List Lexeme) (f : Fields) : Except Fault (Fields × Nat) := do
  let f ← found (f.addMonth? month)
  match after with
  | [] => return (f, 0)
  | mark :: rest =>
    if mark = ['-'] ∨ mark = ['/'] then
      let f ← found (f.addText? (← found rest.head?) .any)
      if rest[1]? = some mark then
        return (← found (f.addText? (← found rest[2]?) .any), 4)
      else return (f, 2)
    else
      match rest with
      | joint :: blank :: year :: _ =>
        if mark = [' '] ∧ blank = [' '] ∧ joint.isPossessive then
          if year.all fun c => (Text.digitValue? c).isSome || Text.isDigitMark c then
            let n := fullYear (← found (whole? year))
            return ({ f with date := ← found (f.date.add? n true .year) }, 4)
          else return (f, 4)
        else return (f, 0)
      | _ => return (f, 0)

/-- A half of the day, behind an hour of twelve. -/
def readHalf (isAfternoon : Bool) (f : Fields) : Except Fault Fields := do
  let hour ← found f.hour
  if hour ≤ 12 then return f.setHour isAfternoon hour else throw .unreadable

/-- Whether a word is taken for the name of the zone: there is a time of day but no zone yet. -/
def isZone (t : Lexeme) (f : Fields) : Bool :=
  f.hour.isSome && f.zone.isNone && f.ahead.isNone && t.isZoneName

/-- The name of a zone. If a sign follows, it says how far universal time is ahead of the zone; then
a name of universal time is none of the zone. -/
def readZone (t : Lexeme) (after : List Lexeme) (f : Fields) : Fields :=
  if after.head?.any Lexeme.isSign then
    { f with zone := if t.isUniversal then none else some t, isReversed := true }
  else { f with zone := some t }

/-- The name of a zone in brackets, behind an offset and a filler. -/
def bracketedZone? (after : List Lexeme) (f : Fields) : Option Lexeme :=
  match after with
  | filler :: opening :: name :: closing :: _ =>
    if filler.isFiller ∧ opening = ['('] ∧ closing = [')'] ∧ 3 ≤ name.length ∧
        isZone name { f with ahead := none } then
      some name
    else none
  | _ => none

/-- Hours and minutes behind a sign: four digits, or two numbers with a colon between them, or hours
alone. -/
def readOffset (isAhead : Bool) (after : List Lexeme) (f : Fields) :
    Except Fault (Fields × Nat) := do
  let t ← found after.head?
  let (hours, minutes, used) ←
    if t.length = 4 then
      pure (← found (whole? (t.take 2)), ← found (whole? (t.drop 2)), 1)
    else if (after[1]?).any isColon then
      pure (← found (whole? t), ← found ((after[2]?).bind whole?), 3)
    else if t.length ≤ 2 then pure (← found (whole? t), 0, 1)
    else throw .unreadable
  let n : Int := hours * 3600 + minutes * 60
  let f := { f with ahead := some (if isAhead = f.isReversed then -n else n), isReversed := false }
  match bracketedZone? (after.drop used) f with
  | some name => return ({ f with zone := some name }, used + 4)
  | none => return (f, used)

/-- A lexeme that is no number. -/
def readWord (t : Lexeme) (after : List Lexeme) (f : Fields) : Except Fault (Fields × Nat) := do
  match t.weekday?, t.month?, t.isAfternoon? with
  | some day, _, _ => return ({ f with weekday := some day }, 0)
  | none, some month, _ => readMonth month after f
  | none, none, some isAfternoon => return (← readHalf isAfternoon f, 0)
  | none, none, none =>
    if isZone t f then return (readZone t after f, 0)
    else if f.hour.isSome ∧ t.isSign then readOffset (t = ['+']) after f
    else if t.isFiller then return (f, 0)
    else throw .unreadable

/-- What the lexemes give, where those before are in reverse order. -/
def readAll (before : List Lexeme) (f : Fields) : List Lexeme → Except Fault Fields
  | [] => .ok f
  | t :: after => do
    let (f, used) ←
      match Amount.ofLexeme? t with
      | some a => readNumber before t a after f
      | none => if t.isNoNumber then throw .unreadable else readWord t after f
    readAll ((after.take used).reverse ++ t :: before) f (after.drop used)
termination_by lexemes => lexemes.length
decreasing_by
  simp only [List.length_drop, List.length_cons]
  omega

/-! ### The point in time -/

namespace Fields

/-- Whether nothing was found. -/
def isEmpty (f : Fields) : Bool :=
  f.date.numbers.isEmpty && f.weekday.isNone && f.hour.isNone && f.minute.isNone &&
    f.second.isNone && f.microsecond.isNone

/-- The offset; every name of universal time means none, whatever else is said. -/
def offset? (f : Fields) : Except Fault (Option Offset) :=
  if f.zone.any Lexeme.isUniversal then .ok (some ⟨0⟩)
  else
    match f.ahead with
    | none => .ok none
    | some n =>
      if (Duration.ofSeconds n).isRepresentable then .ok (some ⟨n⟩) else .error .tooLarge

/-- The first day from a date on that is a certain day of the week. -/
def onWeekday (date : Date) (weekday : Nat) : Except Fault Date :=
  let days := date.toDays
  let date := Date.ofDays (days + (weekday - (days + 3)) % 7)
  if date.year ≤ 9999 then .ok date else .error .tooLarge

/-- The point in time. A day of the week counts only if there is no day of the month. -/
def dateTime (f : Fields) (today : Date) : Except Fault DateTime := do
  let c ← found f.date.choice?
  if f.isEmpty then throw .unreadable
  let chosen := c.year.map fun year => if f.date.hasCentury then year else fullYear year
  let year := chosen.getD today.year
  let month := c.month.getD today.month
  if c.day = none ∧ (month < 1 ∨ 12 < month) then throw .unreadable
  let day := c.day.getD (min today.day (Date.daysInMonth year month))
  let given := [year, month, day] ++ [f.hour, f.minute, f.second].filterMap id
  if given.any (Instant.maxCount < ·) then throw .tooLarge
  let date ← found (Date.of year month day).toOption
  let time ← found (TimeOfDay.of (f.hour.getD 0) (f.minute.getD 0) (f.second.getD 0)
    (f.microsecond.getD 0)).toOption
  let date ← match f.weekday, c.day with
    | some weekday, none => onWeekday date weekday
    | _, _ => pure date
  return ⟨date, time, ← f.offset?⟩

end Fields

end Timestamp

/-- The point in time that a text gives on some day. -/
def DateTime.ofText (today : Date) (text : String) : Except Timestamp.Fault DateTime := do
  (← Timestamp.readAll [] .empty (Timestamp.lexemes text)).dateTime today

end VolumeExport
