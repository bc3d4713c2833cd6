namespace VolumeExport.Timestamp

/-- The numbers of a date in the order in which a text gives them, and which of them are the year,
the month and the day. Only some are known from how they are written: a month by its name, a year by
having more than two digits. The others are told by their size and place; in doubt the month comes
before the day and the day before the year. -/
structure DateParts where
  numbers : List Nat
  /-- The places of the year and the month, if they are known. -/
  yearAt : Option Nat
  monthAt : Option Nat
  /-- Whether some number shows the century of its year. -/
  hasCentury : Bool
  deriving DecidableEq, Repr

/-- What is known of a number when it is read. -/
inductive Role
  | any
  | year
  | month
  deriving DecidableEq, Repr

/-- A year, a month and a day, as far as they are given. -/
structure DateChoice where
  year : Option Nat
  month : Option Nat
  day : Option Nat
  deriving DecidableEq, Repr

namespace DateParts

def empty : DateParts := ⟨[], none, none, false⟩

/-- The parts with one more number; a long number is a year. There is one year and one month at
most. -/
def add? (p : DateParts) (n : Nat) (isLong : Bool) (role : Role) : Option DateParts :=
  let q := { p with numbers := p.numbers ++ [n], hasCentury := p.hasCentury || isLong }
  let place := some p.numbers.length
  match role, isLong with
  | .any, false => some q
  | .month, true => none
  | .month, false => if p.monthAt.isSome then none else some { q with monthAt := place }
  | _, _ => if p.yearAt.isSome then none else some { q with yearAt := place }

/-- Numbers greater than this are no days. -/
def maxDay : Nat := 31

def maxMonth : Nat := 12

/-- Which is which of three numbers, one of which may be known to be the month. -/
def ofThree (a b c : Nat) (yearAt monthAt : Option Nat) : DateChoice :=
  let yearFirst : DateChoice := ⟨some a, some b, some c⟩
  match monthAt with
  | some 0 => if maxDay < b then ⟨some b, some a, some c⟩ else ⟨some c, some a, some b⟩
  | some 1 => if maxDay < a then yearFirst else ⟨some c, some b, some a⟩
  | some _ => if maxDay < b then ⟨some b, some c, some a⟩ else ⟨some a, some c, some b⟩
  | none =>
    if maxDay < a ∨ yearAt = some 0 then yearFirst
    else if maxMonth < a then ⟨some c, some b, some a⟩
    else ⟨some c, some a, some b⟩

/-- Which is which of two numbers, where the month may be one that was given by its name. -/
def ofTwo (a b : Nat) (monthAt : Option Nat) : DateChoice :=
  match monthAt with
  | some place =>
    let (month, other) := if place = 0 then (a, b) else (b, a)
    if maxDay < other then ⟨some other, some month, none⟩ else ⟨none, some month, some other⟩
  | none =>
    if maxDay < a then ⟨some a, some b, none⟩
    else if maxDay < b then ⟨some b, some a, none⟩
    else ⟨none, some a, some b⟩

/-- The year, the month and the day of at most three numbers. -/
def choice? (p : DateParts) : Option DateChoice :=
  let number (place : Nat) : Option Nat := p.numbers[place]?
  match p.numbers, p.yearAt, p.monthAt with
  | [], _, _ => some ⟨none, none, none⟩
  | [a], some _, _ => some ⟨some a, none, none⟩
  | [a], none, some _ => some ⟨none, some a, none⟩
  | [a], none, none => some (if maxDay < a then ⟨some a, none, none⟩ else ⟨none, none, some a⟩)
  | [_, _], some y, some m => some ⟨number y, number m, none⟩
  | [a, b], _, m => some (ofTwo a b m)
  | [_, _, _], some y, some m => some ⟨number y, number m, number (3 - y - m)⟩
  | [a, b, c], y, m => some (ofThree a b c y m)
  | _, _, _ => none

end DateParts

end VolumeExport.Timestamp
