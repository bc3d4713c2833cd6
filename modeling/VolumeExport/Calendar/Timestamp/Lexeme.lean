import VolumeExport.Text.Blank
import VolumeExport.Text.Letter
import VolumeExport.Text.Surrogate

namespace VolumeExport.Timestamp

abbrev Lexeme := List Char

namespace Lexeme

/-- What a run that may still grow holds so far: letters only, digits only, or points too and then
letters or digits behind the last one. -/
inductive Run
  | word
  | number
  | pointedWord
  | pointedNumber
  deriving DecidableEq, Repr

/-- A run, its characters with the last one first. -/
structure Growing where
  run : Run
  chars : List Char
  /-- Whether letters were met in the run, with something behind them. -/
  hasLetters : Bool

/-- The lexemes that a character makes on its own, and the run that it starts. -/
def first (c : Char) : List Lexeme × Option Growing :=
  if Text.isLetter c then ([], some ⟨.word, [c], false⟩)
  else if (Text.digitValue? c).isSome || Text.isDigitMark c then ([], some ⟨.number, [c], false⟩)
  else if Text.isBlank c then ([[' ']], none)
  else ([[c]], none)

namespace Growing

/-- The run with one more character, if it belongs to it. A comma may be the point of a number, but
not behind a single digit. -/
def extend? (g : Growing) (c : Char) : Option Growing :=
  let isLetter := Text.isLetter c
  let isDigit := (Text.digitValue? c).isSome || Text.isDigitMark c
  let behindPoint := g.chars.head? = some '.'
  let grown (run : Run) (hasLetters : Bool) : Option Growing :=
    some ⟨run, c :: g.chars, hasLetters⟩
  match g.run with
  | .word =>
    if isLetter then grown .word true
    else if c = '.' then grown .pointedWord true
    else none
  | .number =>
    if isDigit then grown .number false
    else if c = '.' ∨ (c = ',' ∧ 2 ≤ g.chars.length) then grown .pointedNumber false
    else none
  | .pointedWord =>
    if isLetter ∨ c = '.' then grown .pointedWord true
    else if isDigit ∧ behindPoint then grown .pointedNumber true
    else none
  | .pointedNumber =>
    if isDigit ∨ c = '.' then grown .pointedNumber g.hasLetters
    else if isLetter ∧ behindPoint then grown .pointedWord g.hasLetters
    else none

def isPoint (c : Char) : Bool := c = '.' || c = ','

/-- The pieces of a run, points being pieces of their own. -/
def pieces (cs : List Char) : List Lexeme :=
  cs.splitBy fun a b => !isPoint a && !isPoint b

/-- The lexemes of a run that does not grow any more, at the end of the text or before it. -/
def close (g : Growing) (atEnd : Bool) : List Lexeme :=
  let cs := g.chars.reverse
  let isPointed := g.run = .pointedWord ∨ g.run = .pointedNumber
  let hasLetters := g.hasLetters || (g.run = .pointedWord && !atEnd)
  if isPointed ∧ (hasLetters ∨ 1 < cs.count '.' ∨ g.chars.head?.any isPoint) then pieces cs
  else if g.run = .pointedNumber ∧ !cs.contains '.' then
    [cs.map fun c => if c = ',' then '.' else c]
  else [cs]

end Growing

/-- The lexemes of the characters behind a run that may still grow. -/
def scan : Option Growing → List Char → List Lexeme
  | none, [] => []
  | some g, [] => g.close true
  | none, c :: cs =>
    let (done, g) := first c
    done ++ scan g cs
  | some g, c :: cs =>
    match g.extend? c with
    | some g => scan (some g) cs
    | none =>
      let (done, next) := first c
      g.close false ++ done ++ scan next cs

/-- The characters that a text holds, with a mark for what is no character. The null character does
not count. -/
def charsOf (text : String) : List Char :=
  ((Text.codes text.toList).filter (· ≠ 0)).map fun n =>
    if Text.isSurrogate n then '\ufffd' else Char.ofNat n

end Lexeme

/-- The lexemes of a text. -/
def lexemes (text : String) : List Lexeme := Lexeme.scan none (Lexeme.charsOf text)

end VolumeExport.Timestamp
