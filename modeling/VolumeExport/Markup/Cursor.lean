namespace VolumeExport.Markup

def isEnd (c : Char) : Bool := c = '\x00'

/-- The characters that end a line. -/
def isBreak (c : Char) : Bool :=
  c = '\n' || c = '\r' || c = '\x85' || c = '\u2028' || c = '\u2029'

def endsLine (c : Char) : Bool := isEnd c || isBreak c

/-- The end of a line or a space. -/
def isGap (c : Char) : Bool := endsLine c || c = ' '

/-- The end of a line, a space or a tab. -/
def isSpace (c : Char) : Bool := isGap c || c = '\t'

/-- The characters of names. -/
def isWord (c : Char) : Bool := c.isAlphanum || c = '-' || c = '_'

def isHexDigit (c : Char) : Bool :=
  c.isDigit || ('a' ≤ c && c ≤ 'f') || ('A' ≤ c && c ≤ 'F')

/-- What is left of the document, how many characters that are, and where it begins. -/
structure Cursor where
  rest : List Char
  left : Nat
  line : Nat
  column : Nat
  deriving DecidableEq, Repr

namespace Cursor

def start (cs : List Char) : Cursor := ⟨cs, cs.length, 0, 0⟩

/-- The character `n` places ahead. -/
def peek (c : Cursor) (n : Nat) : Char := c.rest.getD n '\x00'

def head (c : Cursor) : Char := c.peek 0

/-- One character on. A carriage return in front of a line feed does not end the line; a mark of
byte order takes no column. -/
def next (c : Cursor) : Cursor :=
  match c.rest with
  | [] => c
  | ch :: cs =>
    if isBreak ch ∧ ¬(ch = '\r' ∧ cs.head? = some '\n') then ⟨cs, c.left - 1, c.line + 1, 0⟩
    else ⟨cs, c.left - 1, c.line, if ch = '\ufeff' then c.column else c.column + 1⟩

def advance (c : Cursor) : Nat → Cursor
  | 0 => c
  | n + 1 => c.next.advance n

/-- The characters up to the first that fails a test. -/
def span (c : Cursor) (p : Char → Bool) : List Char × Cursor :=
  let cs := c.rest.takeWhile p
  (cs, c.advance cs.length)

def skip (c : Cursor) (p : Char → Bool) : Cursor := (c.span p).2

def skipSpaces (c : Cursor) : Cursor := c.skip (· = ' ')

/-- Spaces up to a column. -/
def indentTo (c : Cursor) (column : Nat) : Cursor :=
  c.advance (min ((c.rest.takeWhile (· = ' ')).length) (column - c.column))

/-- A line break and the character that stands for it. -/
def lineBreak (c : Cursor) : Option Char × Cursor :=
  if c.head = '\r' ∧ c.peek 1 = '\n' then (some '\n', c.advance 2)
  else if c.head = '\n' ∨ c.head = '\r' ∨ c.head = '\x85' then (some '\n', c.next)
  else if c.head = '\u2028' ∨ c.head = '\u2029' then (some c.head, c.next)
  else (none, c)

/-- A comment, if one starts here. -/
def skipComment (c : Cursor) : Cursor := if c.head = '#' then c.skip (!endsLine ·) else c

/-- A line of three marks, which starts or ends a document, if the line starts here. -/
def isRule (c : Cursor) (mark : Char) : Bool :=
  c.rest.take 3 = [mark, mark, mark] && isSpace (c.peek 3)

def isBoundary (c : Cursor) : Bool := c.isRule '-' || c.isRule '.'

end Cursor

end VolumeExport.Markup
