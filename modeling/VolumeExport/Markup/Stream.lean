import VolumeExport.Markup.Token

namespace VolumeExport.Markup

/-- A place where a key may have started. -/
structure PossibleKey where
  /-- How many tokens stand in front of it. -/
  number : Nat
  /-- Nothing but a key may stand here. -/
  required : Bool
  /-- How many characters are left behind its start. -/
  left : Nat
  line : Nat
  column : Nat
  deriving DecidableEq, Repr

/-- How far the document has been read, and the tokens so far, the last one first. -/
structure Stream where
  cursor : Cursor
  tokens : List Token
  /-- The number of tokens. -/
  count : Nat
  /-- The columns of the open block collections, the innermost first. -/
  columns : List Nat
  /-- The number of open flow collections. -/
  flow : Nat
  /-- Whether a key may start here. -/
  keyAllowed : Bool
  /-- Possible keys by the number of flow collections around them. -/
  keys : List (Nat × PossibleKey)
  deriving DecidableEq, Repr

namespace Stream

/-- A key and its colon stand at most this far apart, on one line. -/
def maxKeyLength : Nat := 1024

/-- A mark of byte order in front of a document is no part of it. -/
def start (cs : List Char) : Stream :=
  let c := Cursor.start cs
  ⟨if c.head = '\ufeff' then c.next else c, [], 0, [], 0, true, []⟩

/-- The column of the innermost block collection, or -1. -/
def indent (s : Stream) : Int :=
  match s.columns with
  | [] => -1
  | n :: _ => n

def emit (s : Stream) (t : Token) : Stream :=
  { s with tokens := t :: s.tokens, count := s.count + 1 }

/-- Puts tokens behind the first `n`. -/
def insertAt (s : Stream) (n : Nat) (ts : List Token) : Stream :=
  let later := s.count - n
  { s with
    tokens := s.tokens.take later ++ ts.reverse ++ s.tokens.drop later
    count := s.count + ts.length }

def isStale (c : Cursor) (k : PossibleKey) : Bool :=
  k.line ≠ c.line || c.left + maxKeyLength < k.left

/-- Drops the possible keys whose colon has not come in time. -/
def dropStale (s : Stream) : Except Fault Stream :=
  if s.keys.any fun p => isStale s.cursor p.2 && p.2.required then .error .malformed
  else .ok { s with keys := s.keys.filter fun p => !isStale s.cursor p.2 }

/-- Drops the possible key of the innermost collection. -/
def dropKey (s : Stream) : Except Fault Stream :=
  match s.keys.lookup s.flow with
  | some k =>
    if k.required then .error .malformed
    else .ok { s with keys := s.keys.filter (·.1 ≠ s.flow) }
  | none => .ok s

/-- A key may start here. -/
def saveKey (s : Stream) : Except Fault Stream := do
  if s.keyAllowed then
    let s ← s.dropKey
    let c := s.cursor
    let key : PossibleKey :=
      ⟨s.count, s.flow = 0 && s.indent = c.column, c.left, c.line, c.column⟩
    return { s with keys := (s.flow, key) :: s.keys }
  else return s

/-- Closes the block collections to the right of a column. -/
def unwind (s : Stream) (column : Int) : Stream :=
  if s.flow = 0 then
    let closed := s.columns.takeWhile fun (n : Nat) => decide (column < n)
    { s with
      columns := s.columns.drop closed.length
      tokens := closed.map (fun _ => Token.blockEnd) ++ s.tokens
      count := s.count + closed.length }
  else s

/-- Opens a block collection at a column, unless one is open there or further right. -/
def indentTo (s : Stream) (column : Nat) : Option Stream :=
  if s.indent < column then some { s with columns := column :: s.columns } else none

/-- Blanks, comments and line ends in front of a token. Behind a line end a key may start. -/
def skipBlanks (flow : Nat) : Nat → Bool → Cursor → Bool × Cursor
  | 0, allowed, c => (allowed, c)
  | fuel + 1, allowed, c =>
    match c.skipSpaces.skipComment.lineBreak with
    | (some _, c) => skipBlanks flow fuel (allowed || flow = 0) c
    | (none, c) => (allowed, c)

def toNextToken (s : Stream) : Stream :=
  let (allowed, c) := skipBlanks s.flow (s.cursor.left + 1) s.keyAllowed s.cursor
  { s with keyAllowed := allowed, cursor := c }

/-- The end of a document or of all: every block collection is closed. -/
def boundary (s : Stream) : Except Fault Stream := do
  let s ← (s.unwind (-1)).dropKey
  return { s with keyAllowed := false }

/-- A token read from the cursor on. -/
def read (s : Stream) (reader : Token.Reader Token) : Except Fault Stream := do
  let (t, c) ← reader s.cursor
  return { s.emit t with cursor := c }

/-- A mark of `width` characters. -/
def mark (s : Stream) (t : Token) (width : Nat) : Stream :=
  { s.emit t with cursor := s.cursor.advance width }

def openFlow (s : Stream) (t : Token) : Except Fault Stream := do
  let s ← s.saveKey
  return { s with flow := s.flow + 1, keyAllowed := true }.mark t 1

def closeFlow (s : Stream) (t : Token) : Except Fault Stream := do
  let s ← s.dropKey
  if s.flow = 0 then .error .malformed
  else return { s with flow := s.flow - 1, keyAllowed := false }.mark t 1

/-- A collection of entries with marks is opened at the first of them. -/
def openBlock (s : Stream) (t : Token) : Except Fault Stream :=
  if s.flow ≠ 0 then .ok s
  else if !s.keyAllowed then .error .malformed
  else .ok (((s.indentTo s.cursor.column).map (·.emit t)).getD s)

def blockEntry (s : Stream) : Except Fault Stream := do
  let s ← s.openBlock .blockSequence
  let s ← { s with keyAllowed := true }.dropKey
  return s.mark .blockEntry 1

def flowEntry (s : Stream) : Except Fault Stream := do
  let s ← { s with keyAllowed := true }.dropKey
  return s.mark .flowEntry 1

def keyMark (s : Stream) : Except Fault Stream := do
  let s ← s.openBlock .blockMapping
  let s ← { s with keyAllowed := s.flow = 0 }.dropKey
  return s.mark .key 1

/-- A colon. If a key may have started in front of it, one has. -/
def valueMark (s : Stream) : Except Fault Stream := do
  match s.keys.lookup s.flow with
  | some k =>
    let s := { s with keys := s.keys.filter (·.1 ≠ s.flow), keyAllowed := false }
    let opened := if s.flow = 0 then s.indentTo k.column else none
    let s := match opened with
      | some s => s.insertAt k.number [.blockMapping, .key]
      | none => s.insertAt k.number [.key]
    return s.mark .value 1
  | none =>
    let s ← s.openBlock .blockMapping
    let s ← { s with keyAllowed := s.flow = 0 }.dropKey
    return s.mark .value 1

/-- A token that may be a key or start one. -/
def inline (s : Stream) (reader : Token.Reader Token) : Except Fault Stream := do
  let s ← s.saveKey
  { s with keyAllowed := false }.read reader

def blockScalar (s : Stream) (folded : Bool) : Except Fault Stream := do
  let s ← { s with keyAllowed := true }.dropKey
  s.read (Token.blockScalar folded s.indent)

/-- Whether plain text may start here. -/
def startsPlain (s : Stream) : Bool :=
  let ch := s.cursor.head
  !(isSpace ch || "-?:,[]\x7b\x7d#&*!|>'\"%@\x60".toList.contains ch) ||
    (!isSpace (s.cursor.peek 1) && (ch = '-' || (s.flow = 0 && (ch = '?' || ch = ':'))))

def plain (s : Stream) : Except Fault Stream := do
  let s ← s.saveKey
  let (t, ended, c) := Token.plainScalar (s.flow ≠ 0) s.indent s.cursor
  return { s.emit t with cursor := c, keyAllowed := ended }

/-- The next token or tokens. -/
def step (s : Stream) : Except Fault Stream := do
  let s ← s.toNextToken.dropStale
  let c := s.cursor
  let s := s.unwind c.column
  let ch := c.head
  /- Marks that need a space behind them outside of flow collections. -/
  let separate := s.flow ≠ 0 || isSpace (c.peek 1)
  if isEnd ch then
    let s ← s.boundary
    return { s.emit .streamEnd with keys := [] }
  else if ch = '%' && c.column = 0 then (← s.boundary).read Token.directiveToken
  else if c.column = 0 && c.isRule '-' then return (← s.boundary).mark .documentStart 3
  else if c.column = 0 && c.isRule '.' then return (← s.boundary).mark .documentEnd 3
  else if ch = '[' then s.openFlow .flowSequence
  else if ch = '\x7b' then s.openFlow .flowMapping
  else if ch = ']' then s.closeFlow .flowSequenceEnd
  else if ch = '\x7d' then s.closeFlow .flowMappingEnd
  else if ch = ',' then s.flowEntry
  else if ch = '-' && isSpace (c.peek 1) then s.blockEntry
  else if ch = '?' && separate then s.keyMark
  else if ch = ':' && separate then s.valueMark
  else if ch = '*' then
    s.inline fun c => do let (n, c) ← Token.name c; return (.alias n, c)
  else if ch = '&' then
    s.inline fun c => do let (n, c) ← Token.name c; return (.anchor n, c)
  else if ch = '!' then s.inline Token.tagToken
  else if ch = '|' && s.flow = 0 then s.blockScalar false
  else if ch = '>' && s.flow = 0 then s.blockScalar true
  else if ch = '\x27' || ch = '\x22' then s.inline Token.quotedScalar
  else if s.startsPlain then s.plain
  else .error .malformed

/-- The tokens that no later colon can change. -/
def settled (s : Stream) : List Token :=
  let keys := s.keys.filter fun p => !isStale s.cursor p.2
  s.tokens.reverse.take ((keys.map (·.2.number)).foldl min s.count)

def run : Nat → Stream → List Token
  | 0, s => s.settled ++ [.broken .malformed]
  | fuel + 1, s =>
    match s.step with
    | .error e => s.settled ++ [.broken e]
    | .ok s => if s.tokens.head? = some .streamEnd then s.tokens.reverse else run fuel s

end Stream

/-- The tokens of a document, the last of which tells how the document ends. -/
def Token.ofChars (cs : List Char) : List Token := Stream.run (cs.length + 1) (.start cs)

end VolumeExport.Markup
