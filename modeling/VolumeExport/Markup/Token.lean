import VolumeExport.Markup.Cursor
import VolumeExport.Markup.Fault

namespace VolumeExport.Markup

inductive Directive
  | version (major : Int)
  | tagHandle (handle stem : List Char)
  | other
  deriving DecidableEq, Repr

inductive Token
  | directive (d : Directive)
  | documentStart
  | documentEnd
  | blockSequence
  | blockMapping
  | blockEnd
  | flowSequence
  | flowSequenceEnd
  | flowMapping
  | flowMappingEnd
  | blockEntry
  | flowEntry
  | key
  | value
  | alias (name : List Char)
  | anchor (name : List Char)
  | tag (handle : Option (List Char)) (suffix : List Char)
  | scalar (text : List Char) (plain : Bool)
  | streamEnd
  /-- Nothing can be read from here on. -/
  | broken (cause : Fault)
  deriving DecidableEq, Repr

namespace Token

/-- A reader of one part of a document. -/
abbrev Reader (α : Type) := Cursor → Except Fault (α × Cursor)

def hexValue (cs : List Char) : Nat :=
  cs.foldl (fun n c => n * 16 + ((Numeral.digit? 16 c).getD 0)) 0

/-- The rest of a line that may hold nothing but a comment, and its end. -/
def restOfLine (c : Cursor) : Except Fault Cursor :=
  let c := c.skipSpaces.skipComment
  if endsLine c.head then .ok c.lineBreak.2 else .error .malformed

/-! ### Tags -/

/-- Bytes written as pairs of hexadecimal digits behind percent signs. -/
def escapedBytes : List Char → Except Fault (List UInt8)
  | '%' :: a :: b :: cs =>
    if isHexDigit a && isHexDigit b then do
      return UInt8.ofNat (hexValue [a, b]) :: (← escapedBytes cs)
    else .error .malformed
  | '%' :: _ => .error .malformed
  | _ => .ok []

def isUri (c : Char) : Bool :=
  c.isAlphanum || "-;/?:@&=+$,_.!~*'()[]".toList.contains c

/-- The characters of a tag's name. -/
def uriChars : Nat → List Char → Cursor → Except Fault (List Char × Cursor)
  | 0, _, _ => .error .malformed
  | fuel + 1, read, c =>
    let (plain, c) := c.span isUri
    if c.head = '%' then do
      let bytes ← escapedBytes c.rest
      match String.fromUTF8? ⟨bytes.toArray⟩ with
      | some s => uriChars fuel (read ++ plain ++ s.toList) (c.advance (3 * bytes.length))
      | none => .error .malformed
    else .ok (read ++ plain, c)

/-- A tag's name is not empty, though what its escapes stand for may be. -/
def uri : Reader (List Char) := fun c =>
  if isUri c.head || c.head = '%' then uriChars (c.left + 1) [] c else .error .malformed

/-- A handle: `!`, or a name between two of them. -/
def handle : Reader (List Char) := fun c =>
  if c.head ≠ '!' then .error .malformed
  else if c.peek 1 = ' ' then .ok (['!'], c.next)
  else
    let (name, d) := c.next.span isWord
    if d.head = '!' then .ok ('!' :: name ++ ['!'], d.next) else .error .malformed

/-- A tag in full, one that asks for nothing, or one behind a handle. -/
def tagToken : Reader Token := fun c => do
  let (token, c) ←
    if c.peek 1 = '<' then do
      let (suffix, c) ← uri (c.advance 2)
      if c.head = '>' then pure (Token.tag none suffix, c.next) else .error .malformed
    else if isSpace (c.peek 1) then pure (Token.tag none ['!'], c.next)
    else do
      let (h, c) ←
        if (c.next.rest.takeWhile (!isGap ·)).contains '!' then handle c
        else pure (['!'], c.next)
      let (suffix, c) ← uri c
      pure (Token.tag (some h) suffix, c)
  if isGap c.head then return (token, c) else .error .malformed

/-! ### Directives and names -/

def number : Reader Int := fun c => do
  let (ds, d) := c.span Char.isDigit
  if ds = [] then .error .malformed
  else
    match Numeral.read 10 (String.ofList ds) with
    | .ok n => return (n, d)
    | .error e => .error (.noNumeral e)

def version : Reader Directive := fun c => do
  let (major, c) ← number c.skipSpaces
  if c.head ≠ '.' then .error .malformed
  else
    let (_, c) ← number c.next
    if isGap c.head then return (.version major, c) else .error .malformed

def tagHandle : Reader Directive := fun c => do
  let (h, c) ← handle c.skipSpaces
  if c.head ≠ ' ' then .error .malformed
  else
    let (stem, c) ← uri c.skipSpaces
    if isGap c.head then return (.tagHandle h stem, c) else .error .malformed

def directiveToken : Reader Token := fun c => do
  let (name, c) := c.next.span isWord
  if name = [] ∨ !isGap c.head then .error .malformed
  else
    let (d, c) ←
      if name = "YAML".toList then version c
      else if name = "TAG".toList then tagHandle c
      else pure (.other, c.skip (!endsLine ·))
    return (.directive d, ← restOfLine c)

/-- The name of an anchor or of an alias. -/
def name : Reader (List Char) := fun c =>
  let (n, c) := c.next.span isWord
  if n ≠ [] ∧ (isSpace c.head ∨ "?:,]\x7d%@\x60".toList.contains c.head) then .ok (n, c)
  else .error .malformed

/-! ### Block scalars -/

/-- What becomes of the line breaks at the end of a block scalar. -/
inductive Chomping
  | clip
  | strip
  | keep
  deriving DecidableEq, Repr

def chomping? (c : Char) : Option Chomping :=
  if c = '+' then some .keep else if c = '-' then some .strip else none

/-- The digit that gives the indentation; it is not zero. -/
def increment (c : Cursor) : Except Fault (Option Nat × Cursor) :=
  if c.head = '0' then .error .malformed
  else if c.head.isDigit then .ok (some (c.head.toNat - '0'.toNat), c.next)
  else .ok (none, c)

/-- The marks behind `|` or `>`, in any order, and the rest of the line. -/
def blockHeader : Reader (Chomping × Option Nat) := fun c => do
  let ((chomp, indent), c) ←
    match chomping? c.head with
    | some chomp => do
      let (indent, c) ← increment c.next
      pure ((chomp, indent), c)
    | none => do
      let (indent, c) ← increment c
      match indent, chomping? c.head with
      | some _, some chomp => pure ((chomp, indent), c.next)
      | _, _ => pure ((.clip, indent), c)
  if isGap c.head then return ((chomp, indent), ← restOfLine c) else .error .malformed

/-- Blank lines in front of a scalar: their breaks and the greatest column reached. -/
def leadingBreaks : Nat → List Char → Nat → Cursor → List Char × Nat × Cursor
  | 0, breaks, widest, c => (breaks, widest, c)
  | fuel + 1, breaks, widest, c =>
    if c.head = ' ' then leadingBreaks fuel breaks (max widest c.next.column) c.next
    else
      match c.lineBreak with
      | (some b, c) => leadingBreaks fuel (breaks ++ [b]) widest c
      | (none, c) => (breaks, widest, c)

/-- Blank lines inside a scalar, and the indentation of the line behind them. -/
def breaksBefore (indent : Nat) : Nat → List Char → Cursor → List Char × Cursor
  | 0, breaks, c => (breaks, c)
  | fuel + 1, breaks, c =>
    match (c.indentTo indent).lineBreak with
    | (some b, c) => breaksBefore indent fuel (breaks ++ [b]) c
    | (none, c) => (breaks, c)

def isBlankMark (c : Char) : Bool := c = ' ' || c = '\t'

/-- The lines of a block scalar. `read` is what stands in front of the line, its last character
first, `last` the break of the line before, `breaks` the blank lines in between. Where lines are
folded, a single break between two lines that start with text becomes a space and of several breaks
one falls away. -/
def blockLines (folded : Bool) (indent : Nat) :
    Nat → List Char → List Char → List Char → Cursor → List Char × List Char × List Char × Cursor
  | 0, read, last, breaks, c => (read, last, breaks, c)
  | fuel + 1, read, last, breaks, c =>
    if c.column = indent ∧ !isEnd c.head then
      let (line, d) := c.span (!endsLine ·)
      let (b, d) := d.lineBreak
      let (more, d) := breaksBefore indent (d.left + 1) [] d
      let read := line.reverse ++ (breaks.reverse ++ read)
      if d.column = indent ∧ !isEnd d.head then
        let between :=
          if folded && b = some '\n' && !isBlankMark c.head && !isBlankMark d.head then
            if more = [] then [' '] else []
          else b.toList
        blockLines folded indent fuel (between ++ read) b.toList more d
      else (read, b.toList, more, d)
    else (read, last, breaks, c)

/-- A literal or folded scalar inside a collection at column `parent`. -/
def blockScalar (folded : Bool) (parent : Int) : Reader Token := fun c => do
  let ((chomp, indent), c) ← blockHeader c.next
  let least := max 1 (parent + 1).toNat
  let (breaks, indent, c) :=
    match indent with
    | none =>
      let (breaks, widest, c) := leadingBreaks (c.left + 1) [] 0 c
      (breaks, max least widest, c)
    | some n =>
      let (breaks, c) := breaksBefore (least + n - 1) (c.left + 1) [] c
      (breaks, least + n - 1, c)
  let (read, last, breaks, c) := blockLines folded indent (c.left + 1) [] [] breaks c
  let tail := match chomp with
    | .clip => last
    | .strip => []
    | .keep => last ++ breaks
  return (.scalar (Text.held (read.reverse ++ tail)) false, c)

/-! ### Quoted scalars -/

/-- What one character behind a backslash stands for. -/
def escapes : List (Char × Char) :=
  [('0', '\x00'), ('a', '\x07'), ('b', '\x08'), ('t', '\t'), ('\t', '\t'), ('n', '\n'),
   ('v', '\x0b'), ('f', '\x0c'), ('r', '\r'), ('e', '\x1b'), (' ', ' '), ('\x22', '\x22'),
   ('\\', '\\'), ('/', '/'), ('N', '\x85'), ('_', '\xa0'), ('L', '\u2028'), ('P', '\u2029')]

/-- How many hexadecimal digits follow the letter. -/
def escapeWidth? : Char → Option Nat
  | 'x' => some 2
  | 'u' => some 4
  | 'U' => some 8
  | _ => none

/-- The number that an escape of this width gives, if it is one. -/
def escapeCode? (width : Nat) (cs : List Char) : Option Nat :=
  let ds := cs.take width
  if ds.length = width ∧ ds.all isHexDigit then some (hexValue ds) else none

/-- The characters that hold the code point of an escape. -/
def escapedChar (width : Nat) : Reader (List Char) := fun c =>
  match escapeCode? width c.rest with
  | none => .error .malformed
  | some n =>
    if 0x110000 ≤ n then .error (.noCharacter n) else .ok (Text.hold n, c.advance width)

/-- Blank lines inside a quoted scalar. The document may not end there. -/
def quotedBreaks : Nat → List Char → Cursor → Except Fault (List Char × Cursor)
  | 0, _, _ => .error .malformed
  | fuel + 1, breaks, c =>
    if c.isBoundary then .error .malformed
    else
      match (c.skip isBlankMark).lineBreak with
      | (some b, c) => quotedBreaks fuel (breaks ++ [b]) c
      | (none, c) => .ok (breaks, c)

/-- A line break between two lines of text: a single one becomes a space, of several one falls
away. -/
def folding (b : Char) (breaks : List Char) : List Char :=
  (if b ≠ '\n' then [b] else if breaks = [] then [' '] else []) ++ breaks

/-- The characters of a quoted scalar up to its closing mark. Only double marks allow escapes; a
doubled single mark stands for one. `read` is what has been read, its last character first. -/
def quotedChars (mark : Char) : Nat → List Char → Cursor → Except Fault (List Char × Cursor)
  | 0, _, _ => .error .malformed
  | fuel + 1, read, c =>
    let ch := c.head
    if isEnd ch then .error .malformed
    else if ch = mark ∧ mark = '\x27' ∧ c.peek 1 = '\x27' then
      quotedChars mark fuel ('\x27' :: read) (c.advance 2)
    else if ch = mark then .ok (read.reverse, c.next)
    else if ch = '\\' ∧ mark = '\x22' then
      let e := c.peek 1
      match escapes.lookup e, escapeWidth? e with
      | some r, _ => quotedChars mark fuel (r :: read) (c.advance 2)
      | none, some width => do
        let (r, c) ← escapedChar width (c.advance 2)
        quotedChars mark fuel (r.reverse ++ read) c
      | none, none =>
        match c.next.lineBreak with
        | (some _, c) => do
          let (breaks, c) ← quotedBreaks (c.left + 1) [] c
          quotedChars mark fuel (breaks.reverse ++ read) c
        | (none, _) => .error .malformed
    else if isBlankMark ch || isBreak ch then
      let (blanks, c) := c.span isBlankMark
      match c.lineBreak with
      | (some b, c) => do
        let (breaks, c) ← quotedBreaks (c.left + 1) [] c
        quotedChars mark fuel ((folding b breaks).reverse ++ read) c
      | (none, c) => quotedChars mark fuel (blanks.reverse ++ read) c
    else quotedChars mark fuel ((Text.hold ch.toNat).reverse ++ read) c.next

def quotedScalar : Reader Token := fun c => do
  let (cs, d) ← quotedChars c.head (c.left + 1) [] c.next
  return (.scalar cs false, d)

/-! ### Plain scalars -/

/-- Whether plain text ends in front of a character, given the one behind it. -/
def endsPlain (inFlow : Bool) (ch following : Char) : Bool :=
  isSpace ch ||
    (ch = ':' && (isSpace following || (inFlow && ",[]\x7b\x7d".toList.contains following))) ||
    (inFlow && ",?[]\x7b\x7d".toList.contains ch)

/-- Plain text on one line, without blanks, behind what has been read, its last character first. -/
def plainWord (inFlow : Bool) (read : List Char) : List Char → List Char
  | [] => read.reverse
  | c :: cs =>
    if endsPlain inFlow c (cs.headD '\x00') then read.reverse
    else plainWord inFlow (c :: read) cs

/-- Spaces and blank lines behind the first break; nothing if the document ends there. -/
def plainBreaks : Nat → List Char → Cursor → Option (List Char) × Cursor
  | 0, breaks, c => (some breaks, c)
  | fuel + 1, breaks, c =>
    if c.head = ' ' then plainBreaks fuel breaks c.next
    else
      match c.lineBreak with
      | (some b, c) =>
        if c.isBoundary then (none, c) else plainBreaks fuel (breaks ++ [b]) c
      | (none, c) => (some breaks, c)

/-- What stands between two words of a plain scalar, and whether a line ended there. -/
def plainGap (c : Cursor) : List Char × Bool × Cursor :=
  let (spaces, c) := c.span (· = ' ')
  match c.lineBreak with
  | (none, c) => (spaces, false, c)
  | (some b, c) =>
    if c.isBoundary then ([], true, c)
    else
      match plainBreaks (c.left + 1) [] c with
      | (some breaks, c) => (folding b breaks, true, c)
      | (none, c) => ([], true, c)

/-- The words of a plain scalar inside a collection at column `parent`. The mark says whether a
line ended behind the last word. `read` is what has been read, its last character first. -/
def plainWords (inFlow : Bool) (parent : Int) :
    Nat → List Char → List Char → Bool → Cursor → List Char × Bool × Cursor
  | 0, read, _, ended, c => (read.reverse, ended, c)
  | fuel + 1, read, gap, ended, c =>
    let word := plainWord inFlow [] c.rest
    if c.head = '#' ∨ word = [] then (read.reverse, ended, c)
    else
      let (next, ended, d) := plainGap (c.advance word.length)
      let read := word.reverse ++ (gap.reverse ++ read)
      if next = [] ∨ d.head = '#' ∨ (!inFlow ∧ (d.column : Int) < parent + 1) then
        (read.reverse, ended, d)
      else plainWords inFlow parent fuel read next ended d

def plainScalar (inFlow : Bool) (parent : Int) (c : Cursor) : Token × Bool × Cursor :=
  let (cs, ended, c) := plainWords inFlow parent (c.left + 1) [] [] false c
  (.scalar (Text.held cs) true, ended, c)

end Token

end VolumeExport.Markup
