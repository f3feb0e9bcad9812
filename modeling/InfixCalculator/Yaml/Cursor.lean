import InfixCalculator.Yaml.Fault

/-!
# Places in a document

A `Cursor` is a place in the text of a document: what is still to be read, and the index, line and
column of the next character. The end of the text reads as the null character, which no document may
contain.

The character classes that the tokens of a document are made of are here as well.
-/

namespace InfixCalculator.Yaml

/-! ## Character classes -/

/-- The character that stands for the end of the text. -/
def endMark : Char := '\x00'

/-- A line break. -/
def isBreak (c : Char) : Bool :=
  c == '\n' || c == '\r' || c == '\x85' || c == '\u2028' || c == '\u2029'

/-- A line break or the end of the text. -/
def isBreakOrEnd (c : Char) : Bool :=
  isBreak c || c == endMark

/-- A space, a line break or the end of the text. -/
def isSpaceOrEnd (c : Char) : Bool :=
  c == ' ' || isBreakOrEnd c

/-- A space, a tab, a line break or the end of the text. -/
def isBlankOrEnd (c : Char) : Bool :=
  c == ' ' || c == '\t' || isBreakOrEnd c

/-- A character that ends a flow collection or one of its entries. -/
def isFlowIndicator (c : Char) : Bool :=
  c == ',' || c == '[' || c == ']' || c == '{' || c == '}'

/-- A character that a document may contain. -/
def isAllowed (c : Char) : Bool :=
  let n := c.toNat
  n == 0x9 || n == 0xa || n == 0xd || (0x20 ≤ n && n ≤ 0x7e) || n == 0x85 ||
    (0xa0 ≤ n && n ≤ 0xd7ff) || (0xe000 ≤ n && n ≤ 0xfffd) || 0x10000 ≤ n

/-- A letter, a digit, a hyphen or an underscore. -/
def isNameChar (c : Char) : Bool :=
  c.isAlphanum || c == '-' || c == '_'

/-! ## Moving through the text -/

/-- A place in the text of a document. -/
structure Cursor where
  /-- What is still to be read. -/
  rest : List Char
  /-- The index of the next character. -/
  index : Nat
  /-- The line of the next character. -/
  line : Nat
  /-- The column of the next character. -/
  column : Nat
  deriving DecidableEq, Repr

namespace Cursor

/-- The beginning of a text. -/
def start (text : List Char) : Cursor :=
  ⟨text, 0, 0, 0⟩

/-- The character that lies some way ahead. -/
def peek (c : Cursor) (ahead : Nat) : Char :=
  (c.rest[ahead]?).getD endMark

/-- The next character. -/
def head (c : Cursor) : Char :=
  c.peek 0

/-- The place after the next character. A carriage return before a line feed does not end a line on
its own, and a byte order mark takes up no column. -/
def next (c : Cursor) : Cursor :=
  match c.rest with
  | [] => c
  | ch :: rest =>
    if isBreak ch && !(ch == '\r' && rest.head? == some '\n') then
      ⟨rest, c.index + 1, c.line + 1, 0⟩
    else
      ⟨rest, c.index + 1, c.line, if ch == '\ufeff' then c.column else c.column + 1⟩

/-- The place a number of characters further on. -/
def skip (c : Cursor) : Nat → Cursor
  | 0 => c
  | n + 1 => c.next.skip n

/-- The characters ahead that have a property, and the place after them. -/
def span (c : Cursor) (p : Char → Bool) : List Char × Cursor :=
  let taken := c.rest.takeWhile p
  (taken, c.skip taken.length)

/-- The place after the spaces ahead. -/
def skipSpaces (c : Cursor) : Cursor :=
  (c.span (· == ' ')).2

/-- The place after the comment ahead, if there is one. -/
def skipComment (c : Cursor) : Cursor :=
  if c.head == '#' then (c.span (!isBreakOrEnd ·)).2 else c

/-- The line break ahead, if there is one, as it counts in a scalar, and the place after it. -/
def takeBreak (c : Cursor) : Option Char × Cursor :=
  let ch := c.head
  if ch == '\r' && c.peek 1 == '\n' then (some '\n', c.skip 2)
  else if ch == '\n' || ch == '\r' || ch == '\x85' then (some '\n', c.next)
  else if isBreak ch then (some ch, c.next)
  else (none, c)

/-- The place after the rest of a line that may hold nothing but spaces and a comment. -/
def endLine (c : Cursor) : Except Fault Cursor :=
  let c := c.skipSpaces.skipComment
  if isBreakOrEnd c.head then .ok c.takeBreak.2 else .error .malformed

/-- Whether three equal characters followed by a blank lie ahead. -/
def marks (c : Cursor) (ch : Char) : Bool :=
  c.peek 0 == ch && c.peek 1 == ch && c.peek 2 == ch && isBlankOrEnd (c.peek 3)

/-- Whether the mark that begins or ends a document lies ahead. -/
def atDocumentMark (c : Cursor) : Bool :=
  c.marks '-' || c.marks '.'

end Cursor

end InfixCalculator.Yaml
