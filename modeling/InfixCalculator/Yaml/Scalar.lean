import InfixCalculator.Text.Numeral
import InfixCalculator.Yaml.Cursor

/-!
# The text of scalars

Scalars are written plain, between single or double quotation marks, or as indented blocks. Each
reader here starts at the first character of a scalar and gives its text, with line breaks folded as
the style demands, and the place after it.

The readers recurse over the lines of a scalar. The number of steps is bounded by the length of the
text that is still to be read, since every line takes up at least one character.
-/

namespace InfixCalculator.Yaml

/-- The text of a scalar. An escape sequence can give half of a surrogate pair, which is no character;
such a scalar is not `sound`, and has the replacement character in that place. -/
structure Scalar where
  text : String
  sound : Bool := true
  deriving DecidableEq, Repr

/-! ## Plain scalars -/

/-- The characters of a plain scalar on one line, up to a blank or an indicator. -/
def plainRun (flow : Bool) : List Char → List Char
  | [] => []
  | ch :: rest =>
    let following := rest.head?.getD endMark
    if isBlankOrEnd ch
        || (ch == ':' && (isBlankOrEnd following || (flow && isFlowIndicator following)))
        || (flow && (isFlowIndicator ch || ch == '?')) then []
    else ch :: plainRun flow rest

/-- The further line breaks between two lines of a plain scalar, with the spaces before them;
nothing if a document mark follows. -/
def plainBreaks : Nat → Cursor → List Char → Option (List Char) × Cursor
  | 0, c, breaks => (some breaks, c)
  | fuel + 1, c, breaks =>
    if c.head == ' ' then plainBreaks fuel c.next breaks
    else
      match c.takeBreak with
      | (some ch, c) =>
        if c.atDocumentMark then (none, c) else plainBreaks fuel c (breaks ++ [ch])
      | (none, c) => (some breaks, c)

/-- Line breaks in a scalar that is folded: a single line feed becomes a space, otherwise the first
one is dropped. -/
def fold (first : Char) (more : List Char) : List Char :=
  if first != '\n' then first :: more else if more.isEmpty then [' '] else more

/-- The spaces and line breaks after a line of a plain scalar, whether there was a line break, and
the place after them. -/
def plainSpaces (c : Cursor) : List Char × Bool × Cursor :=
  let (spaces, c) := c.span (· == ' ')
  match c.takeBreak with
  | (none, c) => (spaces, false, c)
  | (some first, c) =>
    if c.atDocumentMark then ([], true, c)
    else
      match plainBreaks c.rest.length c [] with
      | (some more, c) => (fold first more, true, c)
      | (none, c) => ([], true, c)

/-- The lines of a plain scalar. The result tells whether a line break was read last. -/
def plainLines (flow : Bool) (indent : Int) :
    Nat → Cursor → List Char → List Char → Bool → List Char × Bool × Cursor
  | 0, c, text, _, broken => (text, broken, c)
  | fuel + 1, c, text, spaces, broken =>
    let run := if c.head == '#' then [] else plainRun flow c.rest
    if run.isEmpty then (text, broken, c)
    else
      let text := text ++ spaces ++ run
      let (spaces, broken, c) := plainSpaces (c.skip run.length)
      if spaces.isEmpty || c.head == '#' || (!flow && c.column < indent) then (text, broken, c)
      else plainLines flow indent fuel c text spaces broken

/-- A plain scalar inside a block of the given indentation. -/
def plainScalar (flow : Bool) (indent : Int) (c : Cursor) : List Char × Bool × Cursor :=
  plainLines flow (indent + 1) c.rest.length c [] [] false

/-! ## Quoted scalars -/

/-- The character that a letter stands for after a backslash. -/
def escapeOf? : Char → Option Char
  | '0' => some '\x00'
  | 'a' => some '\x07'
  | 'b' => some '\x08'
  | 't' => some '\t'
  | '\t' => some '\t'
  | 'n' => some '\n'
  | 'v' => some '\x0b'
  | 'f' => some '\x0c'
  | 'r' => some '\r'
  | 'e' => some '\x1b'
  | ' ' => some ' '
  | '"' => some '"'
  | '\\' => some '\\'
  | '/' => some '/'
  | 'N' => some '\x85'
  | '_' => some '\xa0'
  | 'L' => some '\u2028'
  | 'P' => some '\u2029'
  | _ => none

/-- How many hexadecimal digits follow a letter after a backslash. -/
def escapeWidth? : Char → Option Nat
  | 'x' => some 2
  | 'u' => some 4
  | 'U' => some 8
  | _ => none

/-- The value of hexadecimal digits. -/
def hexadecimal? (digits : List Char) : Option Nat :=
  digits.foldl
    (fun n c => match n, Numeral.hexValue? c with
      | some n, some d => some (16 * n + d)
      | _, _ => none)
    (some 0)

/-- The empty lines after a line break in a quoted scalar. -/
def quotedBreaks : Nat → Cursor → List Char → Except Fault (List Char × Cursor)
  | 0, c, breaks => .ok (breaks, c)
  | fuel + 1, c, breaks =>
    if c.atDocumentMark then .error .malformed
    else
      let (_, c) := c.span fun ch => ch == ' ' || ch == '\t'
      match c.takeBreak with
      | (some ch, c) => quotedBreaks fuel c (breaks ++ [ch])
      | (none, c) => .ok (breaks, c)

/-- The spaces or line breaks inside a quoted scalar. -/
def quotedSpaces (c : Cursor) : Except Fault (List Char × Cursor) := do
  let (spaces, c) := c.span fun ch => ch == ' ' || ch == '\t'
  if c.head == endMark then throw .malformed
  match c.takeBreak with
  | (none, c) => return (spaces, c)
  | (some first, c) =>
    let (more, c) ← quotedBreaks (c.rest.length + 1) c []
    return (fold first more, c)

/-- The character with a code point, and whether there is one. The codes go up to the greatest code
point; beyond the range of the machine the fault is another one. -/
def characterOf (code : Nat) : Except Fault (Char × Bool) :=
  if 0x80000000 ≤ code then .error .outOfRange
  else if 0x110000 ≤ code then .error .noSuchValue
  else if code.isValidChar then .ok (Char.ofNat code, true)
  else .ok ('\ufffd', false)

/-- What stands after a backslash between double quotation marks: its meaning, whether that consists
of characters, and the place after it. -/
def escapeSequence (c : Cursor) : Except Fault (List Char × Bool × Cursor) := do
  let ch := c.head
  match escapeOf? ch, escapeWidth? ch with
  | some meant, _ => return ([meant], true, c.next)
  | none, some width =>
    let c := c.next
    let digits := c.rest.take width
    if digits.length < width then throw .malformed
    match hexadecimal? digits with
    | none => throw .malformed
    | some code =>
      let (meant, sound) ← characterOf code
      return ([meant], sound, c.skip width)
  | none, none =>
    match c.takeBreak with
    | (some _, c) =>
      let (breaks, c) ← quotedBreaks (c.rest.length + 1) c []
      return (breaks, true, c)
    | (none, _) => throw .malformed

/-- A quoted scalar from the character after the first mark to the closing mark; `text` is what has
been read of it, the last character first. -/
def quotedLoop (double : Bool) :
    Nat → Cursor → List Char → Bool → Except Fault (Scalar × Cursor)
  | 0, _, _, _ => .error .malformed
  | fuel + 1, c, text, sound =>
    let ch := c.head
    if !double && ch == '\'' && c.peek 1 == '\'' then
      quotedLoop double fuel (c.skip 2) ('\'' :: text) sound
    else if ch == (if double then '"' else '\'') then
      .ok (⟨String.ofList text.reverse, sound⟩, c.next)
    else if double && ch == '\\' then do
      let (meant, isSound, c) ← escapeSequence c.next
      quotedLoop double fuel c (meant.reverse ++ text) (sound && isSound)
    else if isBlankOrEnd ch then do
      let (spaces, c) ← quotedSpaces c
      quotedLoop double fuel c (spaces.reverse ++ text) sound
    else quotedLoop double fuel c.next (ch :: text) sound

/-- A quoted scalar, from its opening mark on. -/
def quotedScalar (double : Bool) (c : Cursor) : Except Fault (Scalar × Cursor) :=
  quotedLoop double (c.rest.length + 1) c.next [] true

/-! ## Block scalars -/

/-- What the header of a block scalar says about its end: keep all line breaks, or keep none; one is
kept by default. -/
inductive Chomping where
  | clip
  | keep
  | strip
  deriving DecidableEq, Repr

/-- The chomping sign ahead. -/
def takeChomping (c : Cursor) : Option Chomping × Cursor :=
  if c.head == '+' then (some .keep, c.next)
  else if c.head == '-' then (some .strip, c.next)
  else (none, c)

/-- The indentation digit ahead, which is not zero. -/
def takeIncrement (c : Cursor) : Except Fault (Option Nat × Cursor) :=
  if c.head == '0' then .error .malformed
  else if c.head.isDigit then .ok (some (Numeral.digitValue c.head), c.next)
  else .ok (none, c)

/-- The header of a block scalar: a chomping sign and an indentation digit in either order, perhaps
a comment, and the end of the line. -/
def blockHeader (c : Cursor) : Except Fault (Chomping × Option Nat × Cursor) := do
  let (chomping, c) := takeChomping c
  let (increment, c) ← takeIncrement c
  let (chomping, c) := match chomping, increment with
    | none, some _ => takeChomping c
    | chomping, _ => (chomping, c)
  if !isSpaceOrEnd c.head then throw .malformed
  return (chomping.getD .clip, increment, ← c.endLine)

/-- The empty lines at the beginning of a block scalar, and the greatest column that their spaces
reach. -/
def blockIndentation : Nat → Cursor → List Char → Nat → List Char × Nat × Cursor
  | 0, c, breaks, deepest => (breaks, deepest, c)
  | fuel + 1, c, breaks, deepest =>
    if c.head == ' ' then
      let c := c.next
      blockIndentation fuel c breaks (max deepest c.column)
    else
      match c.takeBreak with
      | (some ch, c) => blockIndentation fuel c (breaks ++ [ch]) deepest
      | (none, c) => (breaks, deepest, c)

/-- Spaces up to a column. -/
def skipIndentation (indent : Nat) : Nat → Cursor → Cursor
  | 0, c => c
  | fuel + 1, c =>
    if c.column < indent && c.head == ' ' then skipIndentation indent fuel c.next else c

/-- The empty lines between two lines of a block scalar. -/
def blockBreaks (indent : Nat) : Nat → Cursor → List Char → List Char × Cursor
  | 0, c, breaks => (breaks, c)
  | fuel + 1, c, breaks =>
    match (skipIndentation indent indent c).takeBreak with
    | (some ch, c) => blockBreaks indent fuel c (breaks ++ [ch])
    | (none, c) => (breaks, c)

/-- The lines of a block scalar; with them the line break after the last one and the empty lines
that follow. -/
def blockLines (folded : Bool) (indent : Nat) :
    Nat → Cursor → List Char → List Char → List Char × List Char × List Char × Cursor
  | 0, c, text, breaks => (text, [], breaks, c)
  | fuel + 1, c, text, breaks =>
    let isBlank (ch : Char) : Bool := ch == ' ' || ch == '\t'
    let startsBlank := isBlank c.head
    let (line, c) := c.span (!isBreakOrEnd ·)
    let text := text ++ breaks ++ line
    let (ending, c) := c.takeBreak
    let (breaks, c) := blockBreaks indent (c.rest.length + 1) c []
    if c.column == indent && c.head != endMark then
      let joint :=
        if folded && ending == some '\n' && !startsBlank && !isBlank c.head then
          if breaks.isEmpty then [' '] else []
        else ending.toList
      blockLines folded indent fuel c (text ++ joint) breaks
    else (text, ending.toList, breaks, c)

/-- A block scalar inside a block of the given indentation, from its indicator on. -/
def blockScalar (folded : Bool) (outer : Int) (c : Cursor) : Except Fault (List Char × Cursor) := do
  let (chomping, increment, c) ← blockHeader c.next
  let least := max 1 (outer + 1).toNat
  let (breaks, indent, c) := match increment with
    | none =>
      let (breaks, deepest, c) := blockIndentation (c.rest.length + 1) c [] 0
      (breaks, max least deepest, c)
    | some n =>
      let indent := least + n - 1
      let (breaks, c) := blockBreaks indent (c.rest.length + 1) c []
      (breaks, indent, c)
  let (text, ending, breaks, c) :=
    if c.column == indent && c.head != endMark then
      blockLines folded indent (c.rest.length + 1) c [] breaks
    else ([], [], breaks, c)
  return match chomping with
    | .strip => (text, c)
    | .clip => (text ++ ending, c)
    | .keep => (text ++ ending ++ breaks, c)

end InfixCalculator.Yaml
