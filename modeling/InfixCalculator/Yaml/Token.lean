import InfixCalculator.Yaml.Scalar
import InfixCalculator.Yaml.Tag

/-!
# The tokens of a document

Indentation and indicators are turned into tokens for the beginning and the end of collections, for
their entries, keys and values, and for scalars. A *simple key* is one that shows itself as a key only
by the colon after it: every place where one may begin is remembered, and the tokens that announce a
key are put in front of it when the colon comes. It must be on one line and not too long.

A token is known as soon as no key can begin before it any more. Where the text cannot be split any
further, the tokens that are known by then still count: what is wrong with them is found first.
-/

namespace InfixCalculator.Yaml

/-- The tokens of a document. -/
inductive Token where
  /-- A line before a document. -/
  | directive (directive : Directive)
  | documentStart
  | documentEnd
  | blockSequenceStart
  | blockMappingStart
  | blockEnd
  | flowSequenceStart
  | flowSequenceEnd
  | flowMappingStart
  | flowMappingEnd
  | blockEntry
  | flowEntry
  | key
  | value
  /-- A reference to an anchored node. -/
  | alias (name : String)
  /-- The name of the node that follows. -/
  | anchor (name : String)
  /-- The type of the node that follows. -/
  | tag (tag : Tag)
  /-- A scalar, plain or not. -/
  | scalar (plain : Bool) (scalar : Scalar)
  deriving DecidableEq, Repr

/-- A place where a simple key may have begun. -/
structure PendingKey where
  /-- The depth of flow collections around it. -/
  flow : Nat
  /-- How many tokens precede it. -/
  tokens : Nat
  /-- Whether only a key may stand there. -/
  required : Bool
  /-- The place itself. -/
  index : Nat
  line : Nat
  column : Nat
  deriving DecidableEq, Repr

/-- The state in which a document is split into tokens. -/
structure Scanner where
  /-- The place that has been reached. -/
  cursor : Cursor
  /-- The depth of flow collections. -/
  flow : Nat
  /-- The column of the current block collection; `-1` outside of all. -/
  indent : Int
  /-- The columns of the block collections around it, the innermost first. -/
  outer : List Int
  /-- The tokens so far. -/
  tokens : Array Token
  /-- Whether a simple key may begin here. -/
  allowKey : Bool
  /-- The places where a simple key may have begun, at most one for each depth. -/
  keys : List PendingKey

namespace Scanner

/-- The state before the first character. -/
def start (text : List Char) : Scanner :=
  ⟨.start text, 0, -1, [], #[], true, []⟩

/-- Appends a token. -/
def emit (s : Scanner) (token : Token) : Scanner :=
  { s with tokens := s.tokens.push token }

/-! ## Indentation -/

/-- Ends the block collections that are further in than the given column. -/
def unwindFrom (column : Int) : List Int → Scanner → Scanner
  | [], s => if column < s.indent then { s.emit .blockEnd with indent := -1 } else s
  | outer :: rest, s =>
    if column < s.indent then
      unwindFrom column rest { s.emit .blockEnd with indent := outer, outer := rest }
    else s

/-- Ends the block collections that are further in than the given column. Indentation has no meaning
inside flow collections. -/
def unwind (s : Scanner) (column : Int) : Scanner :=
  if 0 < s.flow then s else unwindFrom column s.outer s

/-- Inserts a token before the ones from a given index on. -/
def insertAt (s : Scanner) (index : Nat) (token : Token) : Scanner :=
  if h : index ≤ s.tokens.size then { s with tokens := s.tokens.insertIdx index token h }
  else s.emit token

/-- Begins a block collection at a column that is further in than the current one; the token for its
beginning goes before the tokens from the given index on. -/
def openBlock (s : Scanner) (column : Nat) (index : Nat) (token : Token) : Scanner :=
  if s.indent < column then
    { s.insertAt index token with indent := column, outer := s.indent :: s.outer }
  else s

/-! ## Simple keys -/

/-- Whether a pending key is too far back to be one. -/
def isStale (s : Scanner) (k : PendingKey) : Bool :=
  k.line != s.cursor.line || 1024 < s.cursor.index - k.index

/-- Gives up the pending keys that are too far back. -/
def dropStaleKeys (s : Scanner) : Except Fault Scanner :=
  if s.keys.any fun k => s.isStale k && k.required then .error .malformed
  else .ok { s with keys := s.keys.filter fun k => !s.isStale k }

/-- How many tokens are known: those before the first pending key. -/
def knownCount (s : Scanner) : Nat :=
  (s.keys.filter fun k => !s.isStale k).foldl (fun n k => min n k.tokens) s.tokens.size

/-- Gives up the pending key of the current depth. -/
def dropKey (s : Scanner) : Except Fault Scanner :=
  if s.keys.any fun k => k.flow == s.flow && k.required then .error .malformed
  else .ok { s with keys := s.keys.filter fun k => k.flow != s.flow }

/-- Remembers this place as one where a simple key may begin. -/
def noteKey (s : Scanner) : Except Fault Scanner := do
  if !s.allowKey then return s
  let required := s.flow == 0 && s.indent == s.cursor.column
  let s ← s.dropKey
  let c := s.cursor
  return { s with keys := ⟨s.flow, s.tokens.size, required, c.index, c.line, c.column⟩ :: s.keys }

/-! ## Indicators -/

/-- Takes a number of characters as an indicator. -/
def indicator (s : Scanner) (length : Nat) (token : Token) : Scanner :=
  { s.emit token with cursor := s.cursor.skip length }

/-- The mark at the beginning or the end of a document. -/
def documentMark (s : Scanner) (token : Token) : Except Fault Scanner := do
  let s ← (s.unwind (-1)).dropKey
  return { s.indicator 3 token with allowKey := false }

/-- The beginning of a flow collection. -/
def openFlow (s : Scanner) (token : Token) : Except Fault Scanner := do
  let s ← s.noteKey
  return { s.indicator 1 token with flow := s.flow + 1, allowKey := true }

/-- The end of a flow collection. -/
def closeFlow (s : Scanner) (token : Token) : Except Fault Scanner := do
  let s ← s.dropKey
  return { s.indicator 1 token with flow := s.flow - 1, allowKey := false }

/-- A comma between the entries of a flow collection. -/
def flowComma (s : Scanner) : Except Fault Scanner := do
  let s ← s.dropKey
  return { s.indicator 1 .flowEntry with allowKey := true }

/-- A hyphen before an entry of a block sequence. -/
def blockHyphen (s : Scanner) : Except Fault Scanner := do
  if s.flow == 0 && !s.allowKey then throw .malformed
  let s := if s.flow == 0 then
      s.openBlock s.cursor.column s.tokens.size .blockSequenceStart else s
  let s ← s.dropKey
  return { s.indicator 1 .blockEntry with allowKey := true }

/-- A question mark before a key. -/
def questionMark (s : Scanner) : Except Fault Scanner := do
  if s.flow == 0 && !s.allowKey then throw .malformed
  let s := if s.flow == 0 then
      s.openBlock s.cursor.column s.tokens.size .blockMappingStart else s
  let s ← s.dropKey
  return { s.indicator 1 .key with allowKey := s.flow == 0 }

/-- A colon before a value. -/
def colon (s : Scanner) : Except Fault Scanner := do
  match s.keys.find? fun k => k.flow == s.flow with
  | some k =>
    let s := { s with keys := s.keys.filter fun k => k.flow != s.flow }
    let s := s.insertAt k.tokens .key
    let s := if s.flow == 0 then s.openBlock k.column k.tokens .blockMappingStart else s
    return { s.indicator 1 .value with allowKey := false }
  | none =>
    if s.flow == 0 && !s.allowKey then throw .malformed
    let s := if s.flow == 0 then
        s.openBlock s.cursor.column s.tokens.size .blockMappingStart else s
    let s ← s.dropKey
    return { s.indicator 1 .value with allowKey := s.flow == 0 }

/-! ## Directives, anchors and tags -/

/-- A directive line. -/
def directiveLine (s : Scanner) : Except Fault Scanner := do
  let s ← (s.unwind (-1)).dropKey
  let (directive, c) ← takeDirective s.cursor
  return { s.emit (.directive directive) with cursor := c, allowKey := false }

/-- An alias or an anchor: its indicator and a name. -/
def named (s : Scanner) (token : String → Token) : Except Fault Scanner := do
  let s ← s.noteKey
  let (name, c) := s.cursor.next.span isNameChar
  let follows (ch : Char) : Bool :=
    isBlankOrEnd ch || ['?', ':', ',', ']', '}', '%', '@', '\x60'].contains ch
  if name.isEmpty || !follows c.head then throw .malformed
  return { s.emit (token (String.ofList name)) with cursor := c, allowKey := false }

/-- A tag. -/
def tag (s : Scanner) : Except Fault Scanner := do
  let s ← s.noteKey
  let (tag, c) ← takeTag s.cursor
  return { s.emit (.tag tag) with cursor := c, allowKey := false }

/-! ## Scalars -/

/-- A plain scalar. -/
def plain (s : Scanner) : Except Fault Scanner := do
  let s ← s.noteKey
  let (text, broken, c) := plainScalar (0 < s.flow) s.indent s.cursor
  return { s.emit (.scalar true ⟨String.ofList text, true⟩) with cursor := c, allowKey := broken }

/-- A quoted scalar. -/
def quoted (s : Scanner) (double : Bool) : Except Fault Scanner := do
  let s ← s.noteKey
  let (scalar, c) ← quotedScalar double s.cursor
  return { s.emit (.scalar false scalar) with cursor := c, allowKey := false }

/-- A block scalar. -/
def block (s : Scanner) (folded : Bool) : Except Fault Scanner := do
  let s ← s.dropKey
  let (text, c) ← blockScalar folded s.indent s.cursor
  return { s.emit (.scalar false ⟨String.ofList text, true⟩) with cursor := c, allowKey := true }

/-! ## The whole document -/

/-- Spaces, comments and line breaks. After a line break a simple key may begin, except in flow
collections. -/
def skipBlanks : Nat → Scanner → Scanner
  | 0, s => s
  | fuel + 1, s =>
    match s.cursor.skipSpaces.skipComment.takeBreak with
    | (some _, c) => skipBlanks fuel { s with cursor := c, allowKey := s.allowKey || s.flow == 0 }
    | (none, c) => { s with cursor := c }

/-- A character with a meaning of its own at the beginning of a token. -/
def isIndicator (c : Char) : Bool :=
  isFlowIndicator c ||
    ['-', '?', ':', '#', '&', '*', '!', '|', '>', '\'', '"', '%', '@', '\x60'].contains c

/-- Whether a plain scalar may begin here. -/
def startsPlain (s : Scanner) : Bool :=
  let ch := s.cursor.head
  let following := s.cursor.peek 1
  (!isBlankOrEnd ch && !isIndicator ch) ||
    (!isBlankOrEnd following && (ch == '-' || (s.flow == 0 && (ch == '?' || ch == ':'))))

/-- Takes the next token; the scanner is at its beginning. -/
def fetch (s : Scanner) : Except Fault Scanner :=
  let c := s.cursor
  let ch := c.head
  let spaced := isBlankOrEnd (c.peek 1)
  let inFlow := 0 < s.flow
  if ch == '%' && c.column == 0 then s.directiveLine
  else if c.column == 0 && c.marks '-' then s.documentMark .documentStart
  else if c.column == 0 && c.marks '.' then s.documentMark .documentEnd
  else if ch == '[' then s.openFlow .flowSequenceStart
  else if ch == '{' then s.openFlow .flowMappingStart
  else if ch == ']' then s.closeFlow .flowSequenceEnd
  else if ch == '}' then s.closeFlow .flowMappingEnd
  else if ch == ',' then s.flowComma
  else if ch == '-' && spaced then s.blockHyphen
  else if ch == '?' && (inFlow || spaced) then s.questionMark
  else if ch == ':' && (inFlow || spaced) then s.colon
  else if ch == '*' then s.named .alias
  else if ch == '&' then s.named .anchor
  else if ch == '!' then s.tag
  else if ch == '|' && !inFlow then s.block false
  else if ch == '>' && !inFlow then s.block true
  else if ch == '\'' then s.quoted false
  else if ch == '"' then s.quoted true
  else if s.startsPlain then s.plain
  else .error .malformed

/-- Goes on to the next token and takes it; the result tells whether the text has ended instead. -/
def advance (s : Scanner) : Except Fault (Scanner × Bool) := do
  let s ← (skipBlanks (s.cursor.rest.length + 1) s).dropStaleKeys
  let s := s.unwind s.cursor.column
  if s.cursor.head == endMark then return (← (s.unwind (-1)).dropKey, true)
  else return (← s.fetch, false)

end Scanner

/-- The tokens of a text that are known, and what is wrong after them, if anything is. -/
structure Tokens where
  known : List Token
  fault : Option Fault
  deriving DecidableEq, Repr

/-- Takes tokens up to the end of the text. -/
def Scanner.scanAll : Nat → Scanner → Tokens
  | 0, s => ⟨s.tokens.toList.take s.knownCount, some .malformed⟩
  | fuel + 1, s =>
    match s.advance with
    | .error fault => ⟨s.tokens.toList.take s.knownCount, some fault⟩
    | .ok (s, true) => ⟨s.tokens.toList, none⟩
    | .ok (s, false) => Scanner.scanAll fuel s

/-- The tokens of a document. A byte order mark at its beginning is skipped. -/
def Tokens.ofText (text : List Char) : Tokens :=
  if !text.all isAllowed then ⟨[], some .malformed⟩
  else
    let body := match text with
      | '\ufeff' :: rest => rest
      | text => text
    Scanner.scanAll (body.length + 1) (.start body)

end InfixCalculator.Yaml
