import InfixCalculator.Text.Numeral
import InfixCalculator.Yaml.Cursor

/-!
# Tags and directives

A tag gives the type of a node. It is written in full between angle brackets, or with a handle that
stands for the beginning of its name, or as a lone exclamation mark, which leaves the type open. The
types that a document may use are the `CoreType`s; their names have a common beginning, `coreName`.

A directive is a line before a document. It tells the version of the format, or what a handle stands
for; all others are ignored.
-/

namespace InfixCalculator.Yaml

/-! ## Types -/

/-- The types of nodes. -/
inductive CoreType where
  | null
  | bool
  | int
  | float
  | binary
  | timestamp
  | str
  | seq
  | map
  | set
  /-- A list of single entries with different keys. -/
  | omap
  /-- A list of single entries. -/
  | pairs
  /-- The key of a mapping that brings in the entries of others. -/
  | merge
  /-- The key of a mapping whose value can stand for the mapping. -/
  | value
  deriving DecidableEq, Repr

namespace CoreType

/-- All types. -/
def all : List CoreType :=
  [null, bool, int, float, binary, timestamp, str, seq, map, set, omap, pairs, merge, value]

/-- The name of a type without the common beginning. -/
def name : CoreType → String
  | null => "null"
  | bool => "bool"
  | int => "int"
  | float => "float"
  | binary => "binary"
  | timestamp => "timestamp"
  | str => "str"
  | seq => "seq"
  | map => "map"
  | set => "set"
  | omap => "omap"
  | pairs => "pairs"
  | merge => "merge"
  | value => "value"

/-- What the names of all types begin with. -/
def coreName : String := "tag:yaml.org,2002:"

/-- The type with a name in full. -/
def ofName? (name : String) : Option CoreType :=
  all.find? fun type => coreName ++ type.name == name

end CoreType

/-- What the handles stand for that need no directive. -/
def defaultHandles : List (String × String) :=
  [("!", "!"), ("!!", CoreType.coreName)]

/-- The tag that leaves the type of a node open. -/
def openTag : String := "!"

/-! ## Parts of a tag -/

/-- A handle: an exclamation mark alone before a space, or a name between two of them, which may be
empty. -/
def takeHandle (c : Cursor) : Except Fault (String × Cursor) :=
  if c.head != '!' then .error .malformed
  else if c.peek 1 == ' ' then .ok ("!", c.next)
  else
    let (name, c) := c.next.span isNameChar
    if c.head == '!' then .ok (String.ofList ('!' :: name ++ ['!']), c.next) else .error .malformed

/-- A character of a tag that stands for itself. -/
def isTagChar (c : Char) : Bool :=
  c.isAlphanum || "-;/?:@&=+$,_.!~*'()[]".toList.contains c

/-- The bytes ahead that are written as a percent sign and two hexadecimal digits each. -/
def takeBytes : Nat → Cursor → List UInt8 → Except Fault (List UInt8 × Cursor)
  | 0, c, bytes => .ok (bytes.reverse, c)
  | fuel + 1, c, bytes =>
    if c.head != '%' then .ok (bytes.reverse, c)
    else
      match Numeral.hexValue? (c.peek 1), Numeral.hexValue? (c.peek 2) with
      | some high, some low => takeBytes fuel (c.skip 3) ((16 * high + low).toUInt8 :: bytes)
      | _, _ => .error .malformed

/-- The name ahead, of which characters may be written by the bytes of their encoding; `name` is what
has been read of it. -/
def takeNameFrom : Nat → Cursor → List Char → Except Fault (List Char × Cursor)
  | 0, c, name => .ok (name, c)
  | fuel + 1, c, name =>
    if c.head == '%' then do
      let (bytes, c) ← takeBytes c.rest.length c []
      match String.fromUTF8? (ByteArray.mk bytes.toArray) with
      | some text => takeNameFrom fuel c (name ++ text.toList)
      | none => .error .malformed
    else
      let (run, next) := c.span isTagChar
      if run.isEmpty then .ok (name, c) else takeNameFrom fuel next (name ++ run)

/-- The name ahead, which must not be empty. -/
def takeName (c : Cursor) : Except Fault (String × Cursor) := do
  let (name, c) ← takeNameFrom (c.rest.length + 1) c []
  if name.isEmpty then .error .malformed else .ok (String.ofList name, c)

/-! ## Tags -/

/-- A tag as it is written. -/
structure Tag where
  /-- The handle, if there is one. -/
  handle : Option String
  /-- What follows the handle, or the tag in full. -/
  name : String
  deriving DecidableEq, Repr

/-- The tag ahead, without what has to follow it. -/
def takeTagAlone (c : Cursor) : Except Fault (Tag × Cursor) := do
  if c.peek 1 == '<' then
    let (name, c) ← takeName (c.skip 2)
    if c.head == '>' then .ok (⟨none, name⟩, c.next) else .error .malformed
  else if isBlankOrEnd (c.peek 1) then return (⟨none, openTag⟩, c.next)
  else
    let word := c.next.rest.takeWhile (!isSpaceOrEnd ·)
    let (handle, c) ← if word.contains '!' then takeHandle c else pure ("!", c.next)
    let (name, c) ← takeName c
    return (⟨some handle, name⟩, c)

/-- The tag ahead; a space or the end of the line follows. -/
def takeTag (c : Cursor) : Except Fault (Tag × Cursor) := do
  let (tag, c) ← takeTagAlone c
  if isSpaceOrEnd c.head then return (tag, c) else throw .malformed

/-- A tag in full, given what the handles stand for. -/
def Tag.expand (handles : List (String × String)) (tag : Tag) : Except Fault String :=
  match tag.handle with
  | none => .ok tag.name
  | some handle =>
    match handles.lookup handle with
    | some beginning => .ok (beginning ++ tag.name)
    | none => .error .malformed

/-! ## Directives -/

/-- A line before a document. -/
inductive Directive where
  /-- The version of the format; the minor part of it does not matter. -/
  | version (major : Nat)
  /-- What a handle stands for. -/
  | handle (handle beginning : String)
  /-- Any other directive. -/
  | other
  deriving DecidableEq, Repr

/-- The number ahead. -/
def takeNumber (c : Cursor) : Except Fault (Nat × Cursor) :=
  let (digits, c) := c.span Char.isDigit
  if digits.isEmpty then .error .malformed
  else if Numeral.maxDigits < digits.length then .error .noSuchValue
  else .ok (Numeral.ofDigits digits, c)

/-- The version ahead. -/
def takeVersion (c : Cursor) : Except Fault (Directive × Cursor) := do
  let (major, c) ← takeNumber c
  if c.head != '.' then throw .malformed
  let (_, c) ← takeNumber c.next
  if isSpaceOrEnd c.head then return (.version major, c) else throw .malformed

/-- The handle ahead and what it stands for. -/
def takeHandleMeaning (c : Cursor) : Except Fault (Directive × Cursor) := do
  let (handle, c) ← takeHandle c
  if c.head != ' ' then throw .malformed
  let (beginning, c) ← takeName c.skipSpaces
  if isSpaceOrEnd c.head then return (.handle handle beginning, c) else throw .malformed

/-- The directive ahead, with the line break after it. -/
def takeDirective (c : Cursor) : Except Fault (Directive × Cursor) := do
  let (name, c) := c.next.span isNameChar
  if name.isEmpty || !isSpaceOrEnd c.head then throw .malformed
  let (directive, c) ←
    if name == "YAML".toList then takeVersion c.skipSpaces
    else if name == "TAG".toList then takeHandleMeaning c.skipSpaces
    else pure (.other, (c.span (!isBreakOrEnd ·)).2)
  return (directive, ← c.endLine)

end InfixCalculator.Yaml
