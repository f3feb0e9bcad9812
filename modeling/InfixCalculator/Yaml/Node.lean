import InfixCalculator.Yaml.Resolution
import InfixCalculator.Yaml.Token

/-!
# The nodes of a document

The tokens of a document are put together to scalars, sequences and mappings. The grammar has one
symbol of look-ahead; where a node may be missing, an empty plain scalar takes its place. An anchor
gives a node a name, and an alias stands for the node that has the name, which may be one that has only
been begun: so the nodes form a graph, in which a collection may even contain itself. A node is known
by its index in the array of all nodes.

Nodes are read by recursion on their nesting, for which there is a limit (`maxNesting`).
-/

namespace InfixCalculator.Yaml

/-- The index of a node. -/
abbrev NodeId := Nat

/-- What a node holds. -/
inductive Content where
  | scalar (scalar : Scalar)
  | sequence (items : List NodeId)
  | mapping (entries : List (NodeId × NodeId))
  deriving DecidableEq, Repr

/-- A node, with its type unless its tag names no type that there is. -/
structure Node where
  type : Option CoreType
  content : Content
  deriving DecidableEq, Repr

/-- The state in which nodes are put together. -/
structure Reader where
  /-- The tokens ahead. -/
  tokens : List Token
  /-- What is wrong after them, if anything is. -/
  fault : Option Fault
  /-- What the handles of tags stand for. -/
  handles : List (String × String)
  /-- The names of nodes, the last one first. -/
  anchors : List (String × NodeId)
  /-- The nodes that have been begun. -/
  nodes : Array Node

/-- What reads a node. -/
abbrev NodeReader := Reader → Except Fault (NodeId × Reader)

namespace Reader

/-! ## Tokens and nodes -/

/-- The next token; none at the end of the text. -/
def peek (r : Reader) : Except Fault (Option Token) :=
  match r.tokens, r.fault with
  | t :: _, _ => .ok (some t)
  | [], some fault => .error fault
  | [], none => .ok none

/-- Passes the next token. -/
def drop (r : Reader) : Reader :=
  { r with tokens := r.tokens.tail }

/-- Passes the given token, if it is the next one. -/
def take? (r : Reader) (token : Token) : Except Fault (Option Reader) :=
  r.peek.map fun next => if next = some token then some r.drop else none

/-- Whether one of the given tokens is the next one. -/
def sees (r : Reader) (tokens : List Token) : Except Fault Bool :=
  r.peek.map fun next => tokens.any fun token => next = some token

/-- Begins a node, which may have a name. -/
def begin (r : Reader) (anchor : Option String) (node : Node) : NodeId × Reader :=
  let anchors := match anchor with
    | some name => (name, r.nodes.size) :: r.anchors
    | none => r.anchors
  (r.nodes.size, { r with nodes := r.nodes.push node, anchors := anchors })

/-- Puts the content into a node that has been begun. -/
def complete (r : Reader) (id : NodeId) (content : Content) : Reader :=
  { r with nodes := r.nodes.modify id fun node => { node with content := content } }

/-- A missing node. -/
def missing (r : Reader) : NodeId × Reader :=
  r.begin none ⟨some .null, .scalar ⟨"", true⟩⟩

/-- Reads a node, unless one of the given tokens shows that it is missing. -/
def nodeUnless (r : Reader) (tokens : List Token) (node : NodeReader) :
    Except Fault (NodeId × Reader) := do
  if ← r.sees tokens then return r.missing else node r

/-- What comes before a node: its anchor and its tag in either order. -/
def properties (r : Reader) : Except Fault (Option String × Option Tag × Reader) := do
  match ← r.peek with
  | some (.anchor name) =>
    match ← r.drop.peek with
    | some (.tag tag) => return (some name, some tag, r.drop.drop)
    | _ => return (some name, none, r.drop)
  | some (.tag tag) =>
    match ← r.drop.peek with
    | some (.anchor name) => return (some name, some tag, r.drop.drop)
    | _ => return (none, some tag, r.drop)
  | _ => return (none, none, r)

/-! ## Collections -/

/-- The entries of a block sequence, each after a hyphen, up to something else. -/
def blockItems (node : NodeReader) (absent : List Token) :
    Nat → Reader → List NodeId → Except Fault (List NodeId × Reader)
  | 0, _, _ => .error .malformed
  | fuel + 1, r, items => do
    match ← r.take? .blockEntry with
    | none => return (items.reverse, r)
    | some r =>
      let (item, r) ← r.nodeUnless absent node
      blockItems node absent fuel r (item :: items)

/-- The entries of a block mapping, each with its key announced, up to something else. -/
def blockPairs (node : NodeReader) :
    Nat → Reader → List (NodeId × NodeId) → Except Fault (List (NodeId × NodeId) × Reader)
  | 0, _, _ => .error .malformed
  | fuel + 1, r, pairs => do
    match ← r.take? .key with
    | none => return (pairs.reverse, r)
    | some r =>
      let (key, r) ← r.nodeUnless [.key, .value, .blockEnd] node
      match ← r.take? .value with
      | none =>
        let (value, r) := r.missing
        blockPairs node fuel r ((key, value) :: pairs)
      | some r =>
        let (value, r) ← r.nodeUnless [.key, .value, .blockEnd] node
        blockPairs node fuel r ((key, value) :: pairs)

/-- A key of a flow collection that is announced, with its value. -/
def flowPair (node : NodeReader) (close : Token) (r : Reader) :
    Except Fault ((NodeId × NodeId) × Reader) := do
  let (key, r) ← r.nodeUnless [.value, .flowEntry, close] node
  match ← r.take? .value with
  | none =>
    let (value, r) := r.missing
    return ((key, value), r)
  | some r =>
    let (value, r) ← r.nodeUnless [.flowEntry, close] node
    return ((key, value), r)

/-- The entries of a flow collection up to its end, separated by commas; a comma may follow the last
one. -/
def flowEntries (entry : Reader → Except Fault (α × Reader)) (close : Token) :
    Nat → Reader → List α → Except Fault (List α × Reader)
  | 0, _, _ => .error .malformed
  | fuel + 1, r, entries => do
    match ← r.take? close with
    | some r => return (entries.reverse, r)
    | none =>
      let r ← if entries.isEmpty then pure r else
        match ← r.take? .flowEntry with
        | some r => pure r
        | none => throw .malformed
      match ← r.take? close with
      | some r => return (entries.reverse, r)
      | none =>
        let (e, r) ← entry r
        flowEntries entry close fuel r (e :: entries)

/-- An entry of a flow sequence: a node, or a single pair. -/
def flowItem (node : NodeReader) (r : Reader) : Except Fault (NodeId × Reader) := do
  match ← r.take? .key with
  | none => node r
  | some r =>
    let (id, r) := r.begin none ⟨some .map, .mapping []⟩
    let (pair, r) ← r.flowPair node .flowSequenceEnd
    return (id, r.complete id (.mapping [pair]))

/-- An entry of a flow mapping: a pair, or a key alone. -/
def flowMember (node : NodeReader) (r : Reader) :
    Except Fault ((NodeId × NodeId) × Reader) := do
  match ← r.take? .key with
  | some r => r.flowPair node .flowMappingEnd
  | none =>
    let (key, r) ← node r
    let (value, r) := r.missing
    return ((key, value), r)

/-- Passes the end of a block collection. -/
def endBlock (r : Reader) : Except Fault Reader := do
  match ← r.take? .blockEnd with
  | some r => return r
  | none => throw .malformed

/-! ## Nodes -/

/-- Where a node stands: inside a flow collection, in a block, or in a block mapping, where the
hyphens of a sequence need not be indented. -/
inductive Place where
  | flow
  | block
  | inMapping
  deriving DecidableEq, Repr

/-- How a node begins. -/
inductive Opening where
  | scalar (plain : Bool) (scalar : Scalar)
  | flowSequence
  | flowMapping
  | blockSequence
  | blockMapping
  /-- A block sequence whose hyphens are not indented. -/
  | hyphens
  deriving DecidableEq, Repr

/-- How the node ahead begins. A node that is not `bare` has an anchor or a tag, and may be missing
apart from that. -/
def opening (place : Place) (bare : Bool) (r : Reader) : Except Fault (Opening × Reader) := do
  let inBlock := place != .flow
  match ← r.peek with
  | some (.scalar plain scalar) => return (.scalar plain scalar, r.drop)
  | some .flowSequenceStart => return (.flowSequence, r.drop)
  | some .flowMappingStart => return (.flowMapping, r.drop)
  | next =>
    if place == .inMapping && next == some .blockEntry then return (.hyphens, r)
    else if inBlock && next == some .blockSequenceStart then return (.blockSequence, r.drop)
    else if inBlock && next == some .blockMappingStart then return (.blockMapping, r.drop)
    else if bare then throw .malformed
    else return (.scalar true ⟨"", true⟩, r)

/-- Reads the content of the node with the given index that has begun with `opening`; `node` reads the
nodes inside. -/
def content (node : Place → NodeReader) (opening : Opening) (r : Reader) :
    Except Fault (Content × Reader) := do
  let fuel := r.tokens.length + 1
  match opening with
  | .scalar _ scalar => return (.scalar scalar, r)
  | .flowSequence =>
    let (items, r) ← flowEntries (flowItem (node .flow)) .flowSequenceEnd fuel r []
    return (.sequence items, r)
  | .flowMapping =>
    let (pairs, r) ← flowEntries (flowMember (node .flow)) .flowMappingEnd fuel r []
    return (.mapping pairs, r)
  | .blockSequence =>
    let (items, r) ← blockItems (node .block) [.blockEntry, .blockEnd] fuel r []
    return (.sequence items, ← r.endBlock)
  | .blockMapping =>
    let (pairs, r) ← blockPairs (node .inMapping) fuel r []
    return (.mapping pairs, ← r.endBlock)
  | .hyphens =>
    let (items, r) ← blockItems (node .block) [.blockEntry, .key, .value, .blockEnd] fuel r []
    return (.sequence items, r)

/-- The type of a node that has begun with `opening`. -/
def Opening.type (tag : Option String) : Opening → Option CoreType
  | scalar plain s => CoreType.ofScalar tag plain s.text
  | flowMapping => CoreType.ofCollection tag .map
  | blockMapping => CoreType.ofCollection tag .map
  | _ => CoreType.ofCollection tag .seq

/-- The tag ahead in full. -/
def fullTag? (r : Reader) (tag : Option Tag) : Except Fault (Option String) :=
  match tag with
  | none => .ok none
  | some tag => (tag.expand r.handles).map some

/-- A node: an alias, or content with or without properties. A name is given only once. The number
tells how deeply nodes may be nested. -/
def node : Nat → Place → NodeReader
  | 0, _, _ => .error .tooDeep
  | fuel + 1, place, r => do
    match ← r.peek with
    | some (.alias name) =>
      match r.anchors.lookup name with
      | some id => return (id, r.drop)
      | none => throw .malformed
    | _ =>
      let (anchor, tag, r) ← r.properties
      let tag ← r.fullTag? tag
      let (opening, r) ← r.opening place (anchor.isNone && tag.isNone)
      if anchor.any fun name => (r.anchors.lookup name).isSome then throw .malformed
      let (id, r) := r.begin anchor ⟨opening.type tag, .sequence []⟩
      let (content, r) ← content (node fuel) opening r
      return (id, r.complete id content)

/-! ## Documents -/

/-- How many collections may be nested in one another. -/
def maxNesting : Nat := 488

/-- Passes the marks that end a document. -/
def skipEnds (r : Reader) : Reader :=
  { r with tokens := r.tokens.dropWhile (· == .documentEnd) }

/-- Reads the directives before a document. The version is told at most once, and the major part of it
is one; a handle is given a meaning at most once. -/
def directivesFrom (fault : Option Fault) (versionSeen : Bool) (handles : List (String × String)) :
    List Token → Except Fault (List (String × String) × List Token)
  | .directive (.version major) :: rest =>
    if versionSeen || major != 1 then .error .malformed
    else directivesFrom fault true handles rest
  | .directive (.handle handle beginning) :: rest =>
    if (handles.lookup handle).isSome then .error .malformed
    else directivesFrom fault versionSeen ((handle, beginning) :: handles) rest
  | .directive .other :: rest => directivesFrom fault versionSeen handles rest
  | tokens =>
    match tokens, fault with
    | [], some fault => .error fault
    | tokens, _ => .ok (handles ++ defaultHandles, tokens)

/-- Reads the directives and the mark at the beginning of a document. -/
def documentStart (r : Reader) : Except Fault Reader := do
  let (handles, tokens) ← directivesFrom r.fault false [] r.tokens
  match ← { r with tokens := tokens, handles := handles }.take? .documentStart with
  | some r => return r
  | none => throw .malformed

/-- Whether a document without content ends here. -/
def atEnd (r : Reader) : Except Fault Bool :=
  r.peek.map fun next =>
    match next with
    | none => true
    | some (.directive _) => true
    | some .documentStart => true
    | some .documentEnd => true
    | _ => false

/-- The node of a document. Without a mark at its beginning the document must not be empty. -/
def document (r : Reader) : Except Fault (NodeId × Reader) := do
  let marked ← r.peek.map fun next =>
    match next with
    | some (.directive _) => true
    | some .documentStart => true
    | _ => false
  let r ← if marked then r.documentStart else pure r
  if marked && (← r.atEnd) then return r.missing
  else node (maxNesting + 1) .block r

/-- Makes sure that no other document follows. -/
def finish (r : Reader) : Except Fault Unit := do
  let r := r.skipEnds
  match ← r.peek with
  | none => return
  | some _ =>
    let _ ← r.documentStart
    throw .malformed

end Reader

/-- The nodes of the only document in a text, and the index of its root; nothing for a text without
documents. -/
def graphOfText (text : List Char) : Except Fault (Option (NodeId × Array Node)) := do
  let tokens := Tokens.ofText text
  let r : Reader := ⟨tokens.known, tokens.fault, defaultHandles, [], #[]⟩
  match ← r.peek with
  | none => return none
  | some _ =>
    let (root, r) ← r.document
    r.finish
    return some (root, r.nodes)

end InfixCalculator.Yaml
