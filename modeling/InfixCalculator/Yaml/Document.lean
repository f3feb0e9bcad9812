import InfixCalculator.Yaml.Value

/-!
# Documents

The document of a graph of nodes is read collection by collection, the root first and the others in
the order in which they are met; each collection is read once. The first fault that is met counts.

Before a mapping is read, the mappings that its merge keys bring in are put in front of its own entries.
In a mapping the last of equal keys gives the value and the first one the place.
-/

namespace InfixCalculator.Yaml

/-- The nodes of a document. -/
structure Graph where
  nodes : Array Node

namespace Graph

/-- The node with an index. -/
def node (g : Graph) (id : NodeId) : Node :=
  (g.nodes[id]?).getD ⟨none, .sequence []⟩

/-- The entries of a node, if it is a mapping. -/
def entries? (g : Graph) (id : NodeId) : Option (List (NodeId × NodeId)) :=
  match (g.node id).content with
  | .mapping entries => some entries
  | _ => none

/-- The graph in which a mapping has the given entries. -/
def withEntries (g : Graph) (id : NodeId) (entries : List (NodeId × NodeId)) : Graph :=
  ⟨g.nodes.modify id fun node => { node with content := .mapping entries }⟩

/-- Whether a node has the given type. -/
def hasType (g : Graph) (type : CoreType) (id : NodeId) : Bool :=
  (g.node id).type == some type

/-! ## Merging -/

/-- How many entries have a merge key. -/
def mergeCount (g : Graph) : Nat :=
  let count (node : Node) : Nat :=
    match node.content with
    | .mapping entries => entries.countP fun e => g.hasType .merge e.1
    | _ => 0
  g.nodes.foldl (fun total node => total + count node) 0

/-- The graph in which a key of a value is a text. -/
def plainKey (g : Graph) (id : NodeId) : Graph :=
  if g.hasType .value id then
    ⟨g.nodes.modify id fun node => { node with type := some .str }⟩
  else g

/-- What the first merge key among entries brings in, and the other entries. -/
def firstMerge (g : Graph) (entries : List (NodeId × NodeId)) :
    Option (NodeId × List (NodeId × NodeId)) :=
  match entries.find? fun e => g.hasType .merge e.1 with
  | some e => some (e.2, entries.eraseP fun e => g.hasType .merge e.1)
  | none => none

mutual

/-- Resolves the merge keys of a mapping. Each of them is taken out of the mapping before what it brings
in is looked at, so that a mapping may even bring in itself, and `fuel` is bounded by twice the number
of merge keys. -/
def flatten : Nat → Graph → NodeId → Except Fault Graph
  | 0, g, _ => .ok g
  | fuel + 1, g, id =>
    let entries := (g.entries? id).getD []
    match g.firstMerge entries with
    | none => .ok (entries.foldl (fun g e => g.plainKey e.1) g)
    | some (source, others) => do
      let (merged, g) ← mergedEntries fuel (g.withEntries id others) source
      let g ← flatten fuel g id
      return g.withEntries id (merged ++ (g.entries? id).getD [])

/-- The entries that a node brings in: those of a mapping, or of a sequence of mappings, the last one
first. -/
def mergedEntries : Nat → Graph → NodeId → Except Fault (List (NodeId × NodeId) × Graph)
  | 0, g, _ => .ok ([], g)
  | fuel + 1, g, source =>
    match (g.node source).content with
    | .mapping _ => do
      let g ← flatten fuel g source
      return ((g.entries? source).getD [], g)
    | .sequence items =>
      items.foldlM
        (fun (merged, g) item => do
          if (g.entries? item).isNone then throw .malformed
          let g ← flatten fuel g item
          return ((g.entries? item).getD [] ++ merged, g))
        ([], g)
    | .scalar _ => .error .malformed

end

/-- Resolves the merge keys of a mapping. -/
def merge (g : Graph) (id : NodeId) : Except Fault Graph :=
  flatten (2 * g.mergeCount + 1) g id

/-! ## Scalars -/

/-- The text of a node: of a scalar its own, of a mapping that of the value under its value key. The
way to it passes each node at most once, or never ends. -/
def scalarFrom (g : Graph) : Nat → NodeId → Except Fault Scalar
  | 0, _ => .error .tooDeep
  | fuel + 1, id =>
    match (g.node id).content with
    | .scalar s => .ok s
    | .sequence _ => .error .malformed
    | .mapping entries =>
      match entries.find? fun e => g.hasType .value e.1 with
      | some e => g.scalarFrom fuel e.2
      | none => .error .malformed

/-- The value of a node that has the type of a scalar. -/
def scalarValue (g : Graph) (type : CoreType) (id : NodeId) : Except Fault Value := do
  let s ← g.scalarFrom (g.nodes.size + 1) id
  if type == .timestamp && (g.entries? id).isSome then throw .nestedTime
  valueOfText type id s

end Graph

/-! ## Collections -/

/-- Whether a type is one of collections. -/
def CoreType.isCollection (type : CoreType) : Bool :=
  [seq, map, set, omap, pairs].contains type

/-- The state in which a document is read. -/
structure Survey where
  graph : Graph
  /-- The collections that have been met but not been read, in this order. -/
  queue : List NodeId
  /-- The collections that have been met. -/
  met : List NodeId

/-- The entries of a mapping. -/
abbrev Entries := List (Value × Value)

/-- Puts an entry into a mapping, in the place of an entry with the same key or else at the end. -/
def putEntry (entries : Entries) (key value : Value) : Entries :=
  if entries.any fun e => sameKey e.1 key then
    entries.map fun e => if sameKey e.1 key then (e.1, value) else e
  else entries ++ [(key, value)]

namespace Survey

/-- The value of a node. A collection that is met for the first time is put into the queue. -/
def value (s : Survey) (id : NodeId) : Except Fault (Value × Survey) :=
  match (s.graph.node id).type with
  | none => .error .malformed
  | some type =>
    if type.isCollection then
      if s.met.contains id then .ok (.collection, s)
      else .ok (.collection, { s with queue := s.queue ++ [id], met := id :: s.met })
    else if type == .merge || type == .value then .error .malformed
    else (s.graph.scalarValue type id).map fun v => (v, s)

/-- Reads the items of a sequence. -/
def items (s : Survey) : List NodeId → Except Fault Survey
  | [] => .ok s
  | id :: rest => do
    let (_, s) ← s.value id
    s.items rest

/-- Reads the entries of a mapping, and puts them into those that have been read. -/
def pairs (s : Survey) (read : Entries) : List (NodeId × NodeId) → Except Fault (Entries × Survey)
  | [] => .ok (read, s)
  | (keyId, valueId) :: rest => do
    let (key, s) ← s.value keyId
    if !key.isKey then throw .malformed
    let (value, s) ← s.value valueId
    s.pairs (putEntry read key value) rest

/-- Reads the items of a list of single entries. -/
def singles (s : Survey) : List NodeId → Except Fault Survey
  | [] => .ok s
  | id :: rest => do
    match s.graph.entries? id with
    | some [(keyId, valueId)] =>
      let (_, s) ← s.value keyId
      let (_, s) ← s.value valueId
      s.singles rest
    | _ => throw .malformed

/-- Reads a collection; the entries are those of a mapping. -/
def collection (s : Survey) (id : NodeId) : Except Fault (Entries × Survey) := do
  let node := s.graph.node id
  match node.type, node.content with
  | some .seq, .sequence ids => return ([], ← s.items ids)
  | some .omap, .sequence ids => return ([], ← s.singles ids)
  | some .pairs, .sequence ids => return ([], ← s.singles ids)
  | some .map, .mapping _ =>
    let graph ← s.graph.merge id
    { s with graph := graph }.pairs [] ((graph.entries? id).getD [])
  | some .set, .mapping _ =>
    let graph ← s.graph.merge id
    { s with graph := graph }.pairs [] ((graph.entries? id).getD [])
  | _, _ => throw .malformed

/-- Reads the collections in the queue and those that are met in them. -/
def rest : Nat → Survey → Except Fault Unit
  | 0, _ => .ok ()
  | fuel + 1, s =>
    match s.queue with
    | [] => .ok ()
    | id :: queue => do
      let (_, s) ← { s with queue := queue }.collection id
      rest fuel s

end Survey

/-! ## Documents -/

/-- What a document holds. -/
inductive Document where
  /-- Nothing. -/
  | blank
  /-- A mapping with the given entries. -/
  | mapping (entries : Entries)
  /-- Something else. -/
  | other
  deriving DecidableEq

/-- The document with the given nodes and root. -/
def Document.ofGraph (root : NodeId) (nodes : Array Node) : Except Fault Document := do
  let (value, s) ← { graph := ⟨nodes⟩, queue := [], met := [] : Survey }.value root
  match value with
  | .null => return .blank
  | .collection =>
    let (entries, s) ← { s with queue := [] }.collection root
    Survey.rest nodes.size s
    return if s.graph.hasType .map root then .mapping entries else .other
  | _ => return .other

/-- The only document in a text; it is blank if the text has none. -/
def Document.ofText (text : String) : Except Fault Document := do
  match ← graphOfText text.toList with
  | none => return .blank
  | some (root, nodes) => Document.ofGraph root nodes

end InfixCalculator.Yaml
