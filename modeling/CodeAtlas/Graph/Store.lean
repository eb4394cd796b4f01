import CodeAtlas.Graph.Cell
import CodeAtlas.Graph.Identity

/-! The graph and the writes on it. Nodes and edges stand in the order of their first write. A write
either succeeds with a new graph or fails with an error and no graph, so whatever is built from
writes is all or nothing. -/

namespace CodeAtlas

namespace Graph

/-- A node. A stub is known by reference only; its attributes hold nothing until it is written. -/
structure Node where
  id : String
  label : Label
  context : String
  key : List String
  attributes : List (Option Cell)
  isStub : Bool
  createdAt : Int
  updatedAt : Int
  deriving DecidableEq, Repr, Inhabited

namespace Node

def identity (node : Node) : Identity := ⟨node.label, node.key, node.context⟩

def displayName (node : Node) : String := node.key.headD ""

def keyValue (node : Node) (column : String) : String :=
  ((node.label.keyColumns.zip node.key).lookup column).getD ""

def language (node : Node) : String := node.keyValue "language"

def attribute? (node : Node) (column : String) : Option Cell :=
  ((node.label.attributeColumns.zip node.attributes).lookup column).join

def body? (node : Node) : Option String := (node.attribute? "body").bind Cell.text?

/-- A node written for the first time: columns that are not given get their missing value. -/
def created (identity : Identity) (given : Attributes) (now : Int) : Node where
  id := identity.id
  label := identity.label
  context := identity.context
  key := identity.key
  attributes := identity.label.attributeColumns.map fun column =>
    some ((given.lookup column).getD (.missing identity.label column))
  isStub := false
  createdAt := now
  updatedAt := now

def stub (identity : Identity) (now : Int) : Node where
  id := identity.id
  label := identity.label
  context := identity.context
  key := identity.key
  attributes := identity.label.attributeColumns.map fun _ => none
  isStub := true
  createdAt := now
  updatedAt := now

/-- A node written again: given columns change, the rest stays; the node is no stub any more and its
time of change never moves back. -/
def overwritten (node : Node) (given : Attributes) (now : Int) : Node :=
  { node with
    attributes := (node.label.attributeColumns.zip node.attributes).map fun (column, old) =>
      match given.lookup column with
      | some value => some value
      | none => old
    isStub := false
    updatedAt := max now node.updatedAt }

end Node

/-- An edge between two nodes, given by their ids. Only import edges hold names. -/
structure Edge where
  type : EdgeType
  source : String
  target : String
  context : String
  createdAt : Int
  imports : Option String
  deriving DecidableEq, Repr, Inhabited

end Graph

structure Graph where
  nodes : List Graph.Node
  edges : List Graph.Edge
  deriving DecidableEq, Repr, Inhabited

namespace Graph

def empty : Graph := ⟨[], []⟩

def node? (graph : Graph) (label : Label) (id : String) : Option Node :=
  graph.nodes.find? fun node => node.label = label && node.id = id

def hasNode (graph : Graph) (label : Label) (id : String) : Bool := (graph.node? label id).isSome

def edge? (graph : Graph) (type : EdgeType) (source target : String) : Option Edge :=
  graph.edges.find? fun edge =>
    edge.type = type && edge.source = source && edge.target = target

def addNode (graph : Graph) (node : Node) : Graph := { graph with nodes := graph.nodes ++ [node] }

def setNode (graph : Graph) (label : Label) (id : String) (node : Node) : Graph :=
  { graph with
    nodes := graph.nodes.map fun old => if old.label = label && old.id = id then node else old }

def addEdge (graph : Graph) (edge : Edge) : Graph := { graph with edges := graph.edges ++ [edge] }

def setEdge (graph : Graph) (edge : Edge) : Graph :=
  { graph with
    edges := graph.edges.map fun old =>
      if old.type = edge.type && old.source = edge.source && old.target = edge.target then edge
      else old }

def nodesOf (graph : Graph) (context : String) : List Node :=
  graph.nodes.filter fun node => node.context = context

def nodesWith (graph : Graph) (label : Label) (context : String) : List Node :=
  graph.nodes.filter fun node => node.label = label && node.context = context

def without (graph : Graph) (context : String) : Graph :=
  let removed := (graph.nodesOf context).map (·.id)
  { nodes := graph.nodes.filter fun node => node.context ≠ context
    edges := graph.edges.filter fun edge =>
      !removed.contains edge.source && !removed.contains edge.target }

inductive Fault where
  /-- Creating a node of a label, or only the one of this display name. -/
  | create (label : Label) (name : Option String)
  | update (label : Label)
  | link (type : EdgeType)
  deriving DecidableEq, Repr

/-- Where a value is gone into to be printed, which tells how many calls are left for it. -/
inductive Place where
  /-- As the project or the branch of a context. -/
  | scope
  | message
  /-- As the value of a key column. -/
  | key
  | attribute
  /-- As the value of a key column of a stub. -/
  | stub
  | answer
  deriving DecidableEq, Repr

/-- The circumstances of a call: the time in milliseconds, what the store refuses, the calls that
are left to a reader, and which values are nested too deeply to be printed at a place. -/
structure Conditions where
  now : Int
  faults : List Fault := []
  stack : Json.Stack := {}
  tooDeep : Place → Json → Bool := fun _ _ => false
  deriving Inhabited

namespace Conditions

def print (here : Conditions) (place : Place) (value : Json) : Except Error String :=
  value.printed (here.tooDeep place)

def refusal : Error := .writeFailed "disk full"

def refusesCreating (here : Conditions) (identity : Identity) : Bool :=
  here.faults.any fun
    | .create label name =>
      label = identity.label && (name.isNone || name = identity.key.head?)
    | _ => false

def refusesUpdating (here : Conditions) (label : Label) : Bool :=
  here.faults.any fun
    | .update refused => refused = label
    | _ => false

def refusesLinking (here : Conditions) (type : EdgeType) : Bool :=
  here.faults.any fun
    | .link refused => refused = type
    | _ => false

end Conditions

/-- A write on the graph, which succeeds as a whole or not at all. -/
abbrev Write := StateT Graph (Except Error)

def upsert (here : Conditions) (identity : Identity) (given : Attributes) : Write Bool := do
  let graph ← get
  match graph.node? identity.label identity.id with
  | none =>
    if here.refusesCreating identity then throw Conditions.refusal
    set (graph.addNode (.created identity given here.now))
    return true
  | some node =>
    if here.refusesUpdating identity.label then throw Conditions.refusal
    set (graph.setNode identity.label identity.id (node.overwritten given here.now))
    return false

def ensureNode (here : Conditions) (identity : Identity) : Write Bool := do
  let graph ← get
  if graph.hasNode identity.label identity.id then return false
  if here.refusesCreating identity then throw Conditions.refusal
  set (graph.addNode (.stub identity here.now))
  return true

structure Endpoint where
  label : Label
  id : String
  deriving DecidableEq, Repr

def Identity.endpoint (identity : Identity) : Endpoint := ⟨identity.label, identity.id⟩

abbrev Properties := List (String × Option String)

/-- Writes the edge of a type between two nodes. There is at most one; a second write keeps its
context and time and sets the given properties. When a node is missing nothing is written. -/
def link (here : Conditions) (type : EdgeType) (source target : Endpoint) (context : String)
    (properties : Properties := []) : Write Unit := do
  unless type.endpoints.contains (source.label, target.label) do
    throw (.wrongEndpoints type.name source.label.name target.label.name)
  if here.refusesLinking type then throw Conditions.refusal
  unless properties.all fun (name, _) => type.properties.contains name do
    throw .statementRejected
  let graph ← get
  if graph.hasNode source.label source.id && graph.hasNode target.label target.id then
    match graph.edge? type source.id target.id with
    | some edge =>
      set (graph.setEdge
        { edge with imports := (properties.lookup "imports").getD edge.imports })
    | none =>
      set (graph.addEdge
        { type := type
          source := source.id
          target := target.id
          context := context
          createdAt := here.now
          imports := (properties.lookup "imports").join })

def removeContext (context : String) : Write Nat := do
  let graph ← get
  set (graph.without context)
  return (graph.nodesOf context).length

/-- Work on the graph in which every write that succeeded stays, also when the work fails later. -/
abbrev Session := ExceptT Error (StateM Graph)

def commit {α : Type} (write : Write α) : Session α := fun graph =>
  match write graph with
  | .ok (value, after) => (.ok value, after)
  | .error error => (.error error, graph)

/-- Performs a write whose failure in the store is an answer and not an end. -/
def attempt {α : Type} (write : Write α) : Session (Except Error α) := fun graph =>
  match write graph with
  | .ok (value, after) => (.ok (.ok value), after)
  | .error error =>
    if error.isStoreError then (.ok (.error error), graph) else (.error error, graph)

def query {α : Type} (read : Graph → Except Error α) : Session α := fun graph => (read graph, graph)

/-- A graph behind a store that can be closed; its content outlives that. -/
structure Store where
  graph : Graph := .empty
  isOpen : Bool := true
  deriving Inhabited

abbrev Access := ExceptT Error (StateM Store)

def use {α : Type} (work : Session α) : Access α := fun store =>
  if store.isOpen then
    let (result, graph) := work store.graph
    (result, { store with graph := graph })
  else (.error .storeClosed, store)

end Graph

end CodeAtlas
