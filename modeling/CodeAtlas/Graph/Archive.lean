import CodeAtlas.Graph.Store
import CodeAtlas.Json.Printer
import CodeAtlas.Json.Reader

/-! Graphs as text, in which they outlive the program. The id of a node is not written: it follows
from what identifies the node. -/

namespace CodeAtlas.Graph

def cellJson : Option Cell → Json
  | some (.text value) => .text value
  | some (.flag value) => .bool value
  | none => .null

def cellOfJson? : Json → Option (Option Cell)
  | .text value => some (some (.text value))
  | .bool value => some (some (.flag value))
  | .null => some none
  | _ => none

def textField? (record : Json) (name : String) : Option String :=
  (record.field? name).bind Json.text?

def intField? (record : Json) (name : String) : Option Int :=
  match record.field? name with
  | some (.int value) => some value
  | _ => none

def listField? (record : Json) (name : String) : Option (List Json) :=
  match record.field? name with
  | some (.list items) => some items
  | _ => none

namespace Node

def toRecord (node : Node) : Json :=
  .object
    [("label", .text node.label.name), ("key", Json.texts node.key),
      ("context", .text node.context), ("attributes", .list (node.attributes.map cellJson)),
      ("stub", .bool node.isStub), ("created", .int node.createdAt),
      ("updated", .int node.updatedAt)]

def ofRecord? (record : Json) : Option Node := do
  let label ← (textField? record "label").bind Label.ofName?
  let key ← (← listField? record "key").mapM Json.text?
  let context ← textField? record "context"
  let attributes ← (← listField? record "attributes").mapM cellOfJson?
  let createdAt ← intField? record "created"
  let updatedAt ← intField? record "updated"
  let isStub := (record.fieldOrNull "stub").isGiven
  let identity : Identity := ⟨label, key, context⟩
  return { id := identity.id, label, context, key, attributes, isStub, createdAt, updatedAt }

end Node

namespace Edge

def toRecord (edge : Edge) : Json :=
  .object
    [("type", .text edge.type.name), ("source", .text edge.source), ("target", .text edge.target),
      ("context", .text edge.context), ("created", .int edge.createdAt),
      ("imports", Json.ofText? edge.imports)]

def ofRecord? (record : Json) : Option Edge := do
  let type ← (textField? record "type").bind EdgeType.ofName?
  let source ← textField? record "source"
  let target ← textField? record "target"
  let context ← textField? record "context"
  let createdAt ← intField? record "created"
  return { type, source, target, context, createdAt, imports := textField? record "imports" }

end Edge

def archive (graph : Graph) : String :=
  (Json.object
    [("nodes", .list (graph.nodes.map Node.toRecord)),
      ("edges", .list (graph.edges.map Edge.toRecord))]).compact

def ofArchive? (text : String) : Option Graph := do
  let record ← Json.parse? {} text
  let nodes ← (← listField? record "nodes").mapM Node.ofRecord?
  let edges ← (← listField? record "edges").mapM Edge.ofRecord?
  return ⟨nodes, edges⟩

end CodeAtlas.Graph
