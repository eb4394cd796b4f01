import CodeAtlas.Digest
import CodeAtlas.Error
import CodeAtlas.Graph.Schema
import CodeAtlas.Json.Plain

/-! What identifies a node, and the name derived from it. A node is identified by its label, its
context and the values of its key columns; its id is a digest of those three. -/

namespace CodeAtlas.Graph

structure Identity where
  label : Label
  key : List String
  context : String
  deriving DecidableEq, Repr, Inhabited

namespace Identity

/-- The text whose digest names the node: a list of label, context and key values. -/
def payload (identity : Identity) : String :=
  (Json.texts (identity.label.name :: identity.context :: identity.key)).compact

def id (identity : Identity) : String :=
  identity.label.name ++ ":" ++ Digest.ofText identity.payload

def file (path context : String) : Identity := ⟨.file, [path], context⟩

def named (label : Label) (name language context : String) : Identity :=
  ⟨label, [name, language], context⟩

def interface (name context : String) : Identity := ⟨.interface, [name], context⟩

end Identity

/-- The key values of a label among the given fields, each as plain text. Every key column must be
given. -/
def Label.keyOf (label : Label) (isTooDeep : Json → Bool) (fields : List (String × Json)) :
    Except Error (List String) :=
  label.keyColumns.mapM fun column =>
    match fields.lookup column with
    | some value => value.printed isTooDeep
    | none => .error (.unknownKey column)

def Label.ofName (written : String) : Except Error Label :=
  match Label.ofName? written with
  | some label => .ok label
  | none => .error (.unknownKey written)

def EdgeType.ofName (written : String) : Except Error EdgeType :=
  match EdgeType.ofName? written with
  | some type => .ok type
  | none => .error (.unknownKey written)

def Identity.ofFields (isTooDeep : Json → Bool) (label : String) (fields : List (String × Json))
    (context : String) : Except Error Identity := do
  let label ← Label.ofName label
  let key ← label.keyOf isTooDeep fields
  return ⟨label, key, context⟩

end CodeAtlas.Graph
