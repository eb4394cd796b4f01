import CodeAtlas.Graph.Store

/-! Writes that name labels, edge types and keys in words, as they come from outside. -/

namespace CodeAtlas.Graph

structure NodeRequest where
  label : String
  key : List (String × Json)
  attributes : List (String × Json) := []
  context : String

def NodeRequest.identity (here : Conditions) (request : NodeRequest) : Except Error Identity :=
  Identity.ofFields (here.tooDeep .key) request.label request.key request.context

def NodeRequest.upsert (here : Conditions) (request : NodeRequest) : Write (String × Bool) := do
  let identity ← request.identity here
  let given ← identity.label.attributesOf (here.tooDeep .attribute) request.attributes
  let created ← Graph.upsert here identity given
  return (identity.id, created)

def NodeRequest.ensure (here : Conditions) (request : NodeRequest) : Write String := do
  let identity ← request.identity here
  let _ ← ensureNode here identity
  return identity.id

inductive EndRequest where
  | byKey (label : String) (fields : List (String × Json))
  | byId (label : String) (id : String)

namespace EndRequest

def label : EndRequest → String
  | byKey label _ => label
  | byId label _ => label

def idIn (here : Conditions) (context : String) : EndRequest → Except Error String
  | byKey label fields => return (← Identity.ofFields (here.tooDeep .key) label fields context).id
  | byId _ id => return id

end EndRequest

def propertyText : Json → Option String
  | .null => none
  | value => some value.plain

def linkRequest (here : Conditions) (type : String) (source target : EndRequest)
    (context : String) (properties : List (String × Json)) : Write Unit := do
  let sourceId ← source.idIn here context
  let targetId ← target.idIn here context
  let type ← EdgeType.ofName type
  match Label.ofName? source.label, Label.ofName? target.label with
  | some sourceLabel, some targetLabel =>
    link here type ⟨sourceLabel, sourceId⟩ ⟨targetLabel, targetId⟩ context
      (properties.map fun (name, value) => (name, propertyText value))
  | _, _ => throw (.wrongEndpoints type.name source.label target.label)

/-- Performs upserts as one write. With `abort` their effect is taken back, and only the answers
remain. -/
def upsertTogether (here : Conditions) (requests : List NodeRequest) (abort : Bool) :
    Write (List Bool) := do
  let before ← get
  let created ← requests.mapM fun request => return (← request.upsert here).2
  if abort then set before
  return created

end CodeAtlas.Graph
