import CodeAtlas.Graph.Store
import CodeAtlas.Relations.Inference

/-! Writing inferred relationships. A target that is not in the graph becomes a stub, in the same
write as the edge that needs it. -/

namespace CodeAtlas.Relations

open CodeAtlas.Graph
open CodeAtlas.Source (Elements)

inductive WriteKind where
  | node (label : Label)
  | edge (type : EdgeType)
  deriving DecidableEq, Repr

def WriteKind.name : WriteKind → String
  | node label => label.name
  | edge type => type.name

structure Failure where
  kind : WriteKind
  name : String
  message : String
  deriving DecidableEq, Repr

def elementIdentity (label : Label) (name language context : String) : Identity :=
  if label = .interface then .interface name context else .named label name language context

inductive LanguageForm where
  /-- As a text, which the language of a node may be. -/
  | text
  /-- As another value, which no language of a node is. -/
  | value
  /-- As a value that is nested too deeply to be printed for a stub. -/
  | deepValue
  deriving DecidableEq, Repr

/-- The node that a relationship should end at: among the nodes of that label and name in the
context the first one of the language, else the first one of all. -/
def targetNode? (graph : Graph) (label : Label) (name language context : String)
    (form : LanguageForm := .text) : Option Node :=
  let candidates := (graph.nodesWith label context).filter fun node => node.displayName = name
  (candidates.find? fun node => form = .text ∧ node.language = language).or candidates.head?

/-- The node that a relationship of a call ends at, and whether it had to be created as a stub. -/
def resolveTargetAs (form : LanguageForm) (here : Conditions) (label : Label)
    (name language context : String) : Write (Endpoint × Bool) := do
  let identity := elementIdentity label name language context
  let graph ← get
  let known := if label = .interface then graph.node? label identity.id
    else targetNode? graph label name language context form
  match known with
  | some node => return (⟨label, node.id⟩, false)
  | none =>
    if label ≠ .interface ∧ form = .deepValue then throw .tooDeep
    let _ ← ensureNode here identity
    return (identity.endpoint, true)

def resolveTarget (here : Conditions) (label : Label) (name language context : String) :
    Write (Endpoint × Bool) :=
  resolveTargetAs .text here label name language context

def writeRelationshipAs (form : LanguageForm) (here : Conditions) (language context : String)
    (relationship : Relationship) : Write Bool := do
  let source :=
    elementIdentity relationship.sourceLabel relationship.sourceName language context
  let (target, created) ←
    resolveTargetAs form here relationship.targetLabel relationship.targetName language context
  link here relationship.type source.endpoint target context
  return created

def writeRelationship (here : Conditions) (language context : String)
    (relationship : Relationship) : Write Bool :=
  writeRelationshipAs .text here language context relationship

structure Outcome where
  counts : List (EdgeType × Nat) := []
  stubsCreated : Nat := 0
  failures : List Failure := []
  deriving DecidableEq, Repr, Inhabited

def Outcome.record (outcome : Outcome) (relationship : Relationship) :
    Except Error Bool → Outcome
  | .ok created =>
    { outcome with
      counts := countOne relationship.type outcome.counts
      stubsCreated := outcome.stubsCreated + if created then 1 else 0 }
  | .error error =>
    { outcome with
      failures := outcome.failures ++
        [⟨.edge relationship.type, relationship.sourceName ++ "->" ++ relationship.targetName,
          error.message⟩] }

def writeAllAs (form : LanguageForm) (here : Conditions) (language context : String)
    (relationships : List Relationship) : Session Outcome :=
  relationships.foldlM (fun outcome relationship => do
    let result ← attempt (writeRelationshipAs form here language context relationship)
    return outcome.record relationship result) {}

def extractAs (form : LanguageForm) (here : Conditions) (elements : Elements)
    (language context : String) : Session Outcome :=
  writeAllAs form here language context (infer elements)

def extract (here : Conditions) (elements : Elements) (language context : String) :
    Session Outcome :=
  extractAs .text here elements language context

end CodeAtlas.Relations
