import CodeAtlas.Context
import CodeAtlas.Distinct
import CodeAtlas.Graph.Store

/-! Reporting the relationships of a context, how many nodes it holds of each label, and which nodes
have no edge at all. -/

namespace CodeAtlas.Review

open CodeAtlas.Graph

inductive AnalysisType where
  | all
  | functionCalls
  | classInheritance
  | imports
  | dependencies
  deriving DecidableEq, Repr

namespace AnalysisType

def every : List AnalysisType := [all, functionCalls, classInheritance, imports, dependencies]

def name : AnalysisType → String
  | all => "all"
  | functionCalls => "function-calls"
  | classInheritance => "class-inheritance"
  | imports => "imports"
  | dependencies => "dependencies"

def ofName (written : String) : Except Error AnalysisType :=
  match every.find? fun type => type.name = written with
  | some type => .ok type
  | none => .error (.unknownAnalysis written (every.map name))

end AnalysisType

structure EdgeKind where
  type : EdgeType
  source : Label
  target : Label
  deriving DecidableEq, Repr

def AnalysisType.kinds : AnalysisType → List EdgeKind
  | functionCalls => [⟨.calls, .function, .function⟩]
  | classInheritance =>
    [⟨.inherits, .classDef, .classDef⟩, ⟨.implements, .classDef, .interface⟩]
  | imports => [⟨.imports, .file, .importedModule⟩]
  | dependencies => [⟨.instantiates, .function, .classDef⟩]
  | all =>
    [⟨.calls, .function, .function⟩, ⟨.inherits, .classDef, .classDef⟩,
      ⟨.implements, .classDef, .interface⟩, ⟨.imports, .file, .importedModule⟩,
      ⟨.instantiates, .function, .classDef⟩]

/-- A listed edge: the display names of its ends and, for an import, the imported names. -/
structure Relation where
  source : String
  target : String
  type : EdgeType
  details : Json := .null

/-- The names on an edge: null unless the edge is an import. -/
def detailsOf (edge : Edge) : Except Error Json :=
  if edge.type = .imports then decodeList edge.imports else .ok .null

/-- Whether an element filter lets an edge between these names pass; an empty filter lets all
pass. -/
def touches (element : Option String) (source target : String) : Bool :=
  match element with
  | none => true
  | some name => name = "" || source = name || target = name

def relation? (graph : Graph) (kind : EdgeKind) (context : String) (element : Option String)
    (edge : Edge) : Option (Except Error Relation) := do
  if edge.type = kind.type && edge.context = context then
    let source ← graph.node? kind.source edge.source
    let target ← graph.node? kind.target edge.target
    if touches element source.displayName target.displayName then
      some ((detailsOf edge).map (⟨source.displayName, target.displayName, kind.type, ·⟩))
    else none
  else none

def relations (graph : Graph) (kind : EdgeKind) (context : String) (element : Option String) :
    Except Error (List Relation) :=
  (graph.edges.filterMap (relation? graph kind context element)).mapM id

/-- How many nodes of each label a context holds, the most frequent label first; labels with equally
many nodes stand in schema order. -/
def nodeCounts (graph : Graph) (context : String) : List (Label × Nat) :=
  ((Label.all.map fun label => (label, (graph.nodesWith label context).length)).filter
    fun (_, count) => count ≠ 0).mergeSort fun a b => b.2 ≤ a.2

def isOrphan (graph : Graph) (node : Node) : Bool :=
  !graph.edges.any fun edge => edge.source = node.id || edge.target = node.id

def maxOrphans : Nat := 10

def orphans (graph : Graph) (context : String) : List (Label × String) :=
  ((Label.all.flatMap fun label => (graph.nodesWith label context).filter (isOrphan graph)).take
    maxOrphans).map fun node => (node.label, node.displayName)

structure RelationshipReport where
  context : String
  analysis : AnalysisType
  relations : List Relation
  nodeCounts : List (Label × Nat)
  orphans : List (Label × String)

def RelationshipReport.countsByType (report : RelationshipReport) : List (EdgeType × Nat) :=
  tally (report.relations.map (·.type))

def analyzeContext (graph : Graph) (context : String) (analysis : AnalysisType)
    (element : Option String) : Except Error RelationshipReport := do
  let found ← analysis.kinds.mapM fun kind => relations graph kind context element
  return ⟨context, analysis, found.flatten, nodeCounts graph context, orphans graph context⟩

def analyzeNamed (analysis : String) (context : Except Error String) (element : Option String) :
    Access RelationshipReport := do
  let analysis ← AnalysisType.ofName analysis
  let context ← context
  use (query fun graph => analyzeContext graph context analysis element)

def analyze (project branch : Option String) (analysis : String) (element : Option String) :
    Access RelationshipReport :=
  analyzeNamed analysis ((BranchContext.resolve project branch).map (·.key)) element

end CodeAtlas.Review
