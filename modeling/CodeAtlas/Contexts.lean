import CodeAtlas.Context
import CodeAtlas.Distinct
import CodeAtlas.Graph.Store
import CodeAtlas.Text.Words

/-! Administration of contexts. A context exists as soon as one node is in it, so creating one
writes nothing, and removing one removes its nodes. -/

namespace CodeAtlas.Contexts

open CodeAtlas.Graph

structure Summary where
  context : String
  nodes : List Node

namespace Summary

def branchContext (summary : Summary) : BranchContext := .parse summary.context

def countOf (summary : Summary) (label : Label) : Nat :=
  (summary.nodes.filter fun node => node.label = label).length

def files (summary : Summary) : Nat := summary.countOf .file

def functions (summary : Summary) : Nat := summary.countOf .function

def classes (summary : Summary) : Nat := summary.countOf .classDef

def components (summary : Summary) : Nat := summary.countOf .component

def total (summary : Summary) : Nat := summary.nodes.length

end Summary

/-- The contexts that hold a node, in the order of their strings. -/
def summaries (graph : Graph) : List Summary :=
  ((distinct (graph.nodes.map (·.context))).mergeSort fun a b => decide (a ≤ b)).map
    fun context => ⟨context, graph.nodesOf context⟩

def branchesOf (graph : Graph) (project : String) : List Summary :=
  (summaries graph).filter fun summary =>
    Text.startsWith (BranchContext.projectStart project) summary.context

inductive Action where
  | create
  | delete
  | clear
  deriving DecidableEq, Repr

def Action.name : Action → String
  | create => "create"
  | delete => "delete"
  | clear => "clear"

def missing (parameters : List (String × Bool)) : List String :=
  (parameters.filter fun parameter => !parameter.2).map (·.1)

def require (action : String) (parameters : List (String × Bool)) : Except Error Unit :=
  if (missing parameters).isEmpty then .ok ()
  else .error (.missingParameters action (missing parameters))

def isGiven (parameter : Option String) : Bool := parameter.getD "" ≠ ""

def required (action : Action) (project branch : Option String) : Except Error String := do
  require action.name [("project", isGiven project), ("branch", isGiven branch)]
  return (← BranchContext.resolve project branch).key

def list : Access (List Summary) := use (query fun graph => .ok (summaries graph))

def listProject (project : String) : Access (List Summary) :=
  use (query fun graph => .ok (branchesOf graph project))

def listBranches (project : Option String) : Access (List Summary) := do
  require "list-branches" [("project", isGiven project)]
  listProject (project.getD "")

/-- Performs an action in a context. Creating counts the nodes that are there already; deleting and
clearing remove the nodes and count them. -/
def performIn (action : Action) (context : String) : Access Nat :=
  match action with
  | .create => use (query fun graph => .ok (graph.nodesOf context).length)
  | .delete | .clear => use (commit (removeContext context))

def perform (action : Action) (project branch : Option String) : Access Nat := do
  let context ← required action project branch
  performIn action context

end CodeAtlas.Contexts
