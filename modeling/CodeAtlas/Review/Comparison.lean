import CodeAtlas.Context
import CodeAtlas.Distinct
import CodeAtlas.Graph.Store

/-! Comparing two branches of a project by the functions and classes that are indexed in them.
Bodies and languages do not matter. -/

namespace CodeAtlas.Review

open CodeAtlas.Graph

structure ComparedElement where
  label : Label
  name : String
  deriving DecidableEq, Repr

namespace ComparedElement

def le (a b : ComparedElement) : Bool :=
  if a.label = b.label then decide (a.name ≤ b.name) else decide (a.label.name ≤ b.label.name)

end ComparedElement

def elementsOf (graph : Graph) (context : String) : List ComparedElement :=
  let named (label : Label) : List ComparedElement :=
    ((graph.nodesWith label context).filter fun node => !node.isStub).map
      fun node => ⟨label, node.displayName⟩
  (distinct (named .function ++ named .classDef)).mergeSort ComparedElement.le

/-- The elements of two branches, divided by where they are, and how many each branch has. -/
structure Comparison where
  sourceCount : Nat
  targetCount : Nat
  onlyInSource : List ComparedElement
  onlyInTarget : List ComparedElement
  inBoth : List ComparedElement
  deriving DecidableEq, Repr

def compareContexts (graph : Graph) (source target : String) : Comparison :=
  let inSource := elementsOf graph source
  let inTarget := elementsOf graph target
  { sourceCount := inSource.length
    targetCount := inTarget.length
    onlyInSource := inSource.filter fun element => !inTarget.contains element
    onlyInTarget := inTarget.filter fun element => !inSource.contains element
    inBoth := inSource.filter inTarget.contains }

def compare (source target : String) : Access Comparison :=
  use (query fun graph => .ok (compareContexts graph source target))

def compareBranches (project source target : Option String) : Access Comparison := do
  let source ← BranchContext.resolve project source
  let target ← BranchContext.resolve project target
  compare source.key target.key

end CodeAtlas.Review
