import CodeAtlas.Relations.Extraction

/-! What an indexing call has written and what it could not write. -/

namespace CodeAtlas.Indexing

open CodeAtlas.Graph
open CodeAtlas.Relations (Failure WriteKind)

/-- The outcome of indexing a file or loose functions. Everything counted is in the graph, whether
or not there are failures. -/
structure Report where
  filePath : Option String
  context : String
  counts : List (Label × Nat) := []
  relationships : List (EdgeType × Nat) := []
  failures : List Failure := []
  deriving Repr

namespace Report

def success (report : Report) : Bool := report.failures.isEmpty

def totalIndexed (report : Report) : Nat := total (report.counts.map (·.2))

def record (report : Report) (label : Label) (name : String) : Except Error Unit → Report
  | .ok () => { report with counts := countOne label report.counts }
  | .error error =>
    { report with failures := report.failures ++ [⟨.node label, name, error.message⟩] }

def withRelationships (report : Report) (outcome : Relations.Outcome) : Report :=
  { report with
    relationships := outcome.counts
    failures := report.failures ++ outcome.failures }

def hasFailed (report : Report) (label : Label) (name : String) : Bool :=
  report.failures.any fun failure => failure.kind = .node label && failure.name = name

end Report

end CodeAtlas.Indexing
