import CodeAtlas.Indexing.Files

/-! Indexing loose functions, which may belong to a file or to none. -/

namespace CodeAtlas.Indexing

open CodeAtlas.Graph
open CodeAtlas.Source (Elements)

structure LooseFunction where
  name : String
  body : String
  path : Option String := none
  deriving DecidableEq, Repr

/-- Writes a function and, when a path is given, its file and the edge between them. -/
def writeFunction (here : Conditions) (language context : String) (function : LooseFunction) :
    Write Unit := do
  let identity := Identity.named .function function.name language context
  let _ ← upsert here identity [("body", .text function.body)]
  let path := function.path.getD ""
  unless path = "" do
    let file := Identity.file path context
    let _ ← upsert here file []
    link here .contains file.endpoint identity.endpoint context

def writeFunctions (here : Conditions) (functions : List LooseFunction)
    (language context : String) : Session Report :=
  functions.foldlM (fun report function => do
    let result ← attempt (writeFunction here language context function)
    return report.record .function function.name result) ⟨none, context, [], [], []⟩

def writtenFunctions (report : Report) (functions : List LooseFunction) : List LooseFunction :=
  functions.filter fun function => !report.hasFailed .function function.name

def indexFunctions (here : Conditions) (functions : List LooseFunction)
    (language context : String) : Session Report := do
  let report ← writeFunctions here functions language context
  let elements : Elements :=
    { functions := (writtenFunctions report functions).map fun function =>
        ⟨function.name, function.body⟩ }
  let outcome ← Relations.extract here elements language context
  return report.withRelationships outcome

end CodeAtlas.Indexing
