import CodeAtlas.Graph.Schema
import CodeAtlas.Relations.Calls
import CodeAtlas.Relations.Heritage
import CodeAtlas.Source.Elements

/-! Relationships that the text of elements suggests. The reading is lexical: it knows names, not
bindings. -/

namespace CodeAtlas.Relations

open CodeAtlas.Graph (EdgeType Label)
open CodeAtlas.Source (ClassElement Elements FunctionElement)

structure Relationship where
  type : EdgeType
  sourceLabel : Label
  sourceName : String
  targetLabel : Label
  targetName : String
  deriving DecidableEq, Repr, Inhabited

def ofFunction (element : FunctionElement) : List Relationship :=
  (findCalls element.body).map (⟨.calls, .function, element.name, .function, ·⟩)
    ++ (instantiations element.body.toList).map
      (⟨.instantiates, .function, element.name, .classDef, ·⟩)

def ofClass (element : ClassElement) : List Relationship :=
  (findSuperclass element.body).toList.map (⟨.inherits, .classDef, element.name, .classDef, ·⟩)
    ++ (findInterfaces element.body).map
      (⟨.implements, .classDef, element.name, .interface, ·⟩)

/-- All relationships of some elements, each once: those of the functions, then those of the
classes. -/
def infer (elements : Elements) : List Relationship :=
  distinct (elements.functions.flatMap ofFunction ++ elements.classes.flatMap ofClass)

end CodeAtlas.Relations
