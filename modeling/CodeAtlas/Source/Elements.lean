/-! What a source text declares: functions, classes, components, hooks and the other elements that
the atlas keeps, in source order and with repetitions. -/

namespace CodeAtlas.Source

/-- A function, a method or a variable bound to a function. -/
structure FunctionElement where
  name : String
  body : String
  deriving DecidableEq, Repr, Inhabited

structure ClassElement where
  name : String
  body : String
  deriving DecidableEq, Repr, Inhabited

structure Component where
  name : String
  componentType : String
  props : List String := []
  hooks : List String := []
  body : String := ""
  isDefaultExport : Bool := false
  deriving DecidableEq, Repr, Inhabited

structure Hook where
  name : String
  hookType : String
  dependencies : List String := []
  body : String := ""
  deriving DecidableEq, Repr, Inhabited

structure FrameworkPattern where
  name : String
  patternType : String
  exports : List String := []
  body : String := ""
  deriving DecidableEq, Repr, Inhabited

structure StyledElement where
  name : String
  elementType : String
  styles : String := ""
  body : String := ""
  deriving DecidableEq, Repr, Inhabited

structure Import where
  source : String
  names : List String := []
  deriving DecidableEq, Repr, Inhabited

structure Export where
  name : String
  exportType : String
  deriving DecidableEq, Repr, Inhabited

structure Elements where
  functions : List FunctionElement := []
  classes : List ClassElement := []
  components : List Component := []
  hooks : List Hook := []
  patterns : List FrameworkPattern := []
  styled : List StyledElement := []
  imports : List Import := []
  exports : List Export := []
  deriving DecidableEq, Repr, Inhabited

namespace Elements

def empty : Elements := {}

def append (a b : Elements) : Elements where
  functions := a.functions ++ b.functions
  classes := a.classes ++ b.classes
  components := a.components ++ b.components
  hooks := a.hooks ++ b.hooks
  patterns := a.patterns ++ b.patterns
  styled := a.styled ++ b.styled
  imports := a.imports ++ b.imports
  exports := a.exports ++ b.exports

instance : Append Elements := ⟨append⟩

/-- The number of elements, imports and exports not counted. -/
def total (elements : Elements) : Nat :=
  elements.functions.length + elements.classes.length + elements.components.length
    + elements.hooks.length + elements.patterns.length + elements.styled.length

end Elements

end CodeAtlas.Source
