import CodeAtlas.Distinct
import CodeAtlas.Graph.Store
import CodeAtlas.Quality.NamingStyle
import CodeAtlas.Quality.Similarity
import CodeAtlas.Source.Elements

/-! Reviewing new functions against the functions indexed in a context: is the name in the
prevailing style, is the body nearly that of another function, does the name resemble others? -/

namespace CodeAtlas.Quality

open CodeAtlas.Graph
open CodeAtlas.Source (Elements FunctionElement)

inductive Severity where
  | low
  | medium
  | high
  deriving DecidableEq, Repr

def Severity.name : Severity → String
  | low => "LOW"
  | medium => "MEDIUM"
  | high => "HIGH"

inductive IssueKind where
  | naming
  | duplicate
  | similarName
  deriving DecidableEq, Repr

namespace IssueKind

def name : IssueKind → String
  | naming => "NAMING_CONVENTION"
  | duplicate => "DUPLICATE_CODE"
  | similarName => "SIMILAR_NAME"

def severity : IssueKind → Severity
  | naming => .medium
  | duplicate => .high
  | similarName => .low

end IssueKind

structure Issue where
  kind : IssueKind
  element : String
  message : String
  related : List String := []
  deriving DecidableEq, Repr

def Issue.severity (issue : Issue) : Severity := issue.kind.severity

structure Report where
  context : String
  language : String
  convention : Option NamingStyle
  functionsChecked : Nat
  issues : List Issue
  deriving Repr

/-- Whether the report has no issue above the lowest severity. -/
def Report.passed (report : Report) : Bool :=
  report.issues.all fun issue => issue.severity = .low

def evidence (graph : Graph) (language context : String) : List (String × String) :=
  bindAll (((graph.nodesWith .function context).filter fun node =>
    node.language = language && !node.isStub).map fun node =>
      (node.displayName, node.body?.getD ""))

def maxRelated : Nat := 5

def similarLength : Nat := 5

def namingIssue? (convention : Option NamingStyle) (name : String) : Option Issue :=
  match convention, NamingStyle.ofName? name with
  | some convention, some style =>
    if style = convention then none
    else some
      { kind := .naming, element := name
        message := s!"'{name}' is {style.name}; indexed functions use {convention.name}" }
  | _, _ => none

/-- The order of candidates: the more alike first, of equally alike ones the greater name. -/
def moreAlike (a b : Likeness × String) : Bool :=
  if a.1.atLeast b.1 && b.1.atLeast a.1 then decide (b.2 ≤ a.2) else a.1.atLeast b.1

/-- The names of the functions whose bodies are near duplicates of `body`, the most alike first. -/
def duplicatesOf (body : String) (others : List (String × String)) : List String :=
  let scored := others.map fun (name, other) => (Likeness.ofBodies body other, name)
  ((scored.filter fun (likeness, _) => likeness.isDuplicate).mergeSort moreAlike).map (·.2)

def duplicateIssue? (others : List (String × String)) (function : FunctionElement) :
    Option Issue :=
  let found := duplicatesOf function.body others
  if found.isEmpty then none
  else some
    { kind := .duplicate, element := function.name
      message := s!"'{function.name}' is nearly identical to {found.length} indexed function(s)"
      related := found.take maxRelated }

def resembling (name : String) (others : List (String × String)) : List String :=
  if name.length < similarLength then []
  else
    let start := Text.lower (name.toList.take similarLength)
    ((others.map (·.1)).filter fun other => Text.contains start (Text.lower other.toList)).mergeSort
      fun a b => decide (a ≤ b)

def similarNameIssue? (others : List (String × String)) (name : String) : Option Issue :=
  let related := (resembling name others).take maxRelated
  if related.isEmpty then none
  else some
    { kind := .similarName, element := name, related
      message := s!"'{name}' resembles existing function(s): "
        ++ String.intercalate ", " related }

/-- The issues of a function: at most one of each kind. Its own namesake is no evidence against
it. -/
def issuesOf (indexed : List (String × String)) (convention : Option NamingStyle)
    (function : FunctionElement) : List Issue :=
  let others := indexed.filter fun (name, _) => name ≠ function.name
  (namingIssue? convention function.name).toList
    ++ (duplicateIssue? others function).toList
    ++ (similarNameIssue? others function.name).toList

def review (graph : Graph) (elements : Elements) (language context : String) : Report :=
  let indexed := evidence graph language context
  let convention := NamingStyle.dominant? (indexed.map (·.1))
  { context, language, convention
    functionsChecked := elements.functions.length
    issues := elements.functions.flatMap (issuesOf indexed convention) }

end CodeAtlas.Quality
