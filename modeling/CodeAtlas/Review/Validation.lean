import CodeAtlas.Distinct
import CodeAtlas.Graph.Store
import CodeAtlas.Source.Elements

/-! Judging elements against what a context holds. A snippet asks whether its functions and classes
exist; a file is compared element by element with what is indexed under its path. -/

namespace CodeAtlas.Review

open CodeAtlas.Graph
open CodeAtlas.Source (Elements)

inductive Status where
  | found
  | notFound
  | same
  | modified
  | new
  deriving DecidableEq, Repr

def Status.name : Status → String
  | found => "FOUND"
  | notFound => "NOT_FOUND"
  | same => "MATCH"
  | modified => "MODIFIED"
  | new => "NEW"

structure Finding where
  name : String
  label : Label
  status : Status
  message : String
  indexedBody : Option String := none
  deriving DecidableEq, Repr

def countOf (status : Status) (findings : List Finding) : Nat :=
  (findings.filter fun finding => finding.status = status).length

structure SnippetReport where
  context : String
  findings : List Finding
  deriving Repr

namespace SnippetReport

def found (report : SnippetReport) : Nat := countOf .found report.findings

def notFound (report : SnippetReport) : Nat := countOf .notFound report.findings

end SnippetReport

/-- Whether an element of a language is indexed in a context; a mere reference is not. -/
def isIndexed (graph : Graph) (label : Label) (name language context : String) : Bool :=
  match graph.node? label (Identity.named label name language context).id with
  | some node => !node.isStub
  | none => false

def lookUp (graph : Graph) (language context : String) (label : Label) (name : String) : Finding :=
  if isIndexed graph label name language context then
    { name, label, status := .found, message := s!"{label.name} exists in {context}" }
  else
    { name, label, status := .notFound, message := s!"{label.name} not found in {context}" }

def validateSnippet (graph : Graph) (elements : Elements) (language context : String) :
    SnippetReport where
  context := context
  findings := elements.functions.map (fun function =>
      lookUp graph language context .function function.name)
    ++ elements.classes.map (fun classDef =>
      lookUp graph language context .classDef classDef.name)

inductive FileStatus where
  | new
  | modified
  | updated
  | unchanged
  deriving DecidableEq, Repr

def FileStatus.name : FileStatus → String
  | new => "new file"
  | modified => "modified"
  | updated => "updated"
  | unchanged => "unchanged"

structure FileReport where
  path : String
  context : String
  fileExists : Bool
  findings : List Finding
  deriving DecidableEq, Repr

namespace FileReport

def same (report : FileReport) : Nat := countOf .same report.findings

def modified (report : FileReport) : Nat := countOf .modified report.findings

def new (report : FileReport) : Nat := countOf .new report.findings

/-- The status of the file: changed bodies outweigh new elements. -/
def status (report : FileReport) : FileStatus :=
  if !report.fileExists then .new
  else if report.modified != 0 then .modified
  else if report.new != 0 then .updated
  else .unchanged

end FileReport

def contained (graph : Graph) (fileId : String) (label : Label) : List Node :=
  graph.edges.filterMap fun edge =>
    if edge.type = .contains && edge.source = fileId then graph.node? label edge.target else none

def namesakes (graph : Graph) (fileId : String) (label : Label) (name language : String) :
    List Node :=
  (contained graph fileId label).filter fun node =>
    node.displayName = name && node.language = language

/-- The body that a file holds under a name. All functions of a file are read at once, and of
namesakes the last one stays; of classes the first one is taken. -/
def indexedBody (graph : Graph) (fileId : String) (label : Label) (name language : String) :
    Option String :=
  let known := namesakes graph fileId label name language
  (if label = .function then known.getLast? else known.head?).bind Node.body?

def classify (label : Label) (name body : String) (indexed : Option String) : Finding :=
  match indexed with
  | none =>
    { name, label, status := .new
      message := s!"{label.name} is new and not in the knowledge graph" }
  | some known =>
    if known = body then
      { name, label, status := .same, indexedBody := known
        message := s!"{label.name} exists and matches exactly" }
    else
      { name, label, status := .modified, indexedBody := known
        message :=
          s!"{label.name} exists but the {Text.lowerString label.name} body has changed" }

/-- Compares a file's functions and classes with what is indexed under its path. Of namesakes only
the last body counts, as it would after indexing. -/
def validateFile (graph : Graph) (path : String) (elements : Elements)
    (language context : String) : FileReport :=
  let fileId := (Identity.file path context).id
  let judge (label : Label) (bodies : List (String × String)) : List Finding :=
    (bindAll bodies).map fun (name, body) =>
      classify label name body (indexedBody graph fileId label name language)
  { path, context
    fileExists := graph.hasNode .file fileId
    findings := judge .function (elements.functions.map fun function =>
        (function.name, function.body))
      ++ judge .classDef (elements.classes.map fun classDef => (classDef.name, classDef.body)) }

end CodeAtlas.Review
