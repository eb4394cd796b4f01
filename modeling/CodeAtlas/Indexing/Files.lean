import CodeAtlas.Context
import CodeAtlas.Indexing.Plan
import CodeAtlas.Indexing.Report
import CodeAtlas.Source.Extension

/-! Indexing files: the file's node, then its elements one by one, then the relationships of the
functions and classes that could be written. -/

namespace CodeAtlas.Indexing

open CodeAtlas.Graph
open CodeAtlas.Source (Elements)

def writeElement (here : Conditions) (file : Identity) (planned : PlannedWrite) : Write Unit := do
  let _ ← upsert here planned.identity planned.attributes
  link here planned.edge file.endpoint planned.identity.endpoint planned.identity.context
    planned.properties

def writePlan (here : Conditions) (file : Identity) (writes : List PlannedWrite)
    (report : Report) : Session Report :=
  writes.foldlM (fun report planned => do
    let result ← attempt (writeElement here file planned)
    return report.record planned.identity.label planned.name result) report

/-- The elements whose relationships are inferred: functions and classes none of whose namesakes
failed. -/
def related (report : Report) (elements : Elements) : Elements :=
  { elements with
    functions := elements.functions.filter fun function =>
      !report.hasFailed .function function.name
    classes := elements.classes.filter fun classDef =>
      !report.hasFailed .classDef classDef.name }

def indexElementsAs (form : Relations.LanguageForm) (here : Conditions) (elements : Elements)
    (path language context : String) : Session Report := do
  let file := Identity.file path context
  let _ ← commit (upsert here file [])
  let report ← writePlan here file (plan elements language context) ⟨some path, context, [], [], []⟩
  let outcome ← Relations.extractAs form here (related report elements) language context
  return report.withRelationships outcome

def indexElements (here : Conditions) (elements : Elements) (path language context : String) :
    Session Report :=
  indexElementsAs .text here elements path language context

structure SourceFile where
  path : String
  content : Option String
  language : Option String := none
  extension : Option String := none

namespace SourceFile

def extensionOrPath (file : SourceFile) : String :=
  BranchContext.effective file.extension file.path

/-- The language of the elements: the given one, else that of the extension. -/
def elementLanguage (file : SourceFile) : String :=
  BranchContext.effective file.language (Source.languageOf file.extensionOrPath)

def elements (file : SourceFile) : Except Error Elements :=
  match file.content with
  | some content => .ok (Source.parseElements content file.extensionOrPath)
  | none => .error (.unparsable file.path)

end SourceFile

def contextKey (project branch : Option String) : Except Error String :=
  (BranchContext.resolve project branch).map (·.key)

def indexSource (here : Conditions) (file : SourceFile) (context : Except Error String) :
    Access Report := do
  let elements ← file.elements
  let context ← context
  use (indexElements here elements file.path file.elementLanguage context)

def indexFile (here : Conditions) (file : SourceFile) (project branch : Option String) :
    Access Report :=
  indexSource here file (contextKey project branch)

end CodeAtlas.Indexing
