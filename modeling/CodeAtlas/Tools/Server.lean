import CodeAtlas.Indexing.Entries
import CodeAtlas.Scope
import CodeAtlas.Settings.Basic
import CodeAtlas.Tools.Answers
import CodeAtlas.Tools.Schema

/-! Calling tools. A tool answers with a JSON object whose first field is its status, or with a
plain error text. -/

namespace CodeAtlas.Tools

open CodeAtlas.Graph

structure Answer where
  isError : Bool
  text : String
  deriving DecidableEq, Repr

def wholeOf (fields : WrittenFields) (status : String) : Json.Written :=
  .object ((Json.units "status", .text (Json.units status)) ::
    fields.map fun (name, value) => (Json.units name, value))

namespace Answer

def failure (message : String) : Answer := ⟨true, message⟩

def success (fields : WrittenFields) (status : String := "success") : Answer :=
  ⟨false, (wholeOf fields status).pretty⟩

end Answer

inductive Refusal where
  /-- The tool says so in its own words. -/
  | said (message : String)
  /-- Something below the tool went wrong. -/
  | failed (error : Error)

abbrev Work := ExceptT Refusal (StateM Store)

def refuse {α : Type} (message : String) : Work α := throw (.said message)

def below {α : Type} (work : Access α) : Work α := fun store =>
  match work store with
  | (.ok value, after) => (.ok value, after)
  | (.error error, after) => (.error (.failed error), after)

def ofExcept {α : Type} : Except Error α → Work α
  | .ok value => pure value
  | .error error => throw (.failed error)

abbrev Arguments := List (String × Json)

namespace Arguments

def get (arguments : Arguments) (name : String) : Json := (arguments.lookup name).getD .null

/-- An argument that is given and not empty. -/
def given? (arguments : Arguments) (name : String) : Option Json :=
  match arguments.lookup name with
  | some value => if value.isGiven then some value else none
  | none => none

end Arguments

def textOf : Json → Except Error String
  | .text value => .ok value
  | _ => .error .wrongType

/-- A result in which values are repeated as they were given, which must be printable. -/
def answered (here : Conditions) (repeated : List Json) (fields : Fields)
    (status : String := "success") : Work Answer := do
  let _ ← ofExcept (repeated.mapM (here.print .answer))
  return .success fields.written status

/-- The context of a call: what is not given comes from the settings. -/
def scopeKey (here : Conditions) (settings : Settings) (arguments : Arguments) :
    Except Error String :=
  Scope.key here ((arguments.given? "project").getD settings.defaultProject)
    ((arguments.given? "branch").getD settings.defaultBranch)

/-- The language of the code of a call: what is given, else that of its extension. -/
def languageOf (arguments : Arguments) (extension : Json) : Except Error Json :=
  match arguments.given? "language" with
  | some language => .ok language
  | none => return .text (Source.languageOf (← textOf extension))

def parseCode (code extension : Json) : Except Error Source.Elements := do
  let code ← textOf code
  if code.toList.all Text.isBlank then return .empty
  return Source.parseElements code (← textOf extension)

def statusOf (report : Indexing.Report) : String :=
  if report.success then "success" else "partial"

def indexFile (here : Conditions) (settings : Settings) (arguments : Arguments) : Work Answer := do
  let content := arguments.get "content"
  match arguments.given? "file_path", content with
  | none, _ | _, .null => refuse "file_path and content are required"
  | some path, _ =>
    let extension := (arguments.given? "file_extension").getD path
    let language ← ofExcept (languageOf arguments extension)
    match parseCode content extension with
    | .error _ => throw (.failed (.unparsable (← ofExcept (here.print .message path))))
    | .ok elements =>
      let context ← ofExcept (scopeKey here settings arguments)
      let report ← below (use (Indexing.indexElementsOf here elements path language context))
      answered here [path] (report.fieldsAs path []) (statusOf report)

def indexFunctions (here : Conditions) (settings : Settings) (arguments : Arguments) :
    Work Answer := do
  match arguments.given? "functions" with
  | none => refuse "At least one function is required"
  | some (.list items) =>
    let entries ← ofExcept (items.mapM Indexing.FunctionEntry.ofJson)
    let context ← ofExcept (scopeKey here settings arguments)
    let language := (arguments.given? "language").getD (.text "typescript")
    let (report, names) ← below (use (Indexing.indexEntries here entries language context))
    answered here names (report.fieldsAs .null names) (statusOf report)
  | some _ => throw (.failed .wrongType)

def languageText (here : Conditions) (elements : Source.Elements) (language : Json) :
    Except Error String :=
  if elements.functions.isEmpty && elements.classes.isEmpty then .ok ""
  else here.print .key language

def validateCode (here : Conditions) (settings : Settings) (arguments : Arguments) :
    Work Answer := do
  match arguments.get "code" with
  | .null => refuse "code is required"
  | code =>
    let extension := (arguments.given? "file_extension").getD (.text "ts")
    let language ← ofExcept (languageOf arguments extension)
    let elements ← ofExcept (parseCode code extension)
    let context ← ofExcept (scopeKey here settings arguments)
    let report ← below (use (query fun graph => do
      let language ← languageText here elements language
      return Review.validateSnippet graph elements language context))
    let summary := s!"{report.found} found, {report.notFound} not found in {report.context}"
    answered here [] (report.fields (arguments.get "verbose").isGiven
      ++ [("summary", .text summary)])

def fileFields (path : Json) (report : Review.FileReport) (verbose : Bool) : Fields :=
  let line := s!"{report.path}: {report.status.name} "
    ++ s!"({report.same} match / {report.modified} modified / {report.new} new)"
  [("file_path", path), ("context", .text report.context),
    ("file_exists", .bool report.fileExists), ("summary", report.summary),
    ("results", report.results verbose), ("file_status", .text report.status.name),
    ("summary_line", .text line)]

def validateFile (here : Conditions) (settings : Settings) (arguments : Arguments) :
    Work Answer := do
  match arguments.given? "file_path", arguments.get "content" with
  | none, _ | _, .null => refuse "file_path and content are required"
  | some path, content =>
    let extension := (arguments.given? "file_extension").getD path
    let language ← ofExcept (languageOf arguments extension)
    let elements ← ofExcept (parseCode content extension)
    let context ← ofExcept (scopeKey here settings arguments)
    let name ← ofExcept (here.print .key path)
    let report ← below (use (query fun graph =>
      .ok (Review.validateFile graph name elements language.plain context)))
    answered here [path] (fileFields path report (arguments.get "verbose").isGiven)

def checkCodeQuality (here : Conditions) (settings : Settings) (arguments : Arguments) :
    Work Answer := do
  match arguments.get "code" with
  | .null => refuse "code is required"
  | code =>
    let extension := (arguments.given? "file_extension").getD (.text "ts")
    let language ← ofExcept (languageOf arguments extension)
    let elements ← ofExcept (parseCode code extension)
    let context ← ofExcept (scopeKey here settings arguments)
    let report ← below (use (query fun graph =>
      .ok (Quality.review graph elements language.plain context)))
    let summary := s!"{report.issues.length} issues in {report.functionsChecked} functions "
      ++ s!"against {report.context}"
    answered here [language] (report.fieldsAs language ++ [("summary", .text summary)])

def contextAnswer (action : Contexts.Action) (context : String) (count : Nat) : Fields :=
  match action with
  | .create =>
    let message :=
      if count = 0 then s!"Context '{context}' is ready; index files to populate it"
      else s!"Context '{context}' already exists with {count} nodes"
    [("action", .text action.name), ("existing_nodes", .nat count), ("message", .text message)]
  | .delete | .clear =>
    [("action", .text action.name), ("context", .text context), ("nodes_removed", .nat count)]

def actOnContext (here : Conditions) (action : Contexts.Action) (arguments : Arguments) :
    Work Answer := do
  let project := arguments.get "project"
  let branch := arguments.get "branch"
  ofExcept (Contexts.require action.name [("project", project.isGiven), ("branch", branch.isGiven)])
  let context ← ofExcept (Scope.key here project branch)
  let count ← below (Contexts.performIn action context)
  answered here [] (contextAnswer action context count)

def summaryList (summaries : List Contexts.Summary) : Json :=
  .list (summaries.map Contexts.Summary.toJson)

def listBranches (here : Conditions) (arguments : Arguments) : Work Answer := do
  let project := arguments.get "project"
  ofExcept (Contexts.require "list-branches" [("project", project.isGiven)])
  let name ← ofExcept (here.print .scope project)
  let branches ← below (Contexts.listProject name)
  answered here [project]
    [("action", .text "list-branches"), ("project", project), ("total", .nat branches.length),
      ("branches", summaryList branches)]

def compareBranches (here : Conditions) (arguments : Arguments) : Work Answer := do
  match arguments.given? "project", arguments.given? "branch",
      arguments.given? "target_branch" with
  | some project, some source, some target =>
    let sourceKey ← ofExcept (Scope.key here project source)
    let targetKey ← ofExcept (Scope.key here project target)
    let comparison ← below (Review.compare sourceKey targetKey)
    answered here [project, source, target]
      (("action", .text "compare-branches") :: comparison.fields project source target)
  | _, _, _ => throw (.failed .incompleteComparison)

def manageContexts (here : Conditions) (arguments : Arguments) : Work Answer := do
  match arguments.get "action" with
  | .text "list" =>
    let contexts ← below Contexts.list
    answered here []
      [("action", .text "list"), ("total", .nat contexts.length),
        ("contexts", summaryList contexts)]
  | .text "list-branches" => listBranches here arguments
  | .text "create" => actOnContext here .create arguments
  | .text "delete" => actOnContext here .delete arguments
  | .text "clear" => actOnContext here .clear arguments
  | .text "compare-branches" => compareBranches here arguments
  | action => refuse s!"Unknown action: {← ofExcept (here.print .message action)}"

def analyzeRelationships (here : Conditions) (settings : Settings) (arguments : Arguments) :
    Work Answer := do
  let analysis := (arguments.given? "analysis_type").getD (.text Review.AnalysisType.all.name)
  let name ← ofExcept (here.print .message analysis)
  let report ← below (Review.analyzeNamed name (scopeKey here settings arguments)
    ((arguments.given? "element_name").map Json.plain))
  answered here [] report.fields

def indexDependencies (here : Conditions) (settings : Settings) (arguments : Arguments) :
    Work Answer := do
  match arguments.given? "package_json" with
  | none => refuse "package_json is required"
  | some manifest =>
    let context ← ofExcept (scopeKey here settings arguments)
    let text ← ofExcept (textOf manifest)
    let names ← ofExcept (Library.readDependencies here.stack text)
    let report ← below (use (Indexing.indexNamesFor here names context
      ((arguments.given? "project_path").getD (.text "unknown"))))
    return .success report.fields

def Tool.work (here : Conditions) (settings : Settings) (arguments : Arguments) :
    Tool → Work Answer
  | indexFile => Tools.indexFile here settings arguments
  | indexFunctions => Tools.indexFunctions here settings arguments
  | validateCode => Tools.validateCode here settings arguments
  | validateFile => Tools.validateFile here settings arguments
  | checkCodeQuality => Tools.checkCodeQuality here settings arguments
  | manageContexts => Tools.manageContexts here arguments
  | analyzeRelationships => Tools.analyzeRelationships here settings arguments
  | indexDependencies => Tools.indexDependencies here settings arguments

def Tool.purpose (arguments : Arguments) : Tool → String
  | indexFile => "index file"
  | indexFunctions => "index functions"
  | validateCode => "validate code"
  | validateFile => "validate file"
  | checkCodeQuality => "check code quality"
  | manageContexts => (arguments.get "action").plain ++ " context"
  | analyzeRelationships => "analyze relationships"
  | indexDependencies => "index dependencies"

/-- The text for an error below a tool. An error that is not foreseen has no wording of its own,
except for entries of loose functions without a name or a body or of a wrong type. -/
def Tool.failureText (arguments : Arguments) (tool : Tool) (error : Error) : String :=
  if error.isForeseen then s!"Failed to {tool.purpose arguments}: {error.message}"
  else if tool = .indexFunctions then
    match error with
    | .unknownKey _ => s!"Invalid function entry: {error.message}"
    | .wrongType => "Invalid function entry"
    | _ => "Tool execution failed"
  else "Tool execution failed"

def Tool.answer (here : Conditions) (settings : Settings) (tool : Tool) (arguments : Arguments) :
    StateM Store Answer := fun store =>
  match tool.work here settings arguments store with
  | (.ok answer, after) => (answer, after)
  | (.error (.said message), after) => (.failure message, after)
  | (.error (.failed error), after) => (.failure (tool.failureText arguments error), after)

def call (here : Conditions) (settings : Settings) (name : String) (arguments : Arguments) :
    StateM Store Answer :=
  match Tool.ofName? name with
  | some tool => tool.answer here settings arguments
  | none => return .failure s!"Unknown tool: {name}"

def callChecked (here : Conditions) (settings : Settings) (name : String) (arguments : Arguments) :
    StateM Store Answer :=
  match Tool.ofName? name with
  | some tool =>
    if tool.accepts arguments then tool.answer here settings arguments
    else return .failure "Input validation error"
  | none => return .failure s!"Unknown tool: {name}"

end CodeAtlas.Tools
