import CodeAtlas.Command.Console
import CodeAtlas.Command.Options
import CodeAtlas.Tools.Server

/-! The commands: indexing files and dependencies, validating, reviewing and analysing code, and
managing contexts. -/

namespace CodeAtlas.Command

open CodeAtlas.Files
open CodeAtlas.Graph (Access Conditions use query)

def version : String := "0.3.0"

def usageError : Nat := 2

def orUsage {α : Type} : Option α → Action α
  | some value => pure value
  | none => exit usageError

def globalOptions : List OptionSpec :=
  [{ long := "--db-path" }, { long := "--log-level" }, { long := "--config" }]

def scopeOptions : List OptionSpec :=
  [{ long := "--project", short := some 'p' }, { long := "--branch", short := some 'b' }]

def languageOption : OptionSpec := { long := "--language", short := some 'l' }

def jsonOption : OptionSpec := { long := "--json", takesValue := false }

def verboseOption : OptionSpec := { long := "--verbose", short := some 'v', takesValue := false }

def yesOption : OptionSpec := { long := "--yes", short := some 'y', takesValue := false }

def commandWords (specs : List OptionSpec) (line : List String) : Action Words :=
  orUsage (wordsOf specs true line)

def existingPath (word : String) : Action Path := do
  let path := Path.ofText word
  if word = "" || ((← get).host.tree.find? path).isNone then exit usageError else return path

def existingFile (word : String) : Action Path := do
  let path ← existingPath word
  if (← get).host.tree.isDirectory path then exit usageError else return path

def onlyWord (words : Words) : Action String :=
  match words.positionals with
  | [word] => pure word
  | _ => exit usageError

def optionOr (words : Words) (name : String) (default : Json) : Json :=
  match words.value? name with
  | some value => if value = "" then default else .text value
  | none => default

def scopeKey (here : Conditions) (settings : Settings) (words : Words) : Except Error String :=
  Scope.key here (optionOr words "--project" settings.defaultProject)
    (optionOr words "--branch" settings.defaultBranch)

def sourceExtensions : List String := [".js", ".jsx", ".mjs", ".cjs", ".ts", ".tsx"]

/-- The source files that paths stand for: of a directory all those inside, in order, except in
`node_modules`. -/
def sourceFiles (tree : Tree) (paths : List Path) : List Path :=
  paths.flatMap fun path =>
    if tree.isDirectory path then
      ((tree.below path).filter fun file =>
        sourceExtensions.contains file.suffix && !file.pieces.contains "node_modules").mergeSort
        fun a b => Tree.piecesLe a.pieces b.pieces
    else [path]

/-- Indexes source files one by one; an error ends the work, and what was written before it
stays. -/
def indexAll (here : Conditions) (tree : Tree) (paths : List Path) (language : Option String)
    (context : Except Error String) : Access (List Indexing.Report) :=
  paths.mapM fun path => do
    let content ← tree.sourceAt path
    Indexing.indexSource here ⟨path.text, some content, language, none⟩ context

def index (settings : Settings) (line : List String) : Action Unit := do
  let words ← commandWords (scopeOptions ++ [languageOption, jsonOption]) line
  if words.positionals.isEmpty then exit usageError
  let paths ← words.positionals.mapM existingPath
  let tree := (← get).host.tree
  let reports ← onGraph settings "Indexing failed" fun here =>
    indexAll here tree (sourceFiles tree paths) (words.value? "--language")
      (scopeKey here settings words)
  if words.has "--json" then
    printJson "Index Results"
      (Json.written (.list (reports.map fun report => .object report.fields)))
  else
    printTable "Indexed Files" ["File", "Elements", "Relationships", "Failures"]
      (reports.map fun report =>
        [report.filePath.getD "", toString report.totalIndexed,
          toString (total (report.relationships.map (·.2))), toString report.failures.length])
    let failed := total (reports.map (·.failures.length))
    if failed = 0 then printSuccess s!"Indexed {reports.length} files"
    else printWarning s!"{failed} elements could not be indexed"

def nameText (name : Library.Name) : Except Error String :=
  match Json.textOf? name with
  | some text => .ok text
  | none => .error .impossibleValue

def deps (settings : Settings) (line : List String) : Action Unit := do
  let words ← commandWords (scopeOptions ++ [jsonOption]) line
  let path ← existingFile (← onlyWord words)
  let host := (← get).host
  let folder := (Path.ofText host.directory).append { path with pieces := path.pieces.dropLast }
  let report ← onGraph settings "Dependency indexing failed" fun here => do
    let manifest ← host.tree.sourceAt path
    let context ← scopeKey here settings words
    let names ← Library.readDependencies here.stack manifest
    use (Indexing.indexNames here names context (Tree.known folder).text)
  if words.has "--json" then
    printJson "Dependency Index"
      (.object (report.fields.map fun (name, value) => (Json.units name, value)))
  else
    printSuccess (s!"Indexed {report.indexedLibraries}/{report.total} libraries "
      ++ s!"({report.indexedApis} APIs) into {report.context}")
    unless report.unsupported.isEmpty do
      let names ← orCrash (report.unsupported.mapM nameText)
      print ("[dim]Unsupported: " ++ String.intercalate ", " names ++ "[/dim]")

def printFindings (title : String) (findings : List Review.Finding) : Action Unit :=
  printTable title ["Element", "Type", "Status"] (findings.map fun finding =>
    [finding.name, finding.label.name, finding.status.name])

def onSource {α : Type} (settings : Settings) (words : Words) (what : String) (path : Path)
    (judge : Graph → Source.Elements → String → String → α) : Action α := do
  let tree := (← get).host.tree
  onGraph settings what fun here => do
    let content ← tree.sourceAt path
    let elements := Source.parseElements content path.text
    let language :=
      BranchContext.effective (words.value? "--language") (Source.languageOf path.text)
    let context ← scopeKey here settings words
    use (query fun graph => .ok (judge graph elements language context))

def validate (settings : Settings) (line : List String) : Action Unit := do
  let words ← commandWords (scopeOptions ++ [languageOption, jsonOption, verboseOption]) line
  let path ← existingFile (← onlyWord words)
  let report ← onSource settings words "Validation failed" path fun graph =>
    Review.validateFile graph path.text
  if words.has "--json" then
    printJson "File Validation" (Json.written (.object (report.fields (words.has "--verbose"))))
  else
    printFindings s!"{path.text} in {report.context}" report.findings
    print (s!"[bold]{report.status.name}[/bold] "
      ++ s!"({report.same} match / {report.modified} modified / {report.new} new)")

def check (settings : Settings) (line : List String) : Action Unit := do
  let words ← commandWords (scopeOptions ++ [languageOption, jsonOption]) line
  let path ← existingFile (← onlyWord words)
  let report ← onSource settings words "Snippet check failed" path Review.validateSnippet
  if words.has "--json" then
    printJson "Snippet Validation" (Json.written (.object (report.fields false)))
  else
    printFindings s!"{path.text} in {report.context}" report.findings
    print s!"{report.found} found, {report.notFound} not found"
  unless report.notFound = 0 do exit 2

def quality (settings : Settings) (line : List String) : Action Unit := do
  let words ← commandWords (scopeOptions ++ [languageOption, jsonOption]) line
  let path ← existingFile (← onlyWord words)
  let report ← onSource settings words "Quality check failed" path Quality.review
  if words.has "--json" then printJson "Code Quality" (Json.written (.object report.fields))
  else if report.issues.isEmpty then
    print s!"[green]No issues in {report.functionsChecked} functions[/green]"
  else
    let title ← orCrash (shown s!"{path.text} in {report.context}")
    let rows ← orCrash (report.issues.mapM fun issue => do
      return [← shown issue.element, issue.kind.name, issue.severity.name, issue.message])
    modify fun console => { console with
      lines := console.lines ++ [title] :: ["Element", "Issue", "Severity", "Details"] :: rows }
  unless report.passed do exit 2

def maxListed : Nat := 20

def relationLine (relation : Review.Relation) : String :=
  let details := match relation.details with
    | .list (item :: items) =>
      " (" ++ String.intercalate ", " ((item :: items).map Json.plain) ++ ")"
    | _ => ""
  s!"  {relation.source} --[{relation.type.name}]--> {relation.target}{details}"

def relationships (settings : Settings) (line : List String) : Action Unit := do
  let words ← commandWords (scopeOptions
    ++ [{ long := "--type", short := some 't' }, { long := "--element", short := some 'e' },
      jsonOption]) line
  unless words.positionals.isEmpty do exit usageError
  let analysis := (words.value? "--type").getD Review.AnalysisType.all.name
  let report ← onGraph settings "Relationship analysis failed" fun here =>
    Review.analyzeNamed analysis (scopeKey here settings words) (words.value? "--element")
  if words.has "--json" then
    printJson "Relationship Analysis" (Json.written (.object report.fields))
  else
    print s!"[bold]🔗 Relationship analysis for {report.context}[/bold]"
    printCounts "Nodes" (report.nodeCounts.map fun (label, count) => (label.name, count))
    printCounts "Relationships" (report.countsByType.map fun (type, count) => (type.name, count))
    if report.relations.isEmpty then print "[dim]No relationships found[/dim]"
    for relation in report.relations.take maxListed do printPlain (relationLine relation)
    if report.relations.length > maxListed then
      print s!"  ... and {report.relations.length - maxListed} more"
    unless report.orphans.isEmpty do
      print "[yellow]Elements without relationships:[/yellow]"
      for (label, name) in report.orphans do print s!"  {label.name}: {name}"

def printSummaries (title : String) (summaries : List Contexts.Summary) : Action Unit :=
  printTable title
    ["Project", "Branch", "Files", "Functions", "Classes", "Components", "Nodes"]
    (summaries.map fun summary =>
      [summary.branchContext.project, summary.branchContext.branch, toString summary.files,
        toString summary.functions, toString summary.classes, toString summary.components,
        toString summary.total])

def listContexts (settings : Settings) (line : List String) : Action Unit := do
  let words ← commandWords [jsonOption] line
  unless words.positionals.isEmpty do exit usageError
  let contexts ← onGraph settings "Failed to list context" fun _ => Contexts.list
  if words.has "--json" then printJson "Contexts" (Tools.summaryList contexts).written
  else if contexts.isEmpty then printInfo "No contexts found in the database"
  else printSummaries "Contexts" contexts

def listBranches (settings : Settings) (line : List String) : Action Unit := do
  let words ← commandWords [jsonOption] line
  let project ← onlyWord words
  let branches ← onGraph settings "Failed to list-branches context" fun _ =>
    Contexts.listBranches (some project)
  if words.has "--json" then
    printJson s!"Branches of {project}" (Tools.summaryList branches).written
  else if branches.isEmpty then printInfo s!"No branches found for project '{project}'"
  else printSummaries s!"Branches of {project}" branches

def contextWords (words : Words) : Action (String × String) :=
  match words.positionals with
  | [project, branch] => pure (project, branch)
  | _ => exit usageError

def createContext (settings : Settings) (line : List String) : Action Unit := do
  let (project, branch) ← contextWords (← commandWords [] line)
  let existing ← onGraph settings "Failed to create context" fun _ =>
    Contexts.perform .create (some project) (some branch)
  if existing = 0 then
    printSuccess s!"Context '{project}:{branch}' is ready; index files to populate it"
  else printInfo s!"Context '{project}:{branch}' already exists with {existing} nodes"

def deleteContext (settings : Settings) (line : List String) : Action Unit := do
  let words ← commandWords [yesOption] line
  let (project, branch) ← contextWords words
  unless words.has "--yes" do confirm s!"Delete every node of '{project}:{branch}'?"
  let deleted ← onGraph settings "Failed to delete context" fun _ =>
    Contexts.perform .delete (some project) (some branch)
  printSuccess s!"Deleted context '{project}:{branch}' ({deleted} nodes)"

def clearContext (settings : Settings) (line : List String) : Action Unit := do
  let words ← commandWords [yesOption] line
  let (project, branch) ← contextWords words
  unless words.has "--yes" do confirm s!"Clear every node of '{project}:{branch}'?"
  let cleared ← onGraph settings "Failed to clear context" fun _ =>
    Contexts.perform .clear (some project) (some branch)
  printSuccess s!"Cleared {cleared} nodes from '{project}:{branch}'"

def printElements (title style : String) (elements : List Review.ComparedElement) :
    Action Unit := do
  unless elements.isEmpty do
    print s!"[{style}]{title}:[/{style}]"
    for element in elements do print s!"  • {element.label.name}: {element.name}"

def compareBranches (settings : Settings) (line : List String) : Action Unit := do
  let words ← commandWords [jsonOption] line
  match words.positionals with
  | [project, source, target] =>
    let comparison ← onGraph settings "Failed to compare-branches context" fun _ =>
      Review.compareBranches (some project) (some source) (some target)
    if words.has "--json" then
      printJson "Branch Comparison"
        (Json.written (.object (comparison.fields (.text project) (.text source) (.text target))))
    else
      print s!"[bold]Branch comparison: {source} vs {target}[/bold]"
      print s!"  {comparison.sourceCount} elements in {source}"
      print s!"  {comparison.targetCount} elements in {target}"
      print s!"  {comparison.inBoth.length} common"
      printElements s!"Only in {source}" "red" comparison.onlyInSource
      printElements s!"Only in {target}" "blue" comparison.onlyInTarget
  | _ => exit usageError

abbrev Work := Settings → List String → Action Unit

def contextCommands : List (String × Work) :=
  [("list", listContexts), ("branches", listBranches), ("create", createContext),
    ("delete", deleteContext), ("clear", clearContext), ("compare", compareBranches)]

def subcommand (commands : List (String × Work)) (line : List String) :
    Action (Work × List String) := do
  let words ← orUsage (wordsOf [] false line)
  match words.positionals with
  | [] => exit usageError
  | name :: rest => return (← orUsage (commands.lookup name), rest)

def contexts : Work := fun settings line => do
  let (work, rest) ← subcommand contextCommands line
  work settings rest

def showVersion : Work := fun _ line => do
  let words ← commandWords [] line
  unless words.positionals.isEmpty do exit usageError
  print s!"mcp-code-validator {version}"

def commands : List (String × Work) :=
  [("index", index), ("deps", deps), ("validate", validate), ("check", check),
    ("quality", quality), ("relationships", relationships), ("contexts", contexts),
    ("version", showVersion)]

def loadSettings (words : Words) : Action Settings := do
  let file ← match words.value? "--config" with
    | some word => do pure (some (← existingFile word))
    | none => pure none
  let text (name : String) : Yaml :=
    match words.value? name with
    | some value => .text value
    | none => .null
  match Settings.load (← get).host file none
      [("db_path", text "--db-path"), ("log_level", text "--log-level")] with
  | .ok settings => return settings
  | .error error =>
    if error.isForeseen then
      printError error.message
      exit 1
    else throw (.crash error)

def databaseOf? (line : List String) (host : Host) : Option Path :=
  let settings : Action Settings := do loadSettings (← orUsage (wordsOf globalOptions false line))
  match settings { host := host } with
  | (.ok settings, _) => some (databaseFile settings)
  | (.error _, _) => none

def run (line : List String) : Action Unit := do
  let words ← orUsage (wordsOf globalOptions false line)
  match words.positionals with
  | [] => exit usageError
  | name :: rest =>
    let work ← orUsage (commands.lookup name)
    work (← loadSettings words) rest

structure Outcome where
  exitCode : Nat
  lines : List (List String)
  host : Host
  /-- The error that no command foresees, if one ended the command. -/
  crash : Option Error := none
  /-- Whether the command ended at a question without an answer. -/
  isUnanswered : Bool := false

def execute (line : List String) (console : Console) : Outcome :=
  match run line console with
  | (.ok (), after) => { exitCode := 0, lines := after.lines, host := after.host }
  | (.error (.exit code), after) => { exitCode := code, lines := after.lines, host := after.host }
  | (.error .unanswered, after) =>
    { exitCode := 1, lines := after.lines, host := after.host, isUnanswered := true }
  | (.error (.crash error), after) =>
    { exitCode := 1, lines := after.lines, host := after.host, crash := some error }

end CodeAtlas.Command
