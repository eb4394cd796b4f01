import CodeAtlas.Distinct
import CodeAtlas.Files.Tree
import CodeAtlas.Settings.Basic
import CodeAtlas.Settings.Dotenv
import CodeAtlas.Yaml.Value

/-! Loading settings. What is set later wins: defaults, the settings file, the environment, which
the environment files complete, and explicit overrides. -/

namespace CodeAtlas

open CodeAtlas.Files

/-- Where a program runs: its directory as messages show it, the files it sees, its environment, the
home directory it started with and those of other users. -/
structure Host where
  directory : String
  tree : Tree := {}
  environment : Dotenv.Environment := []
  home : String
  homes : String → Option String := fun _ => none
  /-- The reader of YAML texts. -/
  readYaml : String → Except Yaml.Fault Yaml := Yaml.parse
  /-- Whether a collection is nested more deeply than it can be printed. -/
  tooDeep : Yaml → Bool := fun _ => false
  deriving Inhabited

namespace Settings

def defaultFile : String := ".mcp-code-validator.yaml"

def environmentFiles : List String := [".env", ".env.local"]

def sources : List (String × String) :=
  [("db_path", "MCV_DB_PATH"), ("default_project", "MCV_DEFAULT_PROJECT"),
    ("default_branch", "MCV_DEFAULT_BRANCH"), ("log_level", "MCV_LOG_LEVEL")]

def logLevels : List String :=
  ["TRACE", "DEBUG", "INFO", "SUCCESS", "WARNING", "ERROR", "CRITICAL"]

abbrev Layer := List (Yaml × Yaml)

def valueIn (layer : Layer) (name : String) : Option Yaml :=
  (layer.find? fun (key, _) => key.text? == some name).map (·.2)

def faultError (path : String) : Yaml.Fault → Error
  | .malformed => .settingsUnreadable path
  | .impossible => .impossibleValue
  | .noCharacter => .noCharacter
  | .noTruth word => .unknownKey word
  | .noMoment => .noMoment
  | .tooDeep => .tooDeep

def layerOfText (here : Host) (path : String) (text : List Char) : Except Error Layer :=
  match here.readYaml (String.ofList text) with
  | .error fault => .error (faultError path fault)
  | .ok (.mapping pairs) => .ok pairs
  | .ok value =>
    if value.isGiven then .error (.settingsNotMapping path) else .ok []

/-- The layer of the settings file. Without an explicit one the default file counts if it is
there. -/
def fileLayer (here : Host) (file : Option Path) : Except Error Layer := do
  let path := file.getD ⟨"", [defaultFile]⟩
  let shown := match file with
    | some path => path.text
    | none => here.directory ++ "/" ++ defaultFile
  match here.tree.find? path with
  | some .directory => .error (.settingsUnreadable shown)
  | some _ => layerOfText here shown (← here.tree.textAt path)
  | none => if file.isSome then .error (.settingsNotFound shown) else .ok []

def completedEnvironment (here : Host) (directory : Path) :
    Except Error Dotenv.Environment :=
  environmentFiles.foldlM (fun environment name => do
    let path := directory.child name
    if !here.tree.isFile path then return environment
    Dotenv.load environment (← here.tree.textAt path)) here.environment

/-- The layer of the environment, in which empty variables do not count. -/
def environmentLayer (environment : Dotenv.Environment) : Layer :=
  sources.filterMap fun (name, source) =>
    match environment.lookup source with
    | some value => if value = "" then none else some (.text name, .text value)
    | none => none

/-- The layer of the overrides, in which null does not count. -/
def explicitLayer (overrides : List (String × Yaml)) : Layer :=
  overrides.filterMap fun (name, value) =>
    match value with
    | .null => none
    | value => some (.text name, value)

def layered (upper lower : Layer) : Layer :=
  upper.foldl (fun layer (key, value) => Yaml.bindPair key value layer) lower

def checkNames (layer : Layer) : Except Error Unit := do
  let unknown := layer.filter fun (key, _) =>
    !(sources.any fun (name, _) => key.text? == some name)
  if unknown.isEmpty then return
  match unknown.mapM fun (key, _) => key.text? with
  | some names =>
    throw (.unknownSettings ((distinct names).mergeSort fun a b => decide (a ≤ b)))
  | none => throw .wrongType

def defaultPlace (home : String) : String :=
  ((Path.ofText (Path.homeText home)).append ⟨"", [".mcp-code-validator", "graph"]⟩).text

def pathOf (here : Host) (home : String) : Yaml → Except Error String
  | .text value =>
    match (Path.ofText value).expandHome home here.homes with
    | some path => .ok path.text
    | none => .error .unknownHome
  | _ => .error .wrongType

def logLevelOf (here : Host) (value : Yaml) : Except Error String := do
  let level := Text.upperString (← value.printed here.tooDeep)
  if logLevels.contains level then return level else throw (.invalidLogLevel level logLevels)

/-- Whether a value holds the separator of context strings, in so far as it can hold anything. -/
def holdsSeparator : Yaml → Except Error Bool
  | .text value => .ok (value.toList.contains BranchContext.separator)
  | .list items =>
    .ok (items.any fun item => item.text? == some BranchContext.separator.toString)
  | .mapping pairs =>
    .ok (pairs.any fun (key, _) => key.text? == some BranchContext.separator.toString)
  | .set members =>
    .ok (members.any fun member => member.text? == some BranchContext.separator.toString)
  | .ordered _ => .ok false
  | _ => .error .wrongType

/-- The default project must be given and free of the separator. -/
def isNoProject (value : Yaml) : Except Error Bool :=
  if value.isGiven then holdsSeparator value else .ok true

def projectOf (here : Host) (value : Yaml) : Except Error Json := do
  if ← isNoProject value then
    let name ← value.printed here.tooDeep
    throw (.invalidProject name BranchContext.separator.toString)
  return value.toJson

def branchOf (value : Yaml) : Except Error Json :=
  if value.isGiven then .ok value.toJson else .error .emptyBranch

def ofLayer (here : Host) (home : String) (layer : Layer) : Except Error Settings := do
  checkNames layer
  let value (name default : String) : Yaml := (valueIn layer name).getD (.text default)
  let databasePath ← pathOf here home (value "db_path" (defaultPlace here.home))
  let logLevel ← logLevelOf here (value "log_level" "WARNING")
  let defaultProject ← projectOf here (value "default_project" BranchContext.defaultProject)
  let defaultBranch ← branchOf (value "default_branch" BranchContext.defaultBranch)
  return { databasePath, defaultProject, defaultBranch, logLevel }

def load (here : Host) (file environmentDirectory : Option Path)
    (overrides : List (String × Yaml)) : Except Error Settings := do
  let fromFile ← fileLayer here file
  let environment ← completedEnvironment here (environmentDirectory.getD {})
  ofLayer here ((environment.lookup "HOME").getD here.home)
    (layered (explicitLayer overrides) (layered (environmentLayer environment) fromFile))

end Settings

end CodeAtlas
