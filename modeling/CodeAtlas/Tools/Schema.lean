import CodeAtlas.Json.Basic
import CodeAtlas.Review.Analysis

/-! The tools, what each is for and which arguments it takes. -/

namespace CodeAtlas.Tools

inductive Tool where
  | indexFile
  | indexFunctions
  | validateCode
  | validateFile
  | checkCodeQuality
  | manageContexts
  | analyzeRelationships
  | indexDependencies
  deriving DecidableEq, Repr

namespace Tool

def all : List Tool :=
  [indexFile, indexFunctions, validateCode, validateFile, checkCodeQuality, manageContexts,
    analyzeRelationships, indexDependencies]

def name : Tool → String
  | indexFile => "index_file"
  | indexFunctions => "index_functions"
  | validateCode => "validate_code"
  | validateFile => "validate_file"
  | checkCodeQuality => "check_code_quality"
  | manageContexts => "manage_contexts"
  | analyzeRelationships => "analyze_relationships"
  | indexDependencies => "index_dependencies"

def ofName? (name : String) : Option Tool := all.find? fun tool => tool.name = name

end Tool

inductive ArgumentType where
  | text
  | choice (options : List String)
  | flag
  /-- A list of functions, each an object with a name, a body and possibly a file path. -/
  | functions
  deriving DecidableEq, Repr

structure Parameter where
  name : String
  type : ArgumentType := .text
  description : String
  default? : Option Json := none
  required : Bool := false

def contextActions : List String :=
  ["list", "list-branches", "create", "delete", "clear", "compare-branches"]

def projectParameter : Parameter where
  name := "project"
  description := "Project name (e.g. 'my-app'). Defaults to 'default'."

def branchParameter : Parameter where
  name := "branch"
  description := "Git branch name. Defaults to 'main'."

def languageParameter : Parameter where
  name := "language"
  description := "Language stamped on indexed elements (e.g. 'typescript', 'javascript')"

def extensionParameter : Parameter where
  name := "file_extension"
  description := "File extension selecting the grammar: ts, tsx, js or jsx"
  default? := some (.text "ts")

def verboseParameter (description : String) : Parameter where
  name := "verbose"
  type := .flag
  description := description
  default? := some (.bool false)

namespace Tool

def description : Tool → String
  | indexFile =>
    "Parse a source file and index its functions, classes, React components, hooks, Next.js "
      ++ "patterns, styled elements, imports and exports into the knowledge graph for one project "
      ++ "branch. Re-indexing updates elements in place."
  | indexFunctions =>
    "Index individual functions without a full file. Functions with a file_path are linked to "
      ++ "that file."
  | validateCode =>
    "Check whether the functions and classes in a code snippet exist in the knowledge graph for a "
      ++ "project branch. Reports FOUND or NOT_FOUND per element; bodies are not compared."
  | validateFile =>
    "Diff a whole file against what is indexed for the same path. Each function and class is MATCH "
      ++ "(identical body), MODIFIED (body changed) or NEW (not indexed for this file)."
  | checkCodeQuality =>
    "Review new code against a project branch: flags functions whose naming style departs from the "
      ++ "indexed functions, bodies nearly identical to an indexed function, and names resembling "
      ++ "existing functions."
  | manageContexts =>
    "List, create, delete or clear project/branch contexts, or compare the functions and classes "
      ++ "of two branches. delete and clear remove every node of the context."
  | analyzeRelationships =>
    "Report relationships (calls, inheritance, imports, instantiations) in a project branch, with "
      ++ "node counts per type and elements that have no relationships."
  | indexDependencies =>
    "Index the known public APIs of the libraries declared in a package.json (dependencies, "
      ++ "devDependencies, peerDependencies). Unknown libraries are reported as unsupported."

def parameters : Tool → List Parameter
  | indexFile =>
    [{ name := "file_path", description := "Path identifying the file in the graph"
       required := true },
      { name := "content", description := "Full source text of the file", required := true },
      languageParameter, projectParameter, branchParameter, extensionParameter]
  | indexFunctions =>
    [{ name := "functions", type := .functions, description := "Functions to index"
       required := true },
      languageParameter, projectParameter, branchParameter]
  | validateCode =>
    [{ name := "code", description := "The code snippet to validate", required := true },
      languageParameter, projectParameter, branchParameter, extensionParameter,
      verboseParameter "Include per-element messages"]
  | validateFile =>
    [{ name := "file_path", description := "The file path to validate", required := true },
      { name := "content", description := "Current content of the file", required := true },
      languageParameter, projectParameter, branchParameter,
      { name := "file_extension"
        description :=
          "File extension selecting the grammar; derived from file_path when omitted" },
      verboseParameter "Include the indexed body of changed elements"]
  | checkCodeQuality =>
    [{ name := "code", description := "The code to review", required := true },
      extensionParameter, languageParameter, projectParameter, branchParameter]
  | manageContexts =>
    [{ name := "action", type := .choice contextActions, description := "Action to perform"
       required := true },
      { name := "project"
        description := "Project name (required for every action except list)" },
      { name := "branch"
        description :=
          "Branch name (required for create, delete, clear and compare-branches)" },
      { name := "target_branch"
        description := "Branch compared against (compare-branches only)" }]
  | analyzeRelationships =>
    [projectParameter, branchParameter,
      { name := "analysis_type"
        type := .choice (Review.AnalysisType.every.map Review.AnalysisType.name)
        description := "Relationship family to report", default? := some (.text "all") },
      { name := "element_name"
        description := "Only report relationships touching this element" }]
  | indexDependencies =>
    [{ name := "package_json", description := "Content of package.json", required := true },
      projectParameter, branchParameter,
      { name := "project_path"
        description := "Path of the project the package.json belongs to"
        default? := some (.text "unknown") }]

end Tool

def textSchema : Json := .object [("type", .text "string")]

def functionSchema : Json :=
  .object
    [("type", .text "object"),
      ("properties", .object
        [("name", textSchema), ("body", textSchema), ("file_path", textSchema)]),
      ("required", Json.texts ["name", "body"])]

namespace Parameter

def toJson (parameter : Parameter) : Json :=
  let shape : List (String × Json) :=
    match parameter.type with
    | .text => [("type", .text "string")]
    | .choice options => [("type", .text "string"), ("enum", Json.texts options)]
    | .flag => [("type", .text "boolean")]
    | .functions => [("type", .text "array"), ("items", functionSchema)]
  .object (shape ++ [("description", .text parameter.description)]
    ++ (parameter.default?.map fun value => ("default", value)).toList)

end Parameter

namespace Tool

def inputSchema (tool : Tool) : Json :=
  .object
    [("type", .text "object"),
      ("properties", .object (tool.parameters.map fun parameter =>
        (parameter.name, parameter.toJson))),
      ("required", Json.texts ((tool.parameters.filter (·.required)).map (·.name)))]

def toJson (tool : Tool) : Json :=
  .object
    [("name", .text tool.name), ("description", .text tool.description),
      ("inputSchema", tool.inputSchema)]

end Tool

def isText : Json → Bool
  | .text _ => true
  | _ => false

def isFunctionEntry : Json → Bool
  | .object fields =>
    (["name", "body"].all fun name => (fields.lookup name).isSome)
      && ["name", "body", "file_path"].all fun name => ((fields.lookup name).map isText).getD true
  | _ => false

def ArgumentType.accepts : ArgumentType → Json → Bool
  | .text, value => isText value
  | .choice options, .text value => options.contains value
  | .flag, .bool _ => true
  | .functions, .list items => items.all isFunctionEntry
  | _, _ => false

/-- Whether arguments conform to a tool's schema: what is required is there, and what is there has
the right type. Arguments that the tool does not know are let pass. -/
def Tool.accepts (tool : Tool) (arguments : List (String × Json)) : Bool :=
  tool.parameters.all fun parameter =>
    match arguments.lookup parameter.name with
    | some value => parameter.type.accepts value
    | none => !parameter.required

end CodeAtlas.Tools
