import CodeAtlas.Json.Basic

/-! Everything that can go wrong, by cause. The wording of a cause is `Error.message`, its
structured details are `Error.details`. -/

namespace CodeAtlas

inductive Error where
  /-- A project name holds the separator of context strings. -/
  | reservedSeparator (project branch : String)
  | missingParameters (action : String) (missing : List String)
  /-- A comparison of branches lacks a project or one of the branches. -/
  | incompleteComparison
  | storeClosed
  | storeUnavailable (path : String)
  | statementRejected
  /-- A stored list cannot be read. -/
  | malformedList
  | writeFailed (reason : String)
  | unparsable (path : String)
  | unknownAnalysis (name : String) (valid : List String)
  /-- A label, an edge type, a key field or a word of this name does not exist or was not given. -/
  | unknownKey (name : String)
  | wrongEndpoints (edge source target : String)
  | unknownSettings (names : List String)
  | invalidLogLevel (level : String) (valid : List String)
  | invalidProject (project : String) (reserved : String)
  | emptyBranch
  | settingsNotMapping (path : String)
  | settingsNotFound (path : String)
  | settingsUnreadable (path : String)
  /-- A value has a type that the operation cannot work with. -/
  | wrongType
  /-- A number or a moment that is written out does not exist, or has too many figures. -/
  | impossibleValue
  /-- A text ends before a character that it has to have. -/
  | noCharacter
  /-- A value is nested more deeply than calls are left to go into it. -/
  | tooDeep
  /-- A text in the settings that is to be a moment is none. -/
  | noMoment
  /-- The home directory of a user cannot be told. -/
  | unknownHome
  /-- The bytes of a file are no text. -/
  | undecodable
  | isDirectory
  | notDirectory
  /-- A file has the name that a directory is to get. -/
  | nameTaken
  /-- The markup of a message closes what is not open. -/
  | unbalancedMarkup
  deriving Inhabited

namespace Error

def message : Error → String
  | .reservedSeparator project _ => s!"Project name '{project}' must not contain ':'"
  | .missingParameters action missing =>
    String.intercalate " and " missing ++ " required for " ++ action
  | .incompleteComparison =>
    "project, branch and target_branch are required for compare-branches"
  | .storeClosed => "Graph store is not initialized"
  | .storeUnavailable path => s!"Failed to open graph database at {path}"
  | .statementRejected => "Query failed"
  | .malformedList => "unreadable list"
  | .writeFailed reason => reason
  | .unparsable path => s!"Failed to parse {path}"
  | .unknownAnalysis name _ => s!"Unknown analysis type '{name}'"
  | .unknownKey name => s!"'{name}'"
  | .wrongEndpoints edge source target => s!"{edge} does not connect {source} to {target}"
  | .unknownSettings names => "Unknown settings: " ++ String.intercalate ", " names
  | .invalidLogLevel level _ => s!"Invalid log level '{level}'"
  | .invalidProject project _ => s!"Invalid default project '{project}'"
  | .emptyBranch => "Default branch must not be empty"
  | .settingsNotMapping path => s!"Settings file {path} must contain a mapping"
  | .settingsNotFound path => s!"Settings file not found: {path}"
  | .settingsUnreadable path => s!"Failed to read settings file {path}"
  | .wrongType => "wrong type"
  | .impossibleValue => "no such value"
  | .noCharacter => "string index out of range"
  | .tooDeep => "maximum recursion depth exceeded"
  | .noMoment => "not a moment"
  | .unknownHome => "Could not determine home directory."
  | .undecodable => "not UTF-8"
  | .isDirectory => "is a directory"
  | .notDirectory => "is not a directory"
  | .nameTaken => "file exists"
  | .unbalancedMarkup => "closing tag without opening tag"

def details : Error → List (String × Json)
  | .reservedSeparator project branch => [("project", .text project), ("branch", .text branch)]
  | .missingParameters action missing =>
    [("action", .text action), ("missing", Json.texts missing)]
  | .unparsable path => [("file_path", .text path)]
  | .unknownAnalysis _ valid => [("valid", Json.texts valid)]
  | .invalidLogLevel _ valid => [("valid", Json.texts valid)]
  | .invalidProject _ reserved => [("reserved", .text reserved)]
  | _ => []

/-- Whether the error comes from the store; such an error in a batch is itemised and the batch goes
on. -/
def isStoreError : Error → Bool
  | .storeClosed | .storeUnavailable _ | .statementRejected | .writeFailed _ => true
  | _ => false

/-- Whether the error is one that the atlas foresees and reports in its own words. All others mean
that a value or a file is not what it has to be. -/
def isForeseen : Error → Bool
  | .unknownKey _ | .wrongEndpoints .. | .malformedList | .wrongType | .impossibleValue
  | .noCharacter | .tooDeep | .noMoment | .unknownHome | .undecodable | .isDirectory
  | .notDirectory | .nameTaken | .unbalancedMarkup => false
  | _ => true

end Error

end CodeAtlas
