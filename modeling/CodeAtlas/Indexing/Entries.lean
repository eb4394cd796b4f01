import CodeAtlas.Indexing.Functions

/-! Indexing what may be made of any values: a file whose path and language are values, and loose
functions whose name, body and path are. What is stored of a value is its plain text; names are
told apart as values. -/

namespace CodeAtlas.Indexing

open CodeAtlas.Graph
open CodeAtlas.Relations (LanguageForm Relationship)
open CodeAtlas.Source (Elements)

/-! Files. -/

def bearLanguage (elements : Elements) : Bool :=
  (plan elements "" "").any fun planned => planned.identity.label.keyColumns.contains "language"

def formOf (here : Conditions) : Json → LanguageForm
  | .text _ => .text
  | value => if value.hasParts && here.tooDeep .stub value then .deepValue else .value

/-- Indexes the elements of a file. That a language has no plain text is noticed at the first node
that bears it, when the node of the file is there. -/
def indexElementsOf (here : Conditions) (elements : Elements) (path language : Json)
    (context : String) : Session Report := do
  let path ← here.print .key path
  match here.print .key language with
  | .ok text => indexElementsAs (formOf here language) here elements path text context
  | .error error =>
    if bearLanguage elements then
      let _ ← commit (upsert here (.file path context) [])
      throw error
    indexElements here elements path "" context

/-! Loose functions. -/

structure FunctionEntry where
  name : Json
  body : Json
  path : Json := .null

inductive NameKey where
  | null
  | text (value : String)
  | whole (value : Int)
  | real (value : Real64)
  deriving DecidableEq

/-- The key of a name. Truth values and floating-point numbers are the integers that they equal; a
list or an object has no key. -/
def nameKey? : Json → Option NameKey
  | .null => some .null
  | .bool value => some (.whole (if value then 1 else 0))
  | .int value => some (.whole value)
  | .real value => some (value.whole?.elim (.real value) .whole)
  | .text value => some (.text value)
  | .list _ | .object _ => none

namespace FunctionEntry

def ofJson : Json → Except Error FunctionEntry
  | .object fields => do
    let field (name : String) : Except Error Json :=
      match fields.lookup name with
      | some value => .ok value
      | none => .error (.unknownKey name)
    return { name := ← field "name", body := ← field "body"
             path := (fields.lookup "file_path").getD .null }
  | _ => .error .wrongType

def ofFunction (function : LooseFunction) : FunctionEntry :=
  ⟨.text function.name, .text function.body, Json.ofText? function.path⟩

def element (entry : FunctionEntry) : Source.FunctionElement :=
  ⟨entry.name.plain, entry.body.text?.getD ""⟩

end FunctionEntry

def writeEntry (here : Conditions) (language : Json) (context : String) (entry : FunctionEntry) :
    Write Unit := do
  let name ← here.print .key entry.name
  let language ← here.print .key language
  let body ← Cell.ofJson (here.tooDeep .attribute) .function "body" entry.body
  let identity := Identity.named .function name language context
  let _ ← upsert here identity [("body", body)]
  if entry.path.isGiven then
    let file := Identity.file (← here.print .key entry.path) context
    let _ ← upsert here file []
    link here .contains file.endpoint identity.endpoint context

abbrev Results := List (FunctionEntry × Except Error Unit)

/-- Writes entries one by one. One that cannot be written for another reason than the store ends the
work, and the entries before it stay. -/
def writeEntries (here : Conditions) (entries : List FunctionEntry) (language : Json)
    (context : String) : Session Results :=
  entries.foldlM (fun results entry => do
    let result ← attempt (writeEntry here language context entry)
    return results ++ [(entry, result)]) []

namespace Results

def failedNames (results : Results) : List Json :=
  results.filterMap fun (entry, result) =>
    match result with
    | .ok () => none
    | .error _ => some entry.name

def report (results : Results) (context : String) : Report :=
  results.foldl (fun report (entry, result) => report.record .function entry.name.plain result)
    ⟨none, context, [], [], []⟩

def spared (results : Results) : List FunctionEntry :=
  let failed := results.failedNames.map nameKey?
  (results.map (·.1)).filter fun entry => !failed.contains (nameKey? entry.name)

/-- Whether relationships can be inferred: every name must be one that others can be compared with,
and every body that is read a text. -/
def isReadable (results : Results) : Bool :=
  (results.all fun (entry, _) => (nameKey? entry.name).isSome)
    && results.spared.all fun entry => entry.body.text?.isSome

end Results

/-- The relationships of entries, each once. Sources are told apart by the keys of their names, and
the first of equal names stays. -/
def inferEntries (entries : List FunctionEntry) : List Relationship :=
  let keyed := entries.flatMap fun entry =>
    (Relations.ofFunction entry.element).map fun relationship =>
      ((nameKey? entry.name, { relationship with sourceName := "" }), relationship)
  (distinct (keyed.map (·.1))).filterMap fun key => keyed.lookup key

/-- Indexes entries in a context, with the relationships of those that were written. That these
cannot be inferred is noticed after the entries are written. The names of the failures are given
along with the report. -/
def indexEntries (here : Conditions) (entries : List FunctionEntry) (language : Json)
    (context : String) : Session (Report × List Json) := do
  let results ← writeEntries here entries language context
  unless results.isReadable do throw .wrongType
  let text ← here.print .key language
  let outcome ←
    Relations.writeAllAs (formOf here language) here text context (inferEntries results.spared)
  return ((results.report context).withRelationships outcome, results.failedNames)

end CodeAtlas.Indexing
