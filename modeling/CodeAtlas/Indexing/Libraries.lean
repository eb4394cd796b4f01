import CodeAtlas.Indexing.Files
import CodeAtlas.Library.Catalogue
import CodeAtlas.Library.Manifest

/-! Indexing libraries: a node for the library and one for each of its known members. -/

namespace CodeAtlas.Indexing

open CodeAtlas.Graph
open CodeAtlas.Library (Api Name)
open CodeAtlas.Relations (Failure)

def members (api : Api) : List (Label × String) :=
  api.functions.map (Label.libraryFunction, ·) ++ api.classes.map (Label.libraryClass, ·)
    ++ api.constants.map (Label.libraryConstant, ·) ++ api.hooks.map (Label.libraryHook, ·)
    ++ api.types.map (Label.libraryType, ·)

structure LibraryReport where
  library : String
  members : Nat := 0
  failures : List Failure := []
  deriving Repr

def LibraryReport.record (report : LibraryReport) (label : Label) (member : String) :
    Except Error Unit → LibraryReport
  | .ok () => { report with members := report.members + 1 }
  | .error error =>
    { report with failures := report.failures ++ [⟨.node label, member, error.message⟩] }

def writeMember (here : Conditions) (library : Identity) (label : Label) (member : String) :
    Write Unit := do
  let identity : Identity := ⟨label, [member, library.key.headD ""], library.context⟩
  let _ ← upsert here identity []
  link here .provides library.endpoint identity.endpoint library.context

def indexLibrary (here : Conditions) (api : Api) (context projectPath : String) :
    Session LibraryReport := do
  let library : Identity := ⟨.library, [api.name], context⟩
  let _ ← commit (upsert here library
    [("version", .text api.version), ("project_path", .text projectPath)])
  (members api).foldlM (fun report (label, member) => do
    let result ← attempt (writeMember here library label member)
    return report.record label member result) { library := api.name }

structure DependencyReport where
  context : String
  total : Nat
  indexedLibraries : Nat := 0
  indexedApis : Nat := 0
  supported : List Name := []
  unsupported : List Name := []
  failures : List Failure := []
  deriving Repr

namespace DependencyReport

def leaveOut (report : DependencyReport) (name : Name) : DependencyReport :=
  { report with unsupported := report.unsupported ++ [name] }

def add (report : DependencyReport) (name : Name) (library : LibraryReport) : DependencyReport :=
  { report with
    indexedLibraries := report.indexedLibraries + 1
    indexedApis := report.indexedApis + library.members
    supported := report.supported ++ [name]
    failures := report.failures ++ library.failures }

end DependencyReport

def indexNames (here : Conditions) (names : List Name) (context projectPath : String) :
    Session DependencyReport :=
  names.foldlM (fun report name => do
    match Library.find? name with
    | none => return report.leaveOut name
    | some api => return report.add name (← indexLibrary here api context projectPath))
    { context := context, total := names.length }

/-- Indexes the known libraries for a project whose path may be any value, which has to have a
stored form as soon as one of them is known. -/
def indexNamesFor (here : Conditions) (names : List Name) (context : String) (projectPath : Json) :
    Session DependencyReport :=
  match Cell.ofJson (here.tooDeep .attribute) .library "project_path" projectPath with
  | .ok path => indexNames here names context (path.text?.getD "")
  | .error error =>
    if names.any fun name => (Library.find? name).isSome then throw error
    else indexNames here names context ""

def indexDependencies (here : Conditions) (manifest : String) (project branch : Option String)
    (projectPath : String) : Access DependencyReport := do
  let context ← contextKey project branch
  let names ← Library.readDependencies here.stack manifest
  use (indexNames here names context projectPath)

end CodeAtlas.Indexing
