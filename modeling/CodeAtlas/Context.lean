import CodeAtlas.Error

/-! Contexts. A context is a branch of a project, written `project:branch`. The separator is
reserved in project names and free in branch names, so the first one splits a context string. -/

namespace CodeAtlas

structure BranchContext where
  project : String
  branch : String
  deriving DecidableEq, Repr, Inhabited

namespace BranchContext

def defaultProject : String := "default"

def defaultBranch : String := "main"

def separator : Char := ':'

/-- The string by which nodes and edges are partitioned. -/
def key (context : BranchContext) : String := context.project ++ ":" ++ context.branch

def effective (name : Option String) (default : String) : String :=
  match name with
  | some given => if given = "" then default else given
  | none => default

def resolve (project branch : Option String) : Except Error BranchContext :=
  let project := effective project defaultProject
  let branch := effective branch defaultBranch
  if separator ∈ project.toList then .error (.reservedSeparator project branch)
  else .ok ⟨project, branch⟩

/-- The context behind a context string, split at the first separator; what is empty or missing is
the default. -/
def parse (text : String) : BranchContext :=
  let project := text.toList.takeWhile (· != separator)
  let branch := (text.toList.dropWhile (· != separator)).drop 1
  ⟨effective (some (String.ofList project)) defaultProject,
    effective (some (String.ofList branch)) defaultBranch⟩

def projectStart (project : String) : String := project ++ ":"

end BranchContext

end CodeAtlas
