import CodeAtlas.Context
import CodeAtlas.Json.Plain

/-! Settings: where the graph is kept and what stands in for a project or branch that is not
given. -/

namespace CodeAtlas

/-- The settings in force. The default names keep the type that they were given with. -/
structure Settings where
  databasePath : String
  defaultProject : Json := .text BranchContext.defaultProject
  defaultBranch : Json := .text BranchContext.defaultBranch
  logLevel : String := "WARNING"
  deriving Inhabited

end CodeAtlas
