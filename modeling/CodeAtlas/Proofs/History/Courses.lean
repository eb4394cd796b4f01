import CodeAtlas.Proofs.History.Events
import CodeAtlas.Proofs.History.Links
import CodeAtlas.Proofs.Isolation.NonInterference

/-! The courses that operations in a context take. Once its arguments are settled an operation
follows one of a few courses, and its course tells which ids it may derive, what it writes, which
edges it changes and what graph it leaves. So whatever each course keeps, each operation keeps. -/
namespace CodeAtlas.Runs

open CodeAtlas.Graph
open CodeAtlas.Indexing
open CodeAtlas.Source (Elements)

/-- What an operation in a context does once its arguments are settled. -/
inductive Course where
  /-- It is refused, or it only reads. -/
  | unchanged
  | elements (elements : Elements) (path language context : String)
  | functions (functions : List LooseFunction) (language context : String)
  | library (api : Library.Api) (context projectPath : String)
  | names (names : List Library.Name) (context projectPath : String)
  | extract (elements : Elements) (language context : String)
  | emptied (context : String)

def Course.identities : Course → List Identity
  | .unchanged | .emptied _ => []
  | .elements found path language context => fileIdentities found path language context
  | .functions loose language context => functionIdentities loose language context
  | .library api context _ => libraryIdentities api context
  | .names given context _ => nameIdentities given context
  | .extract found language context => Relations.endIdentities found language context

def Course.events (here : Conditions) (graph : Graph) : Course → List Event
  | .elements found path language context => fileEvents here found path language context graph
  | .functions loose language context => functionEvents here loose language context graph
  | .emptied context => [.emptied context]
  | .unchanged | .library .. | .names .. | .extract .. => []

def Course.changes (here : Conditions) (graph : Graph) : Course → List Change
  | .unchanged => []
  | .elements found path language context => fileChanges here found path language context graph
  | .functions loose language context => functionChanges here loose language context graph
  | .library api context projectPath => libraryChanges here api context projectPath graph
  | .names given context projectPath => nameChanges here context projectPath given graph
  | .extract found language context => extractChanges here found language context graph
  | .emptied context => [.removed ((graph.nodesOf context).map (·.id))]

def Course.after (here : Conditions) (graph : Graph) : Course → Graph
  | .unchanged => graph
  | .elements found path language context =>
    (indexElements here found path language context graph).2
  | .functions loose language context => (indexFunctions here loose language context graph).2
  | .library api context projectPath => (indexLibrary here api context projectPath graph).2
  | .names given context projectPath => (indexNames here given context projectPath graph).2
  | .extract found language context => (tryRelated here found language context graph).2
  | .emptied context => graph.without context

/-- An operation does on a graph what a course does. -/
structure Operation.Follows (operation : Operation) (here : Conditions) (graph : Graph)
    (course : Course) : Prop where
  identities : course.identities ⊆ operation.identities here
  events : operation.events here graph = course.events here graph
  changes : operation.changes here graph = course.changes here graph
  after : (operation.on here graph).2 = course.after here graph

variable {here : Conditions} {graph : Graph} {operation : Operation}

/-- Every operation in a context follows a course. -/
theorem operation_course (contextual : operation.IsContextual) (here : Conditions) (graph : Graph) :
    ∃ course, operation.Follows here graph course := by
  suffices settled : ∃ course : Course, course.identities ⊆ operation.identities here ∧
      operation.events here graph = course.events here graph ∧
      operation.changes here graph = course.changes here graph ∧
      (operation.on here graph).2 = course.after here graph by
    obtain ⟨course, identities, events, changes, after⟩ := settled
    exact ⟨course, identities, events, changes, after⟩
  rw [on_eq_session]
  cases operation with
  | upsert | ensureNode | link | transaction => exact contextual.elim
  | indexLibrary api context projectPath =>
    exact ⟨.library api context projectPath, List.Subset.refl _, rfl, rfl,
      after_map _ Answer.library graph⟩
  | extract elements language context =>
    refine ⟨.extract elements language context, List.Subset.refl _, rfl, rfl, ?_⟩
    simp only [Operation.session, after_map, extract_apply]
    rfl
  | indexFile file project branch =>
    simp only [Operation.session, Operation.events, Operation.changes, Operation.identities,
      Operation.context?, Operation.identitiesIn]
    cases file.elements with
    | error error => exact ⟨.unchanged, List.nil_subset _, rfl, rfl, rfl⟩
    | ok elements =>
      cases contextKey project branch with
      | error error => exact ⟨.unchanged, List.nil_subset _, rfl, rfl, rfl⟩
      | ok context =>
        exact ⟨.elements elements file.path file.elementLanguage context, List.Subset.refl _, rfl,
          rfl, after_map _ Answer.indexed graph⟩
  | indexElements elements path language project branch =>
    simp only [Operation.session, Operation.events, Operation.changes, Operation.identities,
      Operation.context?, Operation.identitiesIn]
    cases contextKey project branch with
    | error error => exact ⟨.unchanged, List.nil_subset _, rfl, rfl, rfl⟩
    | ok context =>
      exact ⟨.elements elements path language context, List.Subset.refl _, rfl, rfl,
        after_map _ Answer.indexed graph⟩
  | indexFunctions functions language project branch =>
    simp only [Operation.session, Operation.events, Operation.changes, Operation.identities,
      Operation.context?, Operation.identitiesIn]
    cases contextKey project branch with
    | error error => exact ⟨.unchanged, List.nil_subset _, rfl, rfl, rfl⟩
    | ok context =>
      exact ⟨.functions functions language context, List.Subset.refl _, rfl, rfl,
        after_map _ Answer.indexed graph⟩
  | indexDependencies manifest projectPath project branch =>
    simp only [Operation.session, Operation.events, Operation.changes, Operation.identities,
      Operation.context?, Operation.identitiesIn]
    cases contextKey project branch with
    | error error => exact ⟨.unchanged, List.nil_subset _, rfl, rfl, rfl⟩
    | ok context =>
      cases read : Library.readDependencies here.stack manifest with
      | error error =>
        rw [(Library.dependencies_unread read).2]
        exact ⟨.unchanged, List.nil_subset _, rfl, rfl, rfl⟩
      | ok names =>
        obtain rfl := Library.dependencies_read read
        exact ⟨.names (Library.dependencyNames here.stack manifest) context projectPath,
          List.Subset.refl _, rfl, rfl, after_map _ Answer.dependencies graph⟩
  | validateSnippet _ _ project branch | validateFile _ _ _ project branch
  | review _ _ project branch =>
    refine ⟨.unchanged, List.nil_subset _, rfl, rfl, ?_⟩
    simp only [Operation.session]
    cases contextKey project branch <;> rfl
  | analyze analysis element project branch =>
    refine ⟨.unchanged, List.nil_subset _, rfl, rfl, ?_⟩
    simp only [Operation.session]
    cases Review.AnalysisType.ofName analysis with
    | error error => rfl
    | ok analysis =>
      cases contextKey project branch with
      | error error => rfl
      | ok context => exact after_map _ Answer.relationships graph
  | administer action project branch =>
    cases action with
    | create =>
      refine ⟨.unchanged, List.nil_subset _, rfl, rfl, ?_⟩
      simp only [Operation.session]
      cases Contexts.required .create project branch <;> rfl
    | delete | clear =>
      simp only [Operation.session, Operation.events, Operation.changes]
      cases Contexts.required _ project branch with
      | error error => exact ⟨.unchanged, List.nil_subset _, rfl, rfl, rfl⟩
      | ok context => exact ⟨.emptied context, List.nil_subset _, rfl, rfl, rfl⟩

end CodeAtlas.Runs
