import CodeAtlas.Contexts
import CodeAtlas.Graph.Request
import CodeAtlas.Indexing.Functions
import CodeAtlas.Indexing.Libraries
import CodeAtlas.Quality.Review
import CodeAtlas.Review.Analysis
import CodeAtlas.Review.Validation
import CodeAtlas.Proofs.Graph.Identity
import CodeAtlas.Proofs.Graph.Writes

/-! Runs: what can be asked of an open store, one request after the other. A request is data, its
answer is data, and the time and the faults may change from one step to the next. -/
namespace CodeAtlas.Runs

open CodeAtlas.Graph
open CodeAtlas.Indexing (LooseFunction SourceFile)
open CodeAtlas.Library (Api)
open CodeAtlas.Source (Elements)

inductive Operation where
  | upsert (request : NodeRequest)
  | ensureNode (request : NodeRequest)
  | link (type : String) (source target : EndRequest) (context : String)
    (properties : List (String × Json))
  | transaction (requests : List NodeRequest) (abort : Bool)
  | indexLibrary (api : Api) (context projectPath : String)
  | extract (elements : Elements) (language context : String)
  | indexFile (file : SourceFile) (project branch : Option String)
  | indexElements (elements : Elements) (path language : String) (project branch : Option String)
  | indexFunctions (functions : List LooseFunction) (language : String)
    (project branch : Option String)
  | indexDependencies (manifest projectPath : String) (project branch : Option String)
  | validateSnippet (elements : Elements) (language : String) (project branch : Option String)
  | validateFile (path : String) (elements : Elements) (language : String)
    (project branch : Option String)
  | review (elements : Elements) (language : String) (project branch : Option String)
  | analyze (analysis : String) (element : Option String) (project branch : Option String)
  | administer (action : Contexts.Action) (project branch : Option String)

/-- Operations that write a relationship only after the element it begins at, if they write any. The
single writes and the bare extraction of relationships do not. -/
def Operation.IsIndexing : Operation → Prop
  | upsert _ | ensureNode _ | link .. | transaction .. | extract .. => False
  | _ => True

def Operation.empties? : Operation → Option String
  | administer .delete project branch => (Contexts.required .delete project branch).toOption
  | administer .clear project branch => (Contexts.required .clear project branch).toOption
  | _ => none

inductive Answer where
  | written (id : String) (created : Bool)
  | ensured (id : String)
  | linked
  | performed (created : List Bool)
  | library (report : Indexing.LibraryReport)
  | extracted (outcome : Relations.Outcome)
  | indexed (report : Indexing.Report)
  | dependencies (report : Indexing.DependencyReport)
  | snippet (report : Review.SnippetReport)
  | file (report : Review.FileReport)
  | reviewed (report : Quality.Report)
  | relationships (report : Review.RelationshipReport)
  | counted (nodes : Nat)

/-- Does what an operation asks for. Where a project and a branch are given, their context is
settled before the store is touched. -/
def Operation.perform (here : Conditions) : Operation → Access Answer
  | upsert request => do
    let (id, created) ← use (commit (request.upsert here))
    return .written id created
  | ensureNode request => return .ensured (← use (commit (request.ensure here)))
  | link type source target context properties => do
    let _ ← use (commit (linkRequest here type source target context properties))
    return .linked
  | transaction requests abort =>
    return .performed (← use (commit (upsertTogether here requests abort)))
  | indexLibrary api context projectPath =>
    return .library (← use (Indexing.indexLibrary here api context projectPath))
  | extract elements language context =>
    return .extracted (← use (Relations.extract here elements language context))
  | indexFile file project branch =>
    return .indexed (← Indexing.indexFile here file project branch)
  | indexElements elements path language project branch => do
    let context ← Indexing.contextKey project branch
    return .indexed (← use (Indexing.indexElements here elements path language context))
  | indexFunctions functions language project branch => do
    let context ← Indexing.contextKey project branch
    return .indexed (← use (Indexing.indexFunctions here functions language context))
  | indexDependencies manifest projectPath project branch =>
    return .dependencies (← Indexing.indexDependencies here manifest project branch projectPath)
  | validateSnippet elements language project branch => do
    let context ← Indexing.contextKey project branch
    return .snippet (← use (query fun graph =>
      .ok (Review.validateSnippet graph elements language context)))
  | validateFile path elements language project branch => do
    let context ← Indexing.contextKey project branch
    return .file (← use (query fun graph =>
      .ok (Review.validateFile graph path elements language context)))
  | review elements language project branch => do
    let context ← Indexing.contextKey project branch
    return .reviewed (← use (query fun graph =>
      .ok (Quality.review graph elements language context)))
  | analyze analysis element project branch =>
    return .relationships (← Review.analyze project branch analysis element)
  | administer action project branch =>
    return .counted (← Contexts.perform action project branch)

def Operation.on (operation : Operation) (here : Conditions) (graph : Graph) :
    Except Error Answer × Graph :=
  ((operation.perform here ⟨graph, true⟩).1, (operation.perform here ⟨graph, true⟩).2.graph)

/-- The session that an operation comes down to once its arguments are settled; before that it may
be refused, and then no session begins. -/
def Operation.session (here : Conditions) : Operation → Except Error (Session Answer)
  | upsert request => .ok do
    let (id, created) ← commit (request.upsert here)
    return .written id created
  | ensureNode request => .ok do return .ensured (← commit (request.ensure here))
  | link type source target context properties => .ok do
    let _ ← commit (linkRequest here type source target context properties)
    return .linked
  | transaction requests abort => .ok do
    return .performed (← commit (upsertTogether here requests abort))
  | indexLibrary api context projectPath => .ok do
    return .library (← Indexing.indexLibrary here api context projectPath)
  | extract elements language context => .ok do
    return .extracted (← Relations.extract here elements language context)
  | indexFile file project branch => do
    let elements ← file.elements
    let context ← Indexing.contextKey project branch
    return do
      return .indexed
        (← Indexing.indexElements here elements file.path file.elementLanguage context)
  | indexElements elements path language project branch => do
    let context ← Indexing.contextKey project branch
    return do return .indexed (← Indexing.indexElements here elements path language context)
  | indexFunctions functions language project branch => do
    let context ← Indexing.contextKey project branch
    return do return .indexed (← Indexing.indexFunctions here functions language context)
  | indexDependencies manifest projectPath project branch => do
    let context ← Indexing.contextKey project branch
    let names ← Library.readDependencies here.stack manifest
    return do return .dependencies (← Indexing.indexNames here names context projectPath)
  | validateSnippet elements language project branch => do
    let context ← Indexing.contextKey project branch
    return query fun graph =>
      .ok (.snippet (Review.validateSnippet graph elements language context))
  | validateFile path elements language project branch => do
    let context ← Indexing.contextKey project branch
    return query fun graph =>
      .ok (.file (Review.validateFile graph path elements language context))
  | review elements language project branch => do
    let context ← Indexing.contextKey project branch
    return query fun graph => .ok (.reviewed (Quality.review graph elements language context))
  | analyze analysis element project branch => do
    let analysis ← Review.AnalysisType.ofName analysis
    let context ← Indexing.contextKey project branch
    return do
      return .relationships
        (← query fun graph => Review.analyzeContext graph context analysis element)
  | administer action project branch => do
    let context ← Contexts.required action project branch
    return match action with
      | .create => query fun graph => .ok (.counted (graph.nodesOf context).length)
      | .delete | .clear => do return .counted (← commit (removeContext context))

theorem access_bind_apply {α β : Type} (work : Access α) (next : α → Access β) (store : Store) :
    (work >>= next) store = match work store with
      | (.ok value, middle) => next value middle
      | (.error error, middle) => (.error error, middle) := by
  rw [stateful_bind_apply]
  rcases work store with ⟨_ | _, middle⟩ <;> rfl

theorem settle_apply {α β : Type} (given : Except Error α) (next : α → Access β) (store : Store) :
    (do let value ← given; next value : Access β) store = match given with
      | .ok value => next value store
      | .error error => (.error error, store) := by
  cases given <;> rfl

theorem answer_of_use {α : Type} (work : Session α) (answer : α → Answer) (graph : Graph) :
    (((do return answer (← use work) : Access Answer) ⟨graph, true⟩).1,
      ((do return answer (← use work) : Access Answer) ⟨graph, true⟩).2.graph) =
      (do return answer (← work) : Session Answer) graph := by
  rw [access_bind_apply, use_open, session_bind_apply]
  rcases work graph with ⟨_ | _, middle⟩ <;> rfl

theorem after_map {α β : Type} (work : Session α) (f : α → β) (graph : Graph) :
    ((do return f (← work) : Session β) graph).2 = (work graph).2 := by
  rw [session_bind_apply]
  rcases work graph with ⟨_ | _, _⟩ <;> rfl

theorem on_eq_session (operation : Operation) (here : Conditions) (graph : Graph) :
    operation.on here graph = match operation.session here with
      | .ok work => work graph
      | .error error => (.error error, graph) := by
  cases operation with
  | upsert request => exact answer_of_use _ (fun p : String × Bool => .written p.1 p.2) graph
  | ensureNode request => exact answer_of_use _ .ensured graph
  | link type source target context properties => exact answer_of_use _ (fun _ => .linked) graph
  | transaction requests abort => exact answer_of_use _ .performed graph
  | indexLibrary api context projectPath => exact answer_of_use _ .library graph
  | extract elements language context => exact answer_of_use _ .extracted graph
  | indexFile file project branch =>
    simp only [Operation.on, Operation.perform, Operation.session, Indexing.indexFile,
      Indexing.indexSource]
    cases file.elements with
    | error error => rfl
    | ok elements =>
      cases Indexing.contextKey project branch with
      | error error => rfl
      | ok context =>
        exact answer_of_use
          (Indexing.indexElements here elements file.path file.elementLanguage context)
          .indexed graph
  | indexElements elements path language project branch =>
    simp only [Operation.on, Operation.perform, settle_apply, Operation.session]
    cases Indexing.contextKey project branch with
    | error error => rfl
    | ok context =>
      exact answer_of_use (Indexing.indexElements here elements path language context)
        .indexed graph
  | indexFunctions functions language project branch =>
    simp only [Operation.on, Operation.perform, settle_apply, Operation.session]
    cases Indexing.contextKey project branch with
    | error error => rfl
    | ok context =>
      exact answer_of_use (Indexing.indexFunctions here functions language context) .indexed graph
  | indexDependencies manifest projectPath project branch =>
    simp only [Operation.on, Operation.perform, Operation.session, Indexing.indexDependencies]
    cases Indexing.contextKey project branch with
    | error error => rfl
    | ok context =>
      cases Library.readDependencies here.stack manifest with
      | error error => rfl
      | ok names =>
        exact answer_of_use (Indexing.indexNames here names context projectPath) .dependencies graph
  | validateSnippet elements language project branch =>
    simp only [Operation.on, Operation.perform, settle_apply, Operation.session]
    cases Indexing.contextKey project branch <;> rfl
  | validateFile path elements language project branch =>
    simp only [Operation.on, Operation.perform, settle_apply, Operation.session]
    cases Indexing.contextKey project branch <;> rfl
  | review elements language project branch =>
    simp only [Operation.on, Operation.perform, settle_apply, Operation.session]
    cases Indexing.contextKey project branch <;> rfl
  | analyze analysis element project branch =>
    simp only [Operation.on, Operation.perform, Operation.session, Review.analyze,
      Review.analyzeNamed, Indexing.contextKey]
    cases Review.AnalysisType.ofName analysis with
    | error error => rfl
    | ok analysis =>
      cases BranchContext.resolve project branch with
      | error error => rfl
      | ok context =>
        exact answer_of_use
          (query fun graph => Review.analyzeContext graph context.key analysis element)
          .relationships graph
  | administer action project branch =>
    simp only [Operation.on, Operation.perform, Operation.session, Contexts.perform]
    cases Contexts.required action project branch with
    | error error => rfl
    | ok context => cases action <;> rfl

structure Step where
  here : Conditions
  operation : Operation

def Step.after (step : Step) (graph : Graph) : Graph := (step.operation.on step.here graph).2

/-- The graph after some steps, begun with nothing. -/
def run (steps : List Step) : Graph := steps.foldl (fun graph step => step.after graph) .empty

theorem run_append (steps more : List Step) :
    run (steps ++ more) = more.foldl (fun graph step => step.after graph) (run steps) :=
  List.foldl_append

/-- What holds of the empty graph and is kept by each step of a run holds after the run. -/
theorem run_invariant {P : Graph → Prop} {steps : List Step} (start : P .empty)
    (kept : ∀ step ∈ steps, ∀ graph, P graph → P (step.after graph)) : P (run steps) :=
  List.foldlRecOn steps (fun graph step => step.after graph) start
    fun graph h step mem => kept step mem graph h

end CodeAtlas.Runs
