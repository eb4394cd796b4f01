import CodeAtlas.Proofs.Isolation.Reads
import CodeAtlas.Proofs.Isolation.Sessions

/-! Contexts do not interfere. In a state that was reached by operations each executed in some
context, an operation changes the rows of its own context only, and its answer and what it leaves
there depend on the rows of that context only. -/
namespace CodeAtlas.Runs

open CodeAtlas.Graph

/-- Operations that are executed in a context. The single writes are not: they name the nodes that
they touch in any context. -/
def Operation.IsContextual : Operation → Prop
  | upsert _ | ensureNode _ | link .. | transaction .. => False
  | _ => True

def Operation.context? : Operation → Option String
  | upsert _ | ensureNode _ | link .. | transaction .. => none
  | indexLibrary _ context _ | extract _ _ context => some context
  | indexFile _ project branch | indexElements _ _ _ project branch
  | indexFunctions _ _ project branch | indexDependencies _ _ project branch
  | validateSnippet _ _ project branch | validateFile _ _ _ project branch
  | review _ _ project branch | analyze _ _ project branch =>
    (Indexing.contextKey project branch).toOption
  | administer action project branch => (Contexts.required action project branch).toOption

def Operation.identitiesIn (here : Conditions) (context : String) : Operation → List Identity
  | indexLibrary api _ _ => Indexing.libraryIdentities api context
  | extract elements language _ => Relations.endIdentities elements language context
  | indexFile file _ _ =>
    match file.elements with
    | .ok elements => Indexing.fileIdentities elements file.path file.elementLanguage context
    | .error _ => []
  | indexElements elements path language _ _ =>
    Indexing.fileIdentities elements path language context
  | indexFunctions functions language _ _ =>
    Indexing.functionIdentities functions language context
  | indexDependencies manifest _ _ _ =>
    Indexing.nameIdentities (Library.dependencyNames here.stack manifest) context
  | validateSnippet elements language _ _ => Review.snippetIdentities elements language context
  | validateFile path _ _ _ _ => [.file path context]
  | _ => []

def Operation.identities (here : Conditions) (operation : Operation) : List Identity :=
  match operation.context? with
  | some context => operation.identitiesIn here context
  | none => []

def identities (steps : List Step) : List Identity :=
  steps.flatMap fun step => step.operation.identities step.here

variable {here : Conditions} {known : List Identity} {context : String} {graph other : Graph}
  {operation : Operation} {work : Session Answer}

theorem toOption_of_ok {α : Type} {given : Except Error α} {value : α} (h : given = .ok value) :
    given.toOption = some value := by
  rw [h]
  rfl

theorem context_of_session (contextual : operation.IsContextual)
    (h : operation.session here = .ok work) : ∃ context, operation.context? = some context := by
  cases operation with
  | upsert | ensureNode | link | transaction => exact contextual.elim
  | indexLibrary api context projectPath => exact ⟨context, rfl⟩
  | extract elements language context => exact ⟨context, rfl⟩
  | indexFile | analyze =>
    obtain ⟨_, -, h⟩ := except_bind h
    obtain ⟨context, settled, -⟩ := except_bind h
    exact ⟨context, toOption_of_ok settled⟩
  | _ =>
    obtain ⟨context, settled, -⟩ := except_bind h
    exact ⟨context, toOption_of_ok settled⟩

theorem settled_bind {given : Except Error String} {next : String → Except Error (Session Answer)}
    (h : (given >>= next) = .ok work) (inside : given.toOption = some context) :
    next context = .ok work := by
  obtain ⟨context', settled, h⟩ := except_bind h
  rw [toOption_of_ok settled] at inside
  rwa [Option.some.inj inside] at h

theorem identities_of_context (inside : operation.context? = some context) :
    operation.identities here = operation.identitiesIn here context := by
  rw [Operation.identities, inside]

theorem session_isolated (inside : operation.context? = some context)
    (occur : operation.identitiesIn here context ⊆ known) (free : CollisionFree known)
    (h : operation.session here = .ok work) : SessionIsolated known context work := by
  cases operation with
  | upsert | ensureNode | link | transaction => cases inside
  | indexLibrary api context' projectPath =>
    obtain rfl := Option.some.inj inside
    obtain rfl := Except.ok.inj h
    exact (Indexing.isolated_library free occur).map _
  | extract elements language context' =>
    obtain rfl := Option.some.inj inside
    obtain rfl := Except.ok.inj h
    exact (Relations.isolated_extract free occur).map _
  | indexFile file project branch =>
    obtain ⟨elements, parsed, h⟩ := except_bind h
    obtain rfl := Except.ok.inj (settled_bind h inside)
    rw [Operation.identitiesIn, parsed] at occur
    exact (Indexing.isolated_elements free occur).map _
  | indexElements elements path language project branch =>
    obtain rfl := Except.ok.inj (settled_bind h inside)
    exact (Indexing.isolated_elements free occur).map _
  | indexFunctions functions language project branch =>
    obtain rfl := Except.ok.inj (settled_bind h inside)
    exact (Indexing.isolated_functions free occur).map _
  | indexDependencies manifest projectPath project branch =>
    obtain ⟨names, read, h⟩ := except_bind (settled_bind h inside)
    obtain rfl := Library.dependencies_read read
    obtain rfl := Except.ok.inj h
    exact (Indexing.isolated_names free occur).map _
  | validateSnippet elements language project branch =>
    obtain rfl := Except.ok.inj (settled_bind h inside)
    exact session_isolated_query fun confined confined' agree => by
      rw [Review.snippet_agrees free occur confined confined' agree]
  | validateFile path elements language project branch =>
    obtain rfl := Except.ok.inj (settled_bind h inside)
    exact session_isolated_query fun confined confined' agree => by
      rw [Review.file_agrees free (occur List.mem_cons_self) confined confined' agree]
  | review elements language project branch =>
    obtain rfl := Except.ok.inj (settled_bind h inside)
    exact session_isolated_query fun _ _ agree => by rw [Quality.review_agrees agree]
  | analyze analysis element project branch =>
    obtain ⟨analysis, -, h⟩ := except_bind h
    obtain rfl := Except.ok.inj (settled_bind h inside)
    exact SessionIsolated.map (session_isolated_query fun confined confined' agree =>
      Review.analysis_agrees confined confined' agree analysis element) _
  | administer action project branch =>
    obtain rfl := Except.ok.inj (settled_bind h inside)
    cases action with
    | create => exact session_isolated_query fun _ _ agree => by rw [agree.length_nodesOf]
    | delete | clear => exact (session_isolated_commit isolated_remove).map _

theorem operation_keeps (here : Conditions) (inside : operation.context? = some context)
    (occur : operation.identitiesIn here context ⊆ known) (free : CollisionFree known)
    (confined : Confined known graph) : Confined known (operation.on here graph).2 ∧
      Spares context graph (operation.on here graph).2 := by
  rw [on_eq_session]
  cases settled : operation.session here with
  | error error => exact ⟨confined, Spares.refl context graph⟩
  | ok work => exact (session_isolated inside occur free settled).keeps confined

theorem operation_agrees (inside : operation.context? = some context)
    (occur : operation.identitiesIn here context ⊆ known) (free : CollisionFree known)
    (confined : Confined known graph) (confined' : Confined known other)
    (agree : AgreeOn context graph other) :
    (operation.on here graph).1 = (operation.on here other).1 ∧
      AgreeOn context (operation.on here graph).2 (operation.on here other).2 := by
  rw [on_eq_session, on_eq_session]
  cases settled : operation.session here with
  | error error => exact ⟨rfl, agree⟩
  | ok work => exact (session_isolated inside occur free settled).agrees confined confined' agree

theorem step_confined {step : Step} (contextual : step.operation.IsContextual)
    (occur : step.operation.identities step.here ⊆ known) (free : CollisionFree known)
    (confined : Confined known graph) : Confined known (step.after graph) := by
  cases settled : step.operation.context? with
  | some context =>
    rw [identities_of_context settled] at occur
    exact (operation_keeps step.here settled occur free confined).1
  | none =>
    rw [Step.after, on_eq_session]
    cases done : step.operation.session step.here with
    | error error => exact confined
    | ok work =>
      obtain ⟨context, inside⟩ := context_of_session contextual done
      rw [settled] at inside
      cases inside

theorem run_confined {steps : List Step} (contextual : ∀ step ∈ steps, step.operation.IsContextual)
    (occur : identities steps ⊆ known) (free : CollisionFree known) :
    Confined known (run steps) := by
  refine run_invariant (empty_confined known) fun step mem graph confined => ?_
  have part : step.operation.identities step.here ⊆ identities steps :=
    fun identity inside => List.mem_flatMap.mpr ⟨step, mem, inside⟩
  exact step_confined (contextual step mem) (List.Subset.trans part occur) free confined

/-- An operation in a context leaves all rows of other contexts as they were and no edge between
contexts. In another state with the same rows of its context it answers the same and leaves the same
rows there. -/
theorem operation_keeps_to_context (steps : List Step) (here : Conditions) (operation : Operation)
    (context : String) (contextual : ∀ step ∈ steps, step.operation.IsContextual)
    (inside : operation.context? = some context)
    (free : CollisionFree (identities steps ++ operation.identities here)) :
    Spares context (run steps) (operation.on here (run steps)).2 ∧
    (∀ edge ∈ (operation.on here (run steps)).2.edges,
      ∀ source ∈ (operation.on here (run steps)).2.nodes,
      ∀ target ∈ (operation.on here (run steps)).2.nodes,
        source.id = edge.source → target.id = edge.target →
          source.context = edge.context ∧ target.context = edge.context) ∧
    (∀ others : List Step, (∀ step ∈ others, step.operation.IsContextual) →
      CollisionFree (identities steps ++ identities others ++ operation.identities here) →
      AgreeOn context (run steps) (run others) →
        (operation.on here (run steps)).1 = (operation.on here (run others)).1 ∧
          AgreeOn context (operation.on here (run steps)).2
            (operation.on here (run others)).2) := by
  have own : operation.identities here = operation.identitiesIn here context :=
    identities_of_context inside
  have confined := run_confined contextual
    (List.subset_append_left (identities steps) (operation.identities here)) free
  obtain ⟨after, spares⟩ := operation_keeps here inside
    (own ▸ List.subset_append_right (identities steps) (operation.identities here)) free confined
  refine ⟨spares, ?_, ?_⟩
  · exact fun edge mem source hs target ht begins ends => after.same_context mem hs ht begins ends
  · intro others contextual' free agree
    have known : identities steps ⊆
          identities steps ++ identities others ++ operation.identities here ∧
        identities others ⊆ identities steps ++ identities others ++ operation.identities here ∧
        operation.identitiesIn here context ⊆
          identities steps ++ identities others ++ operation.identities here := by
      rw [← own]
      simp [List.append_assoc]
    exact operation_agrees inside known.2.2 free (run_confined contextual known.1 free)
      (run_confined contextual' known.2.1 free) agree

def onMain : Step := ⟨{ now := 1 }, .indexFunctions [⟨"f", "", none⟩] "python" none none⟩

def onBranch : Step := ⟨{ now := 2 },
  .indexFunctions [⟨"f", "", some "a"⟩] "python" none (some "dev")⟩

/-- Indexing the function again is the same whether or not there is another branch. -/
theorem main_apart_from_branch :
    (onMain.operation.on { now := 3 } (run [onMain])).1 =
        (onMain.operation.on { now := 3 } (run [onMain, onBranch])).1 ∧
      AgreeOn "default:main" (onMain.operation.on { now := 3 } (run [onMain])).2
        (onMain.operation.on { now := 3 } (run [onMain, onBranch])).2 := by
  obtain ⟨nodes, edges⟩ : (∀ label ∈ Label.all, (run [onMain]).nodesWith label "default:main" =
        (run [onMain, onBranch]).nodesWith label "default:main") ∧
      ∀ type ∈ EdgeType.all, (run [onMain]).edgesWith type "default:main" =
        (run [onMain, onBranch]).edgesWith type "default:main" := by
    decide +kernel
  exact (operation_keeps_to_context [onMain] { now := 3 } onMain.operation "default:main"
    (by simp [onMain, Operation.IsContextual]) rfl (by decide +kernel)).2.2 [onMain, onBranch]
    (by simp [onMain, onBranch, Operation.IsContextual]) (by decide +kernel)
    ⟨fun label => nodes label (Label.mem_all label), fun type => edges type (EdgeType.mem_all type)⟩

end CodeAtlas.Runs
