import CodeAtlas.Proofs.Indexing.Plan
import CodeAtlas.Proofs.Relations.Target
import CodeAtlas.Proofs.Runs

/-! Relations that operations keep to. Everything is built from three primitive writes, so a
reflexive and transitive relation between the graph before and the graph after that holds of those
three holds of whatever is indexed, and with the removal of contexts of every operation. Elements
are written without making stubs, and a stub is made only where a relationship finds no target; a
relation that a stub by itself would break can still hold of every write of elements or of all of
indexing. -/
namespace CodeAtlas

open CodeAtlas.Graph

variable {α β : Type} {R : Graph → Graph → Prop} {here : Conditions}

/-- Every success of the write relates the graph before to the graph after. -/
def WriteMoves (R : Graph → Graph → Prop) (write : Write α) : Prop :=
  ∀ graph value after, write graph = .ok (value, after) → R graph after

def SessionMoves (R : Graph → Graph → Prop) (work : Session α) : Prop :=
  ∀ graph, R graph (work graph).2

/-- A relation that holds of no change and passes from one change to the next. -/
structure Chains (R : Graph → Graph → Prop) : Prop where
  refl : ∀ graph, R graph graph
  trans : ∀ {first second third}, R first second → R second third → R first third

structure ElementMoves (here : Conditions) (R : Graph → Graph → Prop) : Prop
    extends Chains R where
  upsert : ∀ identity given, identity.Proper → WriteMoves R (upsert here identity given)
  link : ∀ type source target context properties,
    WriteMoves R (link here type source target context properties)

/-- A relation that also finding or making the target of a relationship keeps to. -/
structure IndexMoves (here : Conditions) (R : Graph → Graph → Prop) : Prop
    extends ElementMoves here R where
  resolve : ∀ label name language context,
    (Relations.elementIdentity label name language context).Proper →
      WriteMoves R (Relations.resolveTarget here label name language context)

structure PrimitiveMoves (here : Conditions) (R : Graph → Graph → Prop) : Prop
    extends ElementMoves here R where
  ensure : ∀ identity, identity.Proper → WriteMoves R (ensureNode here identity)

structure SessionsMove (here : Conditions) (R : Graph → Graph → Prop) : Prop
    extends Chains R where
  elements : ∀ elements path language context,
    SessionMoves R (Indexing.indexElements here elements path language context)
  functions : ∀ functions language context,
    SessionMoves R (Indexing.indexFunctions here functions language context)
  library : ∀ api context projectPath,
    SessionMoves R (Indexing.indexLibrary here api context projectPath)

theorem write_settle {given : Except Error α} {next : α → Write β}
    (rest : ∀ value, given = .ok value → WriteMoves R (next value)) :
    WriteMoves R (liftM given >>= next) := by
  intro graph result after h
  obtain ⟨value, settled, remaining⟩ := write_lift_bind h
  exact rest value settled _ _ _ remaining

namespace Chains

variable (chains : Chains R)

include chains

theorem write_pure (value : α) : WriteMoves R (pure value) := by
  intro graph result after h
  obtain ⟨-, rfl⟩ := Graph.write_pure h
  exact chains.refl after

theorem write_bind {write : Write α} {next : α → Write β} (first : WriteMoves R write)
    (rest : ∀ value, WriteMoves R (next value)) : WriteMoves R (write >>= next) := by
  intro graph result after h
  obtain ⟨value, middle, done, remaining⟩ := Graph.write_bind h
  exact chains.trans (first _ _ _ done) (rest _ _ _ _ remaining)

theorem write_mapM {f : α → Write β} {items : List α}
    (each : ∀ item ∈ items, WriteMoves R (f item)) : WriteMoves R (items.mapM f) := by
  induction items with
  | nil => exact chains.write_pure []
  | cons item items ih =>
    rw [List.mapM_cons]
    refine chains.write_bind (each item List.mem_cons_self) fun value => ?_
    exact chains.write_bind (ih fun other mem => each other (List.mem_cons_of_mem _ mem))
      fun values => chains.write_pure _

theorem session_pure (value : α) : SessionMoves R (pure value) := chains.refl

theorem session_bind {work : Session α} {next : α → Session β} (first : SessionMoves R work)
    (rest : ∀ value, SessionMoves R (next value)) : SessionMoves R (work >>= next) := by
  intro graph
  have begun := first graph
  rw [session_bind_apply]
  rcases done : work graph with ⟨error | value, middle⟩ <;> rw [done] at begun
  · exact begun
  · exact chains.trans begun (rest value middle)

theorem session_map {work : Session α} (h : SessionMoves R work) (f : α → β) :
    SessionMoves R (do return f (← work)) :=
  chains.session_bind h fun _ => chains.session_pure _

theorem session_commit {write : Write α} (h : WriteMoves R write) :
    SessionMoves R (commit write) := by
  intro graph
  rw [commit_apply]
  cases done : write graph with
  | error error => exact chains.refl graph
  | ok pair => exact h graph pair.1 pair.2 done

theorem session_attempt {write : Write α} (h : WriteMoves R write) :
    SessionMoves R (attempt write) := by
  intro graph
  rw [attempt]
  cases done : write graph with
  | error error =>
    dsimp only
    split_ifs <;> exact chains.refl graph
  | ok pair => exact h graph pair.1 pair.2 done

theorem session_query (read : Graph → Except Error α) : SessionMoves R (query read) := chains.refl

theorem session_foldlM {f : β → α → Session β} {items : List α}
    (each : ∀ state, ∀ item ∈ items, SessionMoves R (f state item)) (state : β) :
    SessionMoves R (items.foldlM f state) := by
  induction items generalizing state with
  | nil => exact chains.session_pure state
  | cons item items ih =>
    rw [List.foldlM_cons]
    exact chains.session_bind (each state item List.mem_cons_self) fun next =>
      ih (fun state other mem => each state other (List.mem_cons_of_mem _ mem)) next

theorem attempts {ρ : Type} {write : α → Write β} {record : ρ → α → Except Error β → ρ}
    {items : List α} (each : ∀ item ∈ items, WriteMoves R (write item)) (start : ρ) :
    SessionMoves R (items.foldlM (fun report item => do
      let result ← attempt (write item)
      return record report item result) start) :=
  chains.session_foldlM (fun _ item mem => chains.session_bind
    (chains.session_attempt (each item mem)) fun _ => chains.session_pure _) start

theorem upsert_together {requests : List NodeRequest}
    (each : ∀ request ∈ requests, WriteMoves R (request.upsert here)) (abort : Bool) :
    WriteMoves R (upsertTogether here requests abort) := by
  intro graph created after h
  obtain ⟨before, start, got, rest⟩ := Graph.write_bind h
  obtain ⟨rfl, rfl⟩ : graph = before ∧ graph = start := by
    simpa [get, getThe, MonadStateOf.get, StateT.get, pure, Except.pure] using got
  obtain ⟨answers, middle, written, rest⟩ := Graph.write_bind rest
  cases abort with
  | true =>
    obtain ⟨-, rfl⟩ : answers = created ∧ graph = after := by
      simpa using Except.ok.inj rest
    exact chains.refl graph
  | false =>
    obtain ⟨-, rfl⟩ := Graph.write_pure rest
    refine chains.write_mapM (fun request mem => ?_) _ _ _ written
    exact chains.write_bind (each request mem) fun _ => chains.write_pure _

end Chains

namespace ElementMoves

variable (moves : ElementMoves here R)

include moves

theorem element (file : Identity) (planned : Indexing.PlannedWrite)
    (proper : planned.identity.Proper) :
    WriteMoves R (Indexing.writeElement here file planned) :=
  moves.write_bind (moves.upsert planned.identity _ proper) fun _ => moves.link _ _ _ _ _

theorem function (language context : String) (function : Indexing.LooseFunction) :
    WriteMoves R (Indexing.writeFunction here language context function) := by
  refine moves.write_bind (moves.upsert _ _ rfl) fun _ => ?_
  by_cases loose : function.path.getD "" = ""
  · rw [if_pos loose]
    exact moves.write_pure ()
  · rw [if_neg loose]
    exact moves.write_bind (moves.upsert _ _ rfl) fun _ => moves.link _ _ _ _ _

theorem member (library : Identity) (label : Label) (name : String)
    (proper : label.keyColumns.length = 2) :
    WriteMoves R (Indexing.writeMember here library label name) :=
  moves.write_bind (moves.upsert _ _ proper.symm) fun _ => moves.link _ _ _ _ _

theorem library (api : Library.Api) (context projectPath : String) :
    SessionMoves R (Indexing.indexLibrary here api context projectPath) := by
  refine moves.session_bind (moves.session_commit (moves.upsert _ _ rfl)) fun _ => ?_
  exact moves.attempts (fun pair mem => moves.member _ _ _ (Indexing.member_fits mem).1) _

end ElementMoves

namespace IndexMoves

variable (moves : IndexMoves here R)

include moves

theorem relationship (language context : String) {relationship : Relations.Relationship}
    (kind : relationship.kind ∈ Relations.inferredKinds) :
    WriteMoves R (Relations.writeRelationship here language context relationship) := by
  refine moves.write_bind ?_ fun target => ?_
  · exact moves.resolve _ _ _ _ (Relations.target_proper kind language context)
  · exact moves.write_bind (moves.link _ _ _ _ _) fun _ => moves.write_pure _

theorem extract (elements : Source.Elements) (language context : String) :
    SessionMoves R (Relations.extract here elements language context) :=
  moves.attempts (fun _ mem => moves.relationship language context (Relations.infer_kind mem)) _

theorem elements (elements : Source.Elements) (path language context : String) :
    SessionMoves R (Indexing.indexElements here elements path language context) := by
  refine moves.session_bind (moves.session_commit (moves.upsert _ _ rfl)) fun _ => ?_
  refine moves.session_bind ?_ fun report => ?_
  · exact moves.attempts
      (fun planned mem => moves.element _ planned (Indexing.plan_fits mem).proper) _
  · exact moves.session_bind (moves.extract _ _ _) fun _ => moves.session_pure _

theorem functions (functions : List Indexing.LooseFunction) (language context : String) :
    SessionMoves R (Indexing.indexFunctions here functions language context) := by
  refine moves.session_bind ?_ fun report => ?_
  · exact moves.attempts (fun function _ => moves.function language context function) _
  · exact moves.session_bind (moves.extract _ _ _) fun _ => moves.session_pure _

theorem sessions : SessionsMove here R :=
  { moves with
    elements := moves.elements
    functions := moves.functions
    library := moves.library }

end IndexMoves

namespace SessionsMove

variable (moves : SessionsMove here R)

include moves

theorem names (names : List Library.Name) (context projectPath : String) :
    SessionMoves R (Indexing.indexNames here names context projectPath) := by
  refine moves.session_foldlM (fun report name _ => ?_) _
  split
  · exact moves.session_pure _
  · exact moves.session_bind (moves.library _ _ _) fun _ => moves.session_pure _

/-- An operation that indexes, reads or empties a context. Whether the removal keeps to the relation
may depend on the graph and on the context. -/
theorem operation_emptying {operation : Runs.Operation} (indexing : operation.IsIndexing)
    {graph : Graph}
    (remove : ∀ context, operation.empties? = some context → R graph (graph.without context)) :
    R graph (operation.on here graph).2 := by
  rw [Runs.on_eq_session]
  cases settled : operation.session here with
  | error error => exact moves.refl graph
  | ok work =>
    cases operation with
    | upsert | ensureNode | link | transaction | extract => exact indexing.elim
    | indexLibrary api context projectPath =>
      obtain rfl := Except.ok.inj settled
      exact moves.session_map (moves.library api context projectPath) _ graph
    | indexFile file project branch =>
      obtain ⟨elements, -, settled⟩ := except_bind settled
      obtain ⟨context, -, settled⟩ := except_bind settled
      obtain rfl := Except.ok.inj settled
      exact moves.session_map (moves.elements _ _ _ _) _ graph
    | indexElements elements path language project branch =>
      obtain ⟨context, -, settled⟩ := except_bind settled
      obtain rfl := Except.ok.inj settled
      exact moves.session_map (moves.elements _ _ _ _) _ graph
    | indexFunctions functions language project branch =>
      obtain ⟨context, -, settled⟩ := except_bind settled
      obtain rfl := Except.ok.inj settled
      exact moves.session_map (moves.functions _ _ _) _ graph
    | indexDependencies manifest projectPath project branch =>
      obtain ⟨context, -, settled⟩ := except_bind settled
      obtain ⟨names, -, settled⟩ := except_bind settled
      obtain rfl := Except.ok.inj settled
      exact moves.session_map (moves.names _ _ _) _ graph
    | validateSnippet | validateFile | review =>
      obtain ⟨context, -, settled⟩ := except_bind settled
      obtain rfl := Except.ok.inj settled
      exact moves.refl graph
    | analyze analysis element project branch =>
      obtain ⟨analysis, -, settled⟩ := except_bind settled
      obtain ⟨context, -, settled⟩ := except_bind settled
      obtain rfl := Except.ok.inj settled
      exact moves.session_map (moves.session_query _) _ graph
    | administer action project branch =>
      obtain ⟨context, required, settled⟩ := except_bind settled
      obtain rfl := Except.ok.inj settled
      cases action with
      | create => exact moves.refl graph
      | delete | clear =>
        refine remove context ?_
        rw [Runs.Operation.empties?, required]
        rfl

theorem operation {operation : Runs.Operation} (indexing : operation.IsIndexing) {graph : Graph}
    (remove : ∀ context, R graph (graph.without context)) :
    R graph (operation.on here graph).2 :=
  moves.operation_emptying indexing fun context _ => remove context

end SessionsMove

namespace PrimitiveMoves

variable (moves : PrimitiveMoves here R)

include moves

theorem request_upsert (request : NodeRequest) : WriteMoves R (request.upsert here) := by
  refine write_settle fun identity given => ?_
  refine write_settle fun attributes _ => ?_
  refine moves.write_bind (moves.upsert identity _ (of_fields_proper given)) fun created => ?_
  exact moves.write_pure _

theorem request_ensure (request : NodeRequest) : WriteMoves R (request.ensure here) := by
  refine write_settle fun identity given => ?_
  refine moves.write_bind (moves.ensure identity (of_fields_proper given)) fun created => ?_
  exact moves.write_pure _

theorem link_request (type : String) (source target : EndRequest) (context : String)
    (properties : List (String × Json)) :
    WriteMoves R (linkRequest here type source target context properties) := by
  refine write_settle fun sourceId _ => ?_
  refine write_settle fun targetId _ => ?_
  refine write_settle fun type _ => ?_
  split
  · exact moves.link _ _ _ _ _
  · intro graph result after h
    cases h

theorem upsert_together (requests : List NodeRequest) (abort : Bool) :
    WriteMoves R (upsertTogether here requests abort) :=
  moves.toChains.upsert_together (fun request _ => moves.request_upsert request) abort

theorem resolve_target (label : Label) (name language context : String)
    (proper : (Relations.elementIdentity label name language context).Proper) :
    WriteMoves R (Relations.resolveTarget here label name language context) := by
  rintro graph ⟨target, created⟩ after h
  rcases Relations.resolve_cases h with ⟨_, -, -, -, rfl⟩ | ⟨-, -, -, fresh, ensured⟩
  · exact moves.refl after
  · exact moves.ensure _ proper _ _ _ ensured

theorem indexes : IndexMoves here R := { moves with resolve := moves.resolve_target }

theorem operation_emptying {operation : Runs.Operation} {graph : Graph}
    (remove : ∀ context, operation.empties? = some context → R graph (graph.without context)) :
    R graph (operation.on here graph).2 := by
  cases operation with
  | upsert request =>
    rw [Runs.on_eq_session]
    exact moves.session_map (moves.session_commit (moves.request_upsert request)) _ graph
  | ensureNode request =>
    rw [Runs.on_eq_session]
    exact moves.session_map (moves.session_commit (moves.request_ensure request)) _ graph
  | link type source target context properties =>
    rw [Runs.on_eq_session]
    exact moves.session_map (moves.session_commit (moves.link_request _ _ _ _ _)) _ graph
  | transaction requests abort =>
    rw [Runs.on_eq_session]
    exact moves.session_map (moves.session_commit (moves.upsert_together requests abort)) _ graph
  | extract elements language context =>
    rw [Runs.on_eq_session]
    exact moves.session_map (moves.indexes.extract elements language context) _ graph
  | _ => exact moves.indexes.sessions.operation_emptying (by exact trivial) remove

theorem operation (remove : ∀ graph context, R graph (graph.without context))
    (operation : Runs.Operation) (graph : Graph) : R graph (operation.on here graph).2 :=
  moves.operation_emptying fun context _ => remove graph context

end PrimitiveMoves

end CodeAtlas
