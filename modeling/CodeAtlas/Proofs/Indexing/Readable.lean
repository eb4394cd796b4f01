import CodeAtlas.Proofs.History.Edges
import CodeAtlas.Proofs.Json.Lists

/-! Stored lists stay readable. Edges get their lists from links; indexing supplies what it encoded
itself, so only a single link with a text of its own can leave a list that no report can show. -/
namespace CodeAtlas.Graph

def Properties.Readable (properties : Properties) : Prop :=
  ∀ stored, properties.lookup "imports" = some stored → ∃ value, decodeList stored = .ok value

/-- Every edge holds a list that can be read. -/
def ListsReadable (graph : Graph) : Prop :=
  ∀ edge ∈ graph.edges, ∃ value, decodeList edge.imports = .ok value

def KeepsLists (before after : Graph) : Prop := ListsReadable before → ListsReadable after

variable {here : Conditions} {graph : Graph}

theorem nothing_readable : Properties.Readable [] := fun _ supplied => by cases supplied

theorem keeps_lists_chains : Chains KeepsLists where
  refl _ := id
  trans first second := second ∘ first

theorem keeps_lists_of_edges {after : Graph} (edges : after.edges = graph.edges) :
    KeepsLists graph after :=
  fun readable edge mem => readable edge (edges ▸ mem)

theorem without_keeps_lists (graph : Graph) (context : String) :
    KeepsLists graph (graph.without context) :=
  fun readable edge mem => readable edge (mem_edges_without.mp mem).1

theorem upsert_keeps_lists (identity : Identity) (given : Attributes) :
    WriteMoves KeepsLists (upsert here identity given) :=
  fun _ _ _ done => keeps_lists_of_edges (upsert_edges done)

theorem ensure_keeps_lists (identity : Identity) :
    WriteMoves KeepsLists (ensureNode here identity) :=
  fun _ _ _ done => keeps_lists_of_edges (ensure_edges done)

theorem link_keeps_lists {type : EdgeType} {source target : Endpoint} {context : String}
    {properties : Properties} (supplied : properties.Readable) :
    WriteMoves KeepsLists (link here type source target context properties) := by
  intro graph value after done readable edge mem
  obtain ⟨-, -, -, rfl⟩ := link_cases done
  unfold joined at mem
  split_ifs at mem
  · cases found : graph.edge? type source.id target.id with
    | some old =>
      rw [found] at mem
      rcases mem_setEdge mem with rfl | ⟨known, -⟩
      · cases given : properties.lookup "imports" with
        | none => simpa [Edge.relinked, given] using readable old (edge?_eq_some found).1
        | some stored => simpa [Edge.relinked, given] using supplied stored given
      · exact readable edge known
    | none =>
      rw [found] at mem
      rcases List.mem_append.mp mem with known | fresh
      · exact readable edge known
      · obtain rfl := List.mem_singleton.mp fresh
        cases given : properties.lookup "imports" with
        | none => exact ⟨.list [], by simp [Edge.fresh, given, decodeList]⟩
        | some stored => simpa [Edge.fresh, given] using supplied stored given
  · exact readable edge mem

end CodeAtlas.Graph

namespace CodeAtlas.Indexing

open CodeAtlas.Graph
open CodeAtlas.Source (Elements)

def importWrite (context : String) (statement : Source.Import) : PlannedWrite where
  identity := ⟨.importedModule, [statement.source], context⟩
  edge := .imports
  properties := [("imports", some (encodeList statement.names))]

variable {here : Conditions} {elements : Elements} {path language context : String}
  {planned : PlannedWrite}

theorem plan_of_imports (elements : Elements) (language context : String) :
    (plan elements language context).filter (fun planned => planned.edge = .imports) =
      elements.imports.map (importWrite context) := by
  simp [plan, importWrite, List.filter_map, Function.comp_def]

theorem plan_supplies (h : planned ∈ plan elements language context) :
    planned.properties = [] ∨ ∃ statement ∈ elements.imports,
      planned = importWrite context statement := by
  simp only [plan, List.mem_append, List.mem_map] at h
  rcases h with (((((((⟨_, -, rfl⟩ | ⟨_, -, rfl⟩) | ⟨_, -, rfl⟩) | ⟨_, -, rfl⟩) | ⟨_, -, rfl⟩) |
    ⟨_, -, rfl⟩) | ⟨statement, mem, rfl⟩) | ⟨_, -, rfl⟩)
  case inl.inr => exact .inr ⟨statement, mem, rfl⟩
  all_goals exact .inl rfl

theorem plan_readable (h : planned ∈ plan elements language context) :
    planned.properties.Readable := by
  rcases plan_supplies h with nothing | ⟨statement, -, rfl⟩
  · rw [nothing]
    exact nothing_readable
  · intro stored supplied
    obtain rfl : some (encodeList statement.names) = stored := by
      simpa [importWrite] using supplied
    exact ⟨_, decodeList_encodeList statement.names⟩

theorem element_keeps_lists {file : Identity} (supplied : planned.properties.Readable) :
    WriteMoves KeepsLists (writeElement here file planned) :=
  keeps_lists_chains.write_bind (upsert_keeps_lists _ _) fun _ => link_keeps_lists supplied

theorem relationship_keeps_lists (relationship : Relations.Relationship) :
    WriteMoves KeepsLists (Relations.writeRelationship here language context relationship) := by
  refine keeps_lists_chains.write_bind ?_ fun target => ?_
  · rintro graph ⟨target, created⟩ after done
    rcases Relations.resolve_cases done with ⟨_, -, -, -, rfl⟩ | ⟨-, -, -, fresh, ensured⟩
    · exact keeps_lists_chains.refl after
    · exact ensure_keeps_lists _ _ _ _ ensured
  · exact keeps_lists_chains.write_bind (link_keeps_lists nothing_readable) fun _ =>
      keeps_lists_chains.write_pure _

theorem function_keeps_lists (function : LooseFunction) :
    WriteMoves KeepsLists (writeFunction here language context function) := by
  refine keeps_lists_chains.write_bind (upsert_keeps_lists _ _) fun _ => ?_
  by_cases loose : function.path.getD "" = ""
  · rw [if_pos loose]
    exact keeps_lists_chains.write_pure ()
  · rw [if_neg loose]
    exact keeps_lists_chains.write_bind (upsert_keeps_lists _ _) fun _ =>
      link_keeps_lists nothing_readable

theorem member_keeps_lists (library : Identity) (label : Label) (name : String) :
    WriteMoves KeepsLists (writeMember here library label name) :=
  keeps_lists_chains.write_bind (upsert_keeps_lists _ _) fun _ => link_keeps_lists nothing_readable

theorem extract_keeps_lists (elements : Elements) (language context : String) :
    SessionMoves KeepsLists (Relations.extract here elements language context) :=
  keeps_lists_chains.attempts (fun _ _ => relationship_keeps_lists _) _

theorem write_functions_keeps_lists (functions : List LooseFunction) (language context : String) :
    SessionMoves KeepsLists (writeFunctions here functions language context) :=
  keeps_lists_chains.attempts (fun function _ => function_keeps_lists function) _

/-- All of indexing keeps lists readable. -/
theorem sessions_keep_lists (here : Conditions) : SessionsMove here KeepsLists :=
  { keeps_lists_chains with
    elements := fun elements path language context => by
      refine keeps_lists_chains.session_bind
        (keeps_lists_chains.session_commit (upsert_keeps_lists _ _)) fun _ =>
          keeps_lists_chains.session_bind ?_ fun report => ?_
      · exact keeps_lists_chains.attempts
          (fun planned mem => element_keeps_lists (plan_readable mem)) _
      · exact keeps_lists_chains.session_bind (extract_keeps_lists _ _ _) fun _ =>
          keeps_lists_chains.session_pure _
    functions := fun functions language context =>
      keeps_lists_chains.session_bind (write_functions_keeps_lists functions language context)
        fun _ => keeps_lists_chains.session_bind (extract_keeps_lists _ _ _) fun _ =>
          keeps_lists_chains.session_pure _
    library := fun api context projectPath =>
      keeps_lists_chains.session_bind
        (keeps_lists_chains.session_commit (upsert_keeps_lists _ _)) fun _ =>
          keeps_lists_chains.attempts (fun pair _ => member_keeps_lists _ _ _) _ }

end CodeAtlas.Indexing

namespace CodeAtlas.Runs

open CodeAtlas.Graph

/-- An operation that links single nodes supplies a list that can be read, if it supplies one. -/
def Operation.SuppliesLists : Operation → Prop
  | link _ _ _ _ properties =>
    Properties.Readable (properties.map fun (name, value) => (name, propertyText value))
  | _ => True

theorem operation_keeps_lists {operation : Operation} (supplies : operation.SuppliesLists)
    (here : Conditions) (graph : Graph) : KeepsLists graph (operation.on here graph).2 := by
  have chains : Chains KeepsLists := keeps_lists_chains
  cases operation with
  | upsert request =>
    rw [on_eq_session]
    refine chains.session_map (chains.session_commit fun _ _ _ done => ?_) _ graph
    exact keeps_lists_of_edges (request_upsert_keeps_edges here request _ _ _ done)
  | ensureNode request =>
    rw [on_eq_session]
    refine chains.session_map (chains.session_commit fun _ _ _ done => ?_) _ graph
    exact keeps_lists_of_edges (request_ensure_keeps_edges here request _ _ _ done)
  | link type source target context properties =>
    rw [on_eq_session]
    refine chains.session_map (chains.session_commit ?_) _ graph
    refine write_settle fun sourceId _ => write_settle fun targetId _ =>
      write_settle fun type _ => ?_
    split
    · exact link_keeps_lists supplies
    · intro graph value after refused
      cases refused
  | transaction requests abort =>
    rw [on_eq_session]
    refine chains.session_map (chains.session_commit
      (chains.upsert_together (fun request _ _ _ _ done => ?_) abort)) _ graph
    exact keeps_lists_of_edges (request_upsert_keeps_edges here request _ _ _ done)
  | extract elements language context =>
    rw [on_eq_session]
    exact chains.session_map (Indexing.extract_keeps_lists elements language context) _ graph
  | _ =>
    exact (Indexing.sessions_keep_lists here).operation (by exact trivial)
      fun context => without_keeps_lists graph context

theorem run_keeps_lists {steps : List Step}
    (supplies : ∀ step ∈ steps, step.operation.SuppliesLists) : ListsReadable (run steps) :=
  run_invariant (by simp [ListsReadable, Graph.empty]) fun step mem graph readable =>
    operation_keeps_lists (supplies step mem) step.here graph readable

end CodeAtlas.Runs
