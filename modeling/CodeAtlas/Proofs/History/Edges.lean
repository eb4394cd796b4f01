import CodeAtlas.Proofs.History.Ageing
import CodeAtlas.Proofs.History.Courses
import CodeAtlas.Proofs.Graph.Content

/-! Every edge of a run is told by the links that the run committed. An operation adds its own
changes to what is told, item by item where it is a batch, and nothing else touches an edge. -/
namespace CodeAtlas.Runs

open CodeAtlas.Graph
open CodeAtlas.Indexing
open CodeAtlas.Relations (Relationship writeRelationship)
open CodeAtlas.Source (Elements)

/-- The edges of a graph are those that some changes tell of. -/
def Told (history : List Change) (graph : Graph) : Prop :=
  ∀ ends : EdgeType × String × String,
    graph.edge? ends.1 ends.2.1 ends.2.2 = edgeOf? (story ends history)

def Adds (added : List Change) (before after : Graph) : Prop :=
  ∀ history, Told history before → Told (history ++ added) after

variable {here : Conditions} {graph middle after : Graph} {added more : List Change}
  {language context : String} {α β : Type}

theorem empty_told : Told [] .empty := fun _ => rfl

theorem adds_nothing (edges : after.edges = graph.edges) : Adds [] graph after := by
  intro history told ends
  rw [List.append_nil, edge?, edges]
  exact told ends

theorem Adds.append (h : Adds added graph middle) (rest : Adds more middle after) :
    Adds (added ++ more) graph after := by
  intro history told
  rw [← List.append_assoc]
  exact rest _ (h history told)

/-! Single writes. -/

theorem adds_joined (type : EdgeType) (source target : Endpoint) (context : String)
    (properties : Properties) :
    Adds (linkChanges here type source target context properties graph) graph
      (joined here graph type source target context properties) := by
  unfold linkChanges joined
  split_ifs
  · intro history told ends
    rw [story_append, List.foldl_cons, List.foldl_nil, Change.follow]
    have before := told (type, source.id, target.id)
    cases found : graph.edge? type source.id target.id with
    | some edge =>
      obtain ⟨-, between⟩ := edge?_eq_some found
      have same : (edge.relinked properties).ends = (type, source.id, target.id) := between
      rw [found] at before
      dsimp only
      rw [edge?_setEdge, same]
      by_cases hit : (type, source.id, target.id) = ends
      · subst hit
        rw [if_pos rfl, if_pos rfl, edgeOf?_concat before.symm, found]
        rfl
      · rw [if_neg hit, if_neg fun eq => hit eq.symm]
        exact told ends
    | none =>
      rw [found] at before
      dsimp only
      rw [edge?_addEdge, told ends]
      by_cases hit : (type, source.id, target.id) = ends
      · subst hit
        have untold : story (type, source.id, target.id) history = [] := by
          cases links : story (type, source.id, target.id) history with
          | nil => rfl
          | cons first rest => simp [links, edgeOf?] at before
        rw [untold, if_pos rfl]
        simp [Edge.fresh, Edge.ends, edgeOf?, supplied]
      · have apart : (Edge.fresh here type source.id target.id context properties).ends ≠
            (ends.1, ends.2.1, ends.2.2) := hit
        rw [if_neg hit, if_neg apart, Option.or_none]
  · exact adds_nothing rfl

theorem adds_link {type : EdgeType} {source target : Endpoint} {properties : Properties}
    {value : Unit}
    (h : link here type source target context properties graph = .ok (value, after)) :
    Adds (linkChanges here type source target context properties graph) graph after := by
  obtain ⟨-, -, -, rfl⟩ := link_cases h
  exact adds_joined type source target context properties

theorem adds_afterwards {write : Write α} {rest : α → Graph → List Change} {value : α}
    (done : write graph = .ok (value, middle)) (edges : middle.edges = graph.edges)
    (h : Adds (rest value middle) middle after) :
    Adds (afterwards write rest graph) graph after := by
  rw [afterwards, done]
  exact (adds_nothing edges).append h

theorem adds_element {file : Identity} {planned : PlannedWrite}
    (h : writeElement here file planned graph = .ok ((), after)) :
    Adds (elementChanges here file planned graph) graph after := by
  obtain ⟨created, middle, put, linked⟩ := write_bind h
  exact adds_afterwards put (upsert_edges put) (adds_link linked)

theorem adds_relationship {relationship : Relationship} {created : Bool}
    (h : writeRelationship here language context relationship graph = .ok (created, after)) :
    Adds (relationshipChanges here language context relationship graph) graph after := by
  obtain ⟨⟨target, fresh⟩, middle, resolved, h⟩ := write_bind h
  obtain ⟨_, joined, linked, h⟩ := write_bind h
  obtain ⟨-, rfl⟩ := write_pure h
  refine adds_afterwards resolved ?_ (adds_link linked)
  rcases Relations.resolve_cases resolved with ⟨_, -, -, -, rfl⟩ | ⟨-, -, -, _, ensured⟩
  · rfl
  · exact ensure_edges ensured

theorem adds_loose {function : LooseFunction}
    (h : writeFunction here language context function graph = .ok ((), after)) :
    Adds (looseChanges here language context function graph) graph after := by
  obtain ⟨created, middle, put, rest⟩ := write_bind h
  rw [looseChanges]
  by_cases loose : function.path.getD "" = ""
  · rw [if_pos loose] at rest
    obtain ⟨-, rfl⟩ := write_pure rest
    simp only [loose, if_true]
    exact adds_nothing (upsert_edges put)
  · rw [if_neg loose] at rest
    obtain ⟨created', middle', put', linked⟩ := write_bind rest
    simp only [loose, if_false]
    refine adds_afterwards put (upsert_edges put) ?_
    exact adds_afterwards put' (upsert_edges put') (adds_link linked)

theorem adds_member {library : Identity} {member : Label × String}
    (h : writeMember here library member.1 member.2 graph = .ok ((), after)) :
    Adds (memberChanges here library member graph) graph after := by
  obtain ⟨created, middle, put, linked⟩ := write_bind h
  exact adds_afterwards put (upsert_edges put) (adds_link linked)

theorem adds_removed (context : String) :
    Adds [.removed ((graph.nodesOf context).map (·.id))] graph (graph.without context) := by
  rintro history told ⟨type, source, target⟩
  rw [story_append, List.foldl_cons, List.foldl_nil, Change.follow]
  split_ifs with severed
  · refine edge?_eq_none.mpr ?_
    rintro edge mem ⟨⟩
    obtain ⟨-, apart⟩ := mem_edges_without.mp mem
    rcases severed with gone | gone
    · obtain ⟨node, inside, id⟩ := List.mem_map.mp gone
      obtain ⟨known, within⟩ := List.mem_filter.mp inside
      exact (apart node known (of_decide_eq_true within)).1 id
    · obtain ⟨node, inside, id⟩ := List.mem_map.mp gone
      obtain ⟨known, within⟩ := List.mem_filter.mp inside
      exact (apart node known (of_decide_eq_true within)).2 id
  · rw [← told, edge?, edge?, without, List.find?_filter]
    congr 1
    funext edge
    by_cases hit : edge.ends = (type, source, target)
    · obtain ⟨rfl, rfl, rfl⟩ := hit
      rw [Severs, not_or] at severed
      simpa using severed
    · rw [Bool.eq_iff_iff]
      simp only [Bool.and_eq_true, decide_eq_true_eq, and_assoc]
      refine iff_of_false (fun both => hit ?_) (fun found => hit ?_)
      · obtain ⟨-, -, types, sources, targets⟩ := both
        rw [Edge.ends, types, sources, targets]
      · obtain ⟨types, sources, targets⟩ := found
        rw [Edge.ends, types, sources, targets]

/-! Batches. -/

theorem adds_batch {write : α → Write β} (changesOf : α → Graph → List Change) (items : List α)
    (each : ∀ item ∈ items, ∀ graph value after, write item graph = .ok (value, after) →
      Adds (changesOf item graph) graph after) (graph : Graph) :
    Adds (batchChanges write changesOf items graph) graph (tryAll write items graph).2 := by
  induction items generalizing graph with
  | nil => exact adds_nothing rfl
  | cons item items ih =>
    have rest := ih fun other mem => each other (List.mem_cons_of_mem _ mem)
    rw [batchChanges, tryAll]
    cases attempted : write item graph with
    | error error => exact rest graph
    | ok pair =>
      have first := each item List.mem_cons_self graph pair.1 pair.2 attempted
      exact first.append (rest pair.2)

theorem adds_extract (elements : Elements) (graph : Graph) :
    Adds (extractChanges here elements language context graph) graph
      (tryRelated here elements language context graph).2 :=
  adds_batch _ _ (fun _ _ _ _ _ done => adds_relationship done) graph

theorem adds_elements (elements : Elements) (path : String) (graph : Graph) :
    Adds (fileChanges here elements path language context graph) graph
      (indexElements here elements path language context graph).2 := by
  rw [index_elements_apply]
  cases put : upsert here (.file path context) [] graph with
  | error error =>
    rw [fileChanges, afterwards, put]
    exact adds_nothing rfl
  | ok pair =>
    have written := adds_batch (elementChanges here (.file path context))
      (plan elements language context) (fun _ _ _ _ _ done => adds_element done) pair.2
    exact adds_afterwards put (upsert_edges put) (written.append (adds_extract _ _))

theorem adds_functions (functions : List LooseFunction) (graph : Graph) :
    Adds (functionChanges here functions language context graph) graph
      (indexFunctions here functions language context graph).2 := by
  rw [index_functions_apply]
  have written := adds_batch (looseChanges here language context) functions
    (fun _ _ _ _ _ done => adds_loose done) graph
  exact written.append (adds_extract _ _)

theorem adds_library (api : Library.Api) (projectPath : String) (graph : Graph) :
    Adds (libraryChanges here api context projectPath graph) graph
      (indexLibrary here api context projectPath graph).2 := by
  rw [index_library_apply]
  cases put : writeLibrary here api context projectPath graph with
  | error error =>
    rw [libraryChanges, afterwards, put]
    exact adds_nothing rfl
  | ok pair =>
    refine adds_afterwards put (upsert_edges put) ?_
    exact adds_batch _ _ (fun _ _ _ _ _ done => adds_member done) pair.2

theorem adds_names (names : List Library.Name) (projectPath : String) (report : DependencyReport)
    (graph : Graph) :
    Adds (nameChanges here context projectPath names graph) graph
      (indexNamesFrom here context projectPath names report graph).2 := by
  induction names generalizing report graph with
  | nil => exact adds_nothing rfl
  | cons name names ih =>
    rw [index_names_from_cons, nameChanges]
    cases Library.find? name with
    | none => exact ih _ graph
    | some api =>
      have first : Adds (libraryChanges here api context projectPath graph) graph
          (indexLibrary here api context projectPath graph).2 := adds_library api projectPath graph
      dsimp only
      rcases indexed : indexLibrary here api context projectPath graph with
        ⟨error | library, middle⟩ <;> rw [indexed] at first
      · rw [List.append_nil]
        exact first
      · exact first.append (ih _ middle)

/-! Operations and runs. -/

def KeepsEdges (before after : Graph) : Prop := after.edges = before.edges

theorem keeps_edges_chains : Chains KeepsEdges where
  refl _ := rfl
  trans first second := second.trans first

theorem request_upsert_keeps_edges (here : Conditions) (request : NodeRequest) :
    WriteMoves KeepsEdges (request.upsert here) := by
  refine write_settle fun identity _ => write_settle fun given _ => ?_
  have put : WriteMoves KeepsEdges (Graph.upsert here identity given) :=
    fun _ _ _ done => upsert_edges done
  exact keeps_edges_chains.write_bind put fun _ => keeps_edges_chains.write_pure _

theorem request_ensure_keeps_edges (here : Conditions) (request : NodeRequest) :
    WriteMoves KeepsEdges (request.ensure here) := by
  refine write_settle fun identity _ => ?_
  have made : WriteMoves KeepsEdges (ensureNode here identity) :=
    fun _ _ _ done => ensure_edges done
  exact keeps_edges_chains.write_bind made fun _ => keeps_edges_chains.write_pure _

theorem adds_request {type : String} {source target : EndRequest}
    {properties : List (String × Json)} {value : Unit}
    (h : linkRequest here type source target context properties graph = .ok (value, after)) :
    Adds (requestChanges here type source target context properties graph) graph after := by
  obtain ⟨sourceId, begins, h⟩ := write_lift_bind h
  obtain ⟨targetId, ends, h⟩ := write_lift_bind h
  obtain ⟨type, typed, h⟩ := write_lift_bind h
  rw [requestChanges, begins, ends, typed]
  cases sourceLabel : Label.ofName? source.label with
  | none =>
    rw [sourceLabel] at h
    cases h
  | some label =>
    cases targetLabel : Label.ofName? target.label with
    | none =>
      rw [sourceLabel, targetLabel] at h
      cases h
    | some label' =>
      rw [sourceLabel, targetLabel] at h
      exact adds_link h

theorem adds_course (course : Course) (graph : Graph) :
    Adds (course.changes here graph) graph (course.after here graph) := by
  cases course with
  | unchanged => exact adds_nothing rfl
  | elements found path language context => exact adds_elements found path graph
  | functions loose language context => exact adds_functions loose graph
  | library api context projectPath => exact adds_library api projectPath graph
  | names given context projectPath => exact adds_names given projectPath _ graph
  | extract found language context => exact adds_extract found graph
  | emptied context => exact adds_removed context

theorem adds_operation (operation : Operation) (graph : Graph) :
    Adds (operation.changes here graph) graph (operation.on here graph).2 := by
  by_cases contextual : operation.IsContextual
  · obtain ⟨course, follows⟩ := operation_course contextual here graph
    rw [follows.changes, follows.after]
    exact adds_course course graph
  rw [on_eq_session]
  cases operation with
  | upsert request =>
    have keeps := keeps_edges_chains.session_commit (request_upsert_keeps_edges here request)
    exact adds_nothing (keeps_edges_chains.session_map keeps _ graph)
  | ensureNode request =>
    have keeps := keeps_edges_chains.session_commit (request_ensure_keeps_edges here request)
    exact adds_nothing (keeps_edges_chains.session_map keeps _ graph)
  | link type source target context properties =>
    simp only [Operation.session, Operation.changes, after_map]
    rw [commit_apply]
    cases done : linkRequest here type source target context properties graph with
    | error error => exact adds_nothing rfl
    | ok pair => exact adds_request done
  | transaction requests abort =>
    have keeps : SessionMoves KeepsEdges (commit (upsertTogether here requests abort)) :=
      keeps_edges_chains.session_commit (keeps_edges_chains.upsert_together
        (fun request _ => request_upsert_keeps_edges here request) abort)
    exact adds_nothing (keeps_edges_chains.session_map keeps _ graph)
  | _ => exact absurd trivial contextual

theorem steps_add (steps : List Step) (graph : Graph) :
    Adds (changesFrom graph steps) graph
      (steps.foldl (fun graph step => step.after graph) graph) := by
  induction steps generalizing graph with
  | nil => exact adds_nothing rfl
  | cons step steps ih =>
    have first : Adds (step.operation.changes step.here graph) graph (step.after graph) :=
      adds_operation step.operation graph
    exact first.append (ih (step.after graph))

/-- The edges after a run are those that its links lead to. -/
theorem run_told (steps : List Step) : Told (changes steps) (run steps) :=
  steps_add steps .empty [] empty_told

theorem edge_told {steps : List Step} {edge : Edge} (mem : edge ∈ (run steps).edges) :
    ∃ first rest, story edge.ends (changes steps) = first :: rest ∧
      edge.context = first.context ∧ edge.createdAt = first.now ∧
      edge.imports = supplied "imports" (first :: rest) := by
  have wf : WellFormed (run steps) :=
    run_invariant empty_well_formed fun step _ _ kept => step_well_formed step kept
  have told := (run_told steps edge.ends).symm.trans (wf.edge?_eq mem)
  cases begun : story edge.ends (changes steps) with
  | nil => simp [begun, edgeOf?] at told
  | cons first rest =>
    rw [begun, edgeOf?, Option.some.injEq] at told
    refine ⟨first, rest, rfl, ?_, ?_, ?_⟩
    all_goals rw [← told]

theorem edge_outlasts {steps more : List Step} {edge : Edge} (mem : edge ∈ (run steps).edges)
    (spared : ∀ change ∈ changesFrom (run steps) more, change.Spares edge.ends) :
    ∃ later ∈ (run (steps ++ more)).edges, later.ends = edge.ends ∧
      later.context = edge.context ∧ later.createdAt = edge.createdAt := by
  obtain ⟨first, rest, begun, context, createdAt, -⟩ := edge_told mem
  obtain ⟨links, goes_on⟩ : ∃ links, story edge.ends (changes steps ++
      changesFrom (run steps) more) = story edge.ends (changes steps) ++ links :=
    story_goes_on spared
  have after : changes (steps ++ more) = changes steps ++ changesFrom (run steps) more :=
    changesFrom_append steps more .empty
  have found := run_told (steps ++ more) edge.ends
  rw [after, goes_on, begun, List.cons_append, edgeOf?] at found
  obtain ⟨known, ends⟩ := edge?_eq_some found
  exact ⟨_, known, ends, context.symm, createdAt.symm⟩

/-- In every run, under any faults and clocks, a node stays what it is until its context is emptied,
and its time of change never moves back. An edge stays what the first link between its ends made it
until one of them is removed, except that each property has the value of the last link to supply
it. -/
theorem run_only_moves_forward (steps more : List Step) :
    (∀ node ∈ (run steps).nodes, Spare more node.context →
      ∃ later ∈ (run (steps ++ more)).nodes, node.Ages later) ∧
    (∀ edge ∈ (run steps).edges, ∃ first rest,
      story edge.ends (changes steps) = first :: rest ∧
        edge.context = first.context ∧ edge.createdAt = first.now ∧
        edge.imports = supplied "imports" (first :: rest)) ∧
    (∀ edge ∈ (run steps).edges,
      (∀ change ∈ changesFrom (run steps) more, change.Spares edge.ends) →
        ∃ later ∈ (run (steps ++ more)).edges, later.ends = edge.ends ∧
          later.context = edge.context ∧ later.createdAt = edge.createdAt) := by
  refine ⟨fun node mem spare => ?_, fun edge mem => edge_told mem,
    fun edge mem spared => edge_outlasts mem spared⟩
  have wf : WellFormed (run steps) :=
    run_invariant empty_well_formed fun step _ _ kept => step_well_formed step kept
  rw [run_append]
  exact steps_keep more wf node mem spare

def imported : List Step :=
  [⟨{ now := 5 }, .indexElements { imports := [⟨"time", ["sleep"]⟩] } "a.py" "python" none none⟩]

def importedAgain : List Step :=
  [⟨{ now := 3 }, .indexElements { imports := [⟨"time", ["now"]⟩] } "a.py" "python" none none⟩]

/-- The file's node and its edge are still there, at the time of the first step. -/
theorem imported_moves_forward :
    (∃ node ∈ (run imported).nodes, Spare importedAgain node.context ∧
      ∃ later ∈ (run (imported ++ importedAgain)).nodes, node.Ages later) ∧
    ∃ edge ∈ (run imported).edges,
      (∀ change ∈ changesFrom (run imported) importedAgain, change.Spares edge.ends) ∧
        ∃ later ∈ (run (imported ++ importedAgain)).edges, later.ends = edge.ends ∧
          later.context = edge.context ∧ later.createdAt = edge.createdAt := by
  obtain ⟨nodes, -, edges⟩ := run_only_moves_forward imported importedAgain
  obtain ⟨⟨node, mem, spare⟩, edge, mem', spared⟩ :
      (∃ node ∈ (run imported).nodes, Spare importedAgain node.context) ∧
      ∃ edge ∈ (run imported).edges,
        ∀ change ∈ changesFrom (run imported) importedAgain, change.Spares edge.ends := by
    decide +kernel
  exact ⟨⟨node, mem, spare, nodes node mem spare⟩, edge, mem', spared, edges edge mem' spared⟩

/-- The last link supplies what is imported, the first one the time. -/
example : (run (imported ++ importedAgain)).edges.map (fun edge => (edge.imports, edge.createdAt)) =
    [(some "[\"now\"]", 5)] := by decide +kernel

end CodeAtlas.Runs
