import CodeAtlas.Proofs.Graph.Rewriting
import CodeAtlas.Proofs.Indexing.Order

/-! Indexing the same elements again. The first time settles what it writes: whatever is repeated in
the elements, the last write of a node counts, and it would count again. Its relationships end where
they would end after all of them were written, since a stub stands where its own relationship ends.
So the second time overwrites every node with what it holds and finds every edge in place. -/
namespace CodeAtlas.Indexing

open CodeAtlas.Graph
open CodeAtlas.Relations (Relationship infer writeRelationship targetId)
open CodeAtlas.Source (Elements)

variable {here : Conditions} {graph next before last : Graph} {elements : Elements}
  {path language context : String} {planned : PlannedWrite}

/-! Planned writes leave nothing open. -/

theorem plan_covers (h : planned ∈ plan elements language context) :
    Covers planned.attributes planned.identity.label := by
  simp only [plan, List.mem_append, List.mem_map] at h
  rcases h with (((((((⟨_, -, rfl⟩ | ⟨_, -, rfl⟩) | ⟨_, -, rfl⟩) | ⟨_, -, rfl⟩) | ⟨_, -, rfl⟩) |
    ⟨_, -, rfl⟩) | ⟨_, -, rfl⟩) | ⟨_, -, rfl⟩) <;>
    simp [Covers, Label.attributeColumns, List.lookup_cons]

def PlannedWrite.nodeWrite (planned : PlannedWrite) : NodeWrite :=
  (planned.identity, planned.attributes)

def PlannedWrite.edgeWrite (planned : PlannedWrite) (file : Identity) : EdgeWrite :=
  ((planned.edge, file.id, planned.identity.id), planned.properties)

theorem plan_full (h : planned ∈ plan elements language context) (file : Identity) :
    (planned.edgeWrite file).Full := by
  simp only [plan, List.mem_append, List.mem_map] at h
  rcases h with (((((((⟨_, -, rfl⟩ | ⟨_, -, rfl⟩) | ⟨_, -, rfl⟩) | ⟨_, -, rfl⟩) | ⟨_, -, rfl⟩) |
    ⟨_, -, rfl⟩) | ⟨_, -, rfl⟩) | ⟨_, -, rfl⟩) <;>
    simp [EdgeWrite.Full, PlannedWrite.edgeWrite]

/-! Without failures. -/

structure Completed (here : Conditions) (elements : Elements) (path language context : String)
    (before begun ended last : Graph) (written : List (PlannedWrite × Except Error Unit))
    (related : List (Relationship × Except Error Bool)) : Prop where
  filed : ∃ created, upsert here (.file path context) [] before = .ok (created, begun)
  tried : Tried (writeElement here (.file path context)) begun written ended
  planned : written.map Prod.fst = plan elements language context
  written : failed written = []
  followed : Tried (writeRelationship here language context) ended related last
  inferred : related.map Prod.fst = infer elements
  related : failed related = []

def cleanReport (elements : Elements) (path language context : String) : Report where
  filePath := some path
  context := context
  counts := tally ((plan elements language context).map (·.identity.label))
  relationships := tally ((infer elements).map (·.type))

theorem index_clean {report : Report}
    (done : indexElements here elements path language context before = (.ok report, last))
    (clean : report.success = true) :
    report = cleanReport elements path language context ∧
      ∃ begun ended written related,
        Completed here elements path language context before begun ended last written related := by
  rw [index_elements_apply] at done
  cases put : upsert here (.file path context) [] before with
  | error error =>
    rw [put] at done
    cases (Prod.mk.inj done).1
  | ok pair =>
    rw [put] at done
    obtain ⟨reported, rfl⟩ := Prod.mk.inj done
    obtain rfl := Except.ok.inj reported
    have planned : (tryPlan here elements path language context pair.2).1.map Prod.fst =
        plan elements language context := items_tryAll _ _ _
    generalize tries : tryPlan here elements path language context pair.2 = written at *
    have tried : Tried (writeElement here (.file path context)) pair.2 written.1 written.2 :=
      tries ▸ tried_tryAll _ _ _
    have inferred : (tryRelated here (spared written.1 elements) language context written.2).1.map
        Prod.fst = infer (spared written.1 elements) := items_tryAll _ _ _
    have followed : Tried (writeRelationship here language context) written.2
        (tryRelated here (spared written.1 elements) language context written.2).1
        (tryRelated here (spared written.1 elements) language context written.2).2 :=
      tried_tryAll _ _ _
    generalize tryRelated here (spared written.1 elements) language context written.2 = related at *
    obtain ⟨counts, failures⟩ := record_relationships related.1 {}
    have nothing := List.isEmpty_iff.mp clean
    rw [reportOf, record_results (·.identity.label) PlannedWrite.name, outcomeOf,
      Report.withRelationships, failures, List.nil_append, List.nil_append, List.append_eq_nil_iff,
      List.map_eq_nil_iff, List.map_eq_nil_iff] at nothing
    rw [spared_clean nothing.1] at inferred
    refine ⟨?_, _, _, _, _, ⟨pair.1, put⟩, tried, planned, nothing.1, followed, inferred,
      nothing.2⟩
    rw [reportOf, record_results (·.identity.label) PlannedWrite.name, outcomeOf,
      Report.withRelationships, failures, counts, nothing.1, nothing.2,
      succeeded_of_clean nothing.1, succeeded_of_clean nothing.2, planned, inferred]
    rfl

/-! The first time. -/

theorem element_settles {file : Identity} {past : List PlannedWrite}
    (within : ∀ earlier ∈ past, earlier ∈ plan elements language context)
    (mem : planned ∈ plan elements language context)
    (known : graph.hasNode file.label file.id = true)
    (h : Settled ((file, []) :: past.map PlannedWrite.nodeWrite)
      (past.map (·.edgeWrite file)) here.now graph)
    (done : writeElement here file planned graph = .ok ((), next)) :
    Settled ((file, []) :: (past ++ [planned]).map PlannedWrite.nodeWrite)
      ((past ++ [planned]).map (·.edgeWrite file)) here.now next := by
  have fits := plan_fits mem
  obtain ⟨created, middle, put, linked⟩ := write_bind done
  have begins := ((grows_moves here).upsert _ _ fits.proper _ _ _ put).hasNode known
  obtain ⟨-, -, -, rfl⟩ := link_cases linked
  constructor
  · rw [nodes_joined, List.map_append, ← List.cons_append]
    exact upsert_settles (plan_covers mem) h.nodes put
  · rw [List.map_append]
    refine joined_settles (plan_full mem file) ?_ begins (upsert_present put) ?_
    · intro link inside
      obtain ⟨earlier, mem', rfl⟩ := List.mem_map.mp inside
      exact plan_full (within earlier mem') file
    · rw [upsert_edges put]
      exact h.edges

theorem relationship_settles {writes : List NodeWrite} {links : List EdgeWrite}
    {relationship : Relationship} {since : Int} {created : Bool}
    (kind : relationship.kind ∈ Relations.inferredKinds) (full : ∀ link ∈ links, link.Full)
    (known : ∀ write ∈ writes, graph.hasNode write.1.label write.1.id = true)
    (h : Settled writes links since graph)
    (done : writeRelationship here language context relationship graph = .ok (created, next)) :
    Settled writes links since next := by
  obtain ⟨⟨target, fresh⟩, middle, resolved, done⟩ := write_bind done
  obtain ⟨_, last, linked, done⟩ := write_bind done
  obtain ⟨-, rfl⟩ := write_pure done
  obtain ⟨-, -, -, rfl⟩ := link_cases linked
  have plain : relationship.type ≠ .imports := by
    intro imports
    have reference := (Relations.inferred_kinds_refer kind).2
    simp [imports, Relations.references] at reference
  have nodes : ∀ node ∈ middle.nodes, node.Settled writes since := by
    obtain ⟨-, -, rfl | ⟨unknown, absent, rfl⟩⟩ := Relations.resolve_target_id resolved
    · exact h.nodes
    · intro node mem
      rcases List.mem_append.mp mem with mem | mem
      · exact h.nodes node mem
      · obtain rfl := List.mem_singleton.mp mem
        refine Node.settled_missed since fun write mem' hit => ?_
        have taken := known write mem'
        rw [← hit.1, ← hit.2] at taken
        exact Bool.false_ne_true (absent.symm.trans taken)
  constructor
  · rw [nodes_joined]
    exact nodes
  · intro edge mem
    have edges : middle.edges = graph.edges := by
      obtain ⟨-, -, rfl | ⟨-, -, rfl⟩⟩ := Relations.resolve_target_id resolved <;> rfl
    rcases mem_joined_plain mem with mem | type
    · exact h.edges edge (edges ▸ mem)
    · exact relinkedAll_plain full (type ▸ plain)

/-- The edge of a relationship leads to where the relationship ends now. -/
def Placed (graph : Graph) (language context : String) (relationship : Relationship) : Prop :=
  graph.hasNode relationship.sourceLabel (relationship.source language context).id = true ∧
    graph.hasNode relationship.targetLabel (targetId graph relationship.targetLabel
      relationship.targetName language context) = true ∧
    (relationship.type, (relationship.source language context).id, targetId graph
      relationship.targetLabel relationship.targetName language context) ∈
        graph.edges.map Edge.ends

/-- Writing a relationship does not lead any relationship elsewhere. -/
theorem target_id_relationship {relationship : Relationship} {created : Bool}
    (done : writeRelationship here language context relationship graph = .ok (created, next))
    (label : Label) (name : String) :
    targetId next label name language context = targetId graph label name language context := by
  obtain ⟨⟨target, fresh⟩, middle, resolved, done⟩ := write_bind done
  obtain ⟨_, last, linked, done⟩ := write_bind done
  obtain ⟨-, rfl⟩ := write_pure done
  obtain ⟨-, -, -, rfl⟩ := link_cases linked
  have joined : targetId (joined here middle relationship.type
      (relationship.source language context).endpoint target context []) label name language
        context = targetId middle label name language context := by
    refine Relations.target_id_map (f := fun node => node) ?_ (fun _ => rfl) fun _ => rfl
    rw [nodes_joined, List.map_id']
  refine joined.trans ?_
  obtain ⟨-, -, rfl | ⟨unknown, -, rfl⟩⟩ := Relations.resolve_target_id resolved
  · rfl
  · exact Relations.target_id_stub unknown here.now

theorem relationship_placed {relationship : Relationship} {created : Bool}
    (kind : relationship.kind ∈ Relations.inferredKinds)
    (known : graph.hasNode relationship.sourceLabel
      (relationship.source language context).id = true)
    (done : writeRelationship here language context relationship graph = .ok (created, next)) :
    Placed next language context relationship := by
  have grows := relationship_grows kind done
  rw [Placed, target_id_relationship done]
  obtain ⟨⟨target, fresh⟩, middle, resolved, done⟩ := write_bind done
  obtain ⟨_, last, linked, done⟩ := write_bind done
  obtain ⟨-, rfl⟩ := write_pure done
  obtain ⟨-, -, -, rfl⟩ := link_cases linked
  obtain ⟨rfl, present, -⟩ := Relations.resolve_target_id resolved
  have begins : middle.hasNode (relationship.source language context).label
      (relationship.source language context).id = true := by
    have proper := Relations.target_proper kind language context
    have resolves := (grows_moves here).resolve_target _ _ _ _ proper _ _ _ resolved
    rw [Relationship.source, Relations.label_elementIdentity]
    exact resolves.hasNode known
  refine ⟨grows.hasNode known, ?_, mem_ends_joined.mpr (.inr ⟨begins, present, rfl⟩)⟩
  rw [hasNode, node?, nodes_joined]
  exact present

theorem Placed.mono {relationship other : Relationship} {created : Bool}
    (kind : other.kind ∈ Relations.inferredKinds) (h : Placed graph language context relationship)
    (done : writeRelationship here language context other graph = .ok (created, next)) :
    Placed next language context relationship := by
  have grows := relationship_grows kind done
  rw [Placed, target_id_relationship done]
  exact ⟨grows.hasNode h.1, grows.hasNode h.2.1, grows.edges h.2.2⟩

/-- After everything was written once, all of it is settled, held and in place. -/
structure Indexed (elements : Elements) (path language context : String) (since : Int)
    (graph : Graph) : Prop where
  settled : Settled
    ((.file path context, []) :: (plan elements language context).map PlannedWrite.nodeWrite)
    ((plan elements language context).map (·.edgeWrite (.file path context))) since graph
  filed : graph.hasNode .file (Identity.file path context).id = true
  held : ∀ planned ∈ plan elements language context, Held graph (.file path context) planned
  placed : ∀ relationship ∈ infer elements, Placed graph language context relationship

variable {begun ended : Graph} {written : List (PlannedWrite × Except Error Unit)}
  {related : List (Relationship × Except Error Bool)}

namespace Completed

variable (completed : Completed here elements path language context before begun ended last written
  related)

include completed

theorem planned_of_mem : ∀ planned ∈ written.map Prod.fst,
    planned ∈ plan elements language context := by
  rw [completed.planned]
  exact fun planned mem => mem

theorem kinds : ∀ relationship ∈ related.map Prod.fst,
    relationship.kind ∈ Relations.inferredKinds := by
  rw [completed.inferred]
  exact fun relationship mem => Relations.infer_kind mem

theorem filed_begun : begun.hasNode .file (Identity.file path context).id = true := by
  obtain ⟨created, put⟩ := completed.filed
  exact upsert_present put

theorem elements_grow : Grows begun ended := by
  refine completed.tried.invariant (P := Grows begun) ((grows_moves here).refl begun) ?_
  intro planned mem middle _ next grown done
  have fits := plan_fits (completed.planned_of_mem planned mem)
  exact (grows_moves here).trans grown (element_grows fits done)

theorem held_ended : ∀ planned ∈ plan elements language context,
    Held ended (.file path context) planned := by
  have held := elements_held completed.tried
    (fun planned mem => plan_fits (completed.planned_of_mem planned mem)) completed.filed_begun
  rw [succeeded_of_clean completed.written, completed.planned] at held
  exact held

theorem sources_ended : ∀ relationship ∈ related.map Prod.fst,
    ended.hasNode relationship.sourceLabel (relationship.source language context).id = true := by
  intro relationship mem
  have nothing : spared written elements = elements := spared_clean completed.written
  rw [completed.inferred, ← nothing] at mem
  exact (sources_defined completed.tried completed.planned mem).hasNode

theorem settled_ended : Settled
    ((.file path context, []) :: (plan elements language context).map PlannedWrite.nodeWrite)
    ((plan elements language context).map (·.edgeWrite (.file path context))) here.now ended := by
  obtain ⟨created, put⟩ := completed.filed
  have start : Settled [(.file path context, [])] [] here.now begun := by
    constructor
    · have bare : Covers [] (Identity.file path context).label := by
        simp [Covers, Identity.file, Label.attributeColumns]
      have nothing : ∀ node ∈ before.nodes, node.Settled [] here.now :=
        fun node _ => node.settled_missed here.now (by simp)
      have settled := upsert_settles bare nothing put
      exact settled
    · exact fun edge _ => rfl
  have settled := completed.tried.accumulate
    (P := fun past graph => (∀ earlier ∈ past, earlier ∈ plan elements language context) ∧
      graph.hasNode .file (Identity.file path context).id = true ∧
      Settled ((.file path context, []) :: past.map PlannedWrite.nodeWrite)
        (past.map (·.edgeWrite (.file path context))) here.now graph)
    (fun planned mem {past graph value next} held done => by
      obtain ⟨within, known, settled⟩ := held
      have mem := completed.planned_of_mem planned mem
      refine ⟨?_, (element_grows (plan_fits mem) done).hasNode known,
        element_settles within mem known settled done⟩
      simpa [or_imp, forall_and] using ⟨within, mem⟩)
    [] ⟨by simp, upsert_present put, start⟩
  rw [List.nil_append, succeeded_of_clean completed.written, completed.planned] at settled
  exact settled.2.2

theorem indexed : Indexed elements path language context here.now last := by
  have grows : Grows ended last := relationships_grow completed.followed completed.kinds
  have filed := completed.elements_grow.hasNode completed.filed_begun
  refine ⟨?_, grows.hasNode filed, fun planned mem => (completed.held_ended planned mem).mono grows,
    ?_⟩
  · refine (completed.followed.invariant (P := fun graph => Grows ended graph ∧ Settled _ _ here.now
      graph) ⟨(grows_moves here).refl ended, completed.settled_ended⟩ ?_).2
    rintro relationship mem graph created next ⟨grown, settled⟩ done
    have kind := completed.kinds relationship mem
    refine ⟨(grows_moves here).trans grown (relationship_grows kind done),
      relationship_settles kind ?_ ?_ settled done⟩
    · intro link inside
      obtain ⟨planned, mem, rfl⟩ := List.mem_map.mp inside
      exact plan_full mem _
    · intro write inside
      rcases List.mem_cons.mp inside with rfl | inside
      · exact grown.hasNode filed
      · obtain ⟨planned, mem, rfl⟩ := List.mem_map.mp inside
        exact grown.hasNode (completed.held_ended planned mem).1
  · intro relationship mem
    rw [← completed.inferred, ← succeeded_of_clean completed.related] at mem
    obtain ⟨value, mem⟩ := mem_succeeded.mp mem
    refine completed.followed.result
      (I := fun graph => ∀ relationship ∈ related.map Prod.fst,
        graph.hasNode relationship.sourceLabel (relationship.source language context).id = true)
      (P := fun relationship _ graph => Placed graph language context relationship)
      completed.sources_ended ?_ ?_ mem
    · intro relationship mem graph _ next known done
      have kind := completed.kinds relationship mem
      exact ⟨fun other mem' => (relationship_grows kind done).hasNode (known other mem'),
        relationship_placed kind (known relationship mem) done⟩
    · intro relationship mem graph _ next other _ placed done
      exact placed.mono (completed.kinds relationship mem) done

end Completed

/-! The second time. -/

theorem element_rewrites {file : Identity} {past : List PlannedWrite} (wf : WellFormed graph)
    (mem : planned ∈ plan elements language context)
    (known : graph.hasNode file.label file.id = true) (held : Held graph file planned)
    (h : Rewritten ((file, []) :: past.map PlannedWrite.nodeWrite)
      (past.map (·.edgeWrite file)) here.now before graph)
    (done : writeElement here file planned graph = .ok ((), next)) :
    Rewritten ((file, []) :: (past ++ [planned]).map PlannedWrite.nodeWrite)
      ((past ++ [planned]).map (·.edgeWrite file)) here.now before next := by
  have fits := plan_fits mem
  obtain ⟨created, middle, put, linked⟩ := write_bind done
  have grows := (grows_moves here).upsert _ _ fits.proper _ _ _ put
  have wf' := (well_formed_moves here).upsert _ _ fits.proper _ _ _ put wf
  obtain ⟨-, -, -, rfl⟩ := link_cases linked
  constructor
  · rw [nodes_joined, upsert_known wf held.1 put, h.nodes, List.map_map, List.map_append,
      ← List.cons_append]
    refine List.map_congr_left fun node _ => ?_
    exact (overAll_concat _ _ node).symm
  · rw [joined_known wf' (grows.hasNode known) (grows.hasNode held.1) (grows.edges held.2),
      upsert_edges put, h.edges, List.map_map, List.map_append]
    refine List.map_congr_left fun edge _ => ?_
    exact (overAll_concat _ _ edge).symm

theorem joined_again (wf : WellFormed graph) {type : EdgeType} {source target : Endpoint}
    (begins : graph.hasNode source.label source.id = true)
    (ends : graph.hasNode target.label target.id = true)
    (known : (type, source.id, target.id) ∈ graph.edges.map Edge.ends) :
    joined here graph type source target context [] = graph := by
  have nodes : (joined here graph type source target context []).nodes = graph.nodes :=
    nodes_joined _ _ _ _ _
  have edges : (joined here graph type source target context []).edges = graph.edges := by
    rw [joined_known wf begins ends known]
    refine (List.map_congr_left fun edge _ => ?_).trans (List.map_id _)
    exact ite_self edge
  exact eq_of_lists nodes edges

theorem relationship_again {relationship : Relationship} {created : Bool} (wf : WellFormed graph)
    (placed : Placed graph language context relationship)
    (done : writeRelationship here language context relationship graph = .ok (created, next)) :
    next = graph := by
  obtain ⟨known, present, edge⟩ := placed
  obtain ⟨⟨target, fresh⟩, middle, resolved, done⟩ := write_bind done
  obtain ⟨_, last, linked, done⟩ := write_bind done
  obtain ⟨-, rfl⟩ := write_pure done
  obtain ⟨-, -, -, rfl⟩ := link_cases linked
  obtain ⟨rfl, -, rfl | ⟨unknown, absent, -⟩⟩ := Relations.resolve_target_id resolved
  · refine joined_again wf ?_ present edge
    rw [Identity.endpoint, Relations.label_elementIdentity]
    exact known
  · rw [targetId, unknown] at present
    rw [Relations.label_elementIdentity] at absent
    exact absurd present (by rw [absent]; exact Bool.false_ne_true)

namespace Completed

variable {first : Int} (indexed : Indexed elements path language context first before)
  (wf : WellFormed before)
  (completed : Completed here elements path language context before begun ended last written
    related)

include indexed wf completed

theorem rewritten_ended : WellFormed ended ∧ Rewritten
    ((.file path context, []) :: (plan elements language context).map PlannedWrite.nodeWrite)
    ((plan elements language context).map (·.edgeWrite (.file path context))) here.now before
    ended := by
  obtain ⟨created, put⟩ := completed.filed
  have file : (Identity.file path context).Proper := rfl
  have grows := (grows_moves here).upsert _ _ file _ _ _ put
  have start : Rewritten [(.file path context, [])] [] here.now before begun := by
    constructor
    · rw [upsert_known wf indexed.filed put]
      rfl
    · rw [upsert_edges put]
      exact (List.map_id _).symm
  have rewritten := completed.tried.accumulate
    (P := fun past graph => WellFormed graph ∧ Grows before graph ∧
      Rewritten ((.file path context, []) :: past.map PlannedWrite.nodeWrite)
        (past.map (·.edgeWrite (.file path context))) here.now before graph)
    (fun planned mem {past graph value next} held done => by
      obtain ⟨wf, grown, rewritten⟩ := held
      have mem := completed.planned_of_mem planned mem
      have fits := plan_fits mem
      refine ⟨(well_formed_moves here).element _ planned fits.proper _ _ _ done wf,
        (grows_moves here).trans grown (element_grows fits done), ?_⟩
      exact element_rewrites wf mem (grown.hasNode indexed.filed)
        ((indexed.held planned mem).mono grown) rewritten done)
    [] ⟨(well_formed_moves here).upsert _ _ file _ _ _ put wf, grows, start⟩
  rw [List.nil_append, succeeded_of_clean completed.written, completed.planned] at rewritten
  exact ⟨rewritten.1, rewritten.2.2⟩

/-- The second time the relationships add nothing to the elements. -/
theorem last_eq_ended : last = ended := by
  obtain ⟨wf', rewritten⟩ := completed.rewritten_ended indexed wf
  have grows : Grows before ended := by
    obtain ⟨created, put⟩ := completed.filed
    have file : (Identity.file path context).Proper := rfl
    exact (grows_moves here).trans ((grows_moves here).upsert _ _ file _ _ _ put)
      completed.elements_grow
  have placed : ∀ relationship ∈ infer elements, Placed ended language context relationship := by
    intro relationship mem
    obtain ⟨known, present, edge⟩ := indexed.placed relationship mem
    have same : targetId ended relationship.targetLabel relationship.targetName language context =
        targetId before relationship.targetLabel relationship.targetName language context :=
      Relations.target_id_map rewritten.nodes (fun node => rewritten_kept Node.id fun _ _ _ => rfl)
        fun node => rewritten_kept Node.identity fun _ _ _ => rfl
    rw [Placed, same]
    exact ⟨grows.hasNode known, grows.hasNode present, grows.edges edge⟩
  refine completed.followed.invariant (P := fun graph => graph = ended) rfl ?_
  rintro relationship mem graph created next rfl done
  rw [completed.inferred] at mem
  exact relationship_again wf' (placed relationship mem) done

end Completed

theorem completed_of_success
    (success : isSuccess (indexElements here elements path language context before).1 = true) :
    (indexElements here elements path language context before).1 =
        .ok (cleanReport elements path language context) ∧
      ∃ begun ended written related, Completed here elements path language context before begun
        ended (indexElements here elements path language context before).2 written related := by
  rcases done : indexElements here elements path language context before with ⟨error | report, last⟩
  · rw [done] at success
    cases success
  · rw [done] at success
    obtain ⟨same, completed⟩ := index_clean done success
    exact ⟨congrArg Except.ok same, completed⟩

/-- Indexing the same elements of a file again, in the language and the context of the first time
and without failures either time, gives the same report and the same graph, whatever the graph was
and whatever is repeated in the elements: no node or edge comes or goes, stubs included, and nothing
of a node changes but its time of change, which stays as well unless the clock went on. -/
theorem indexing_again_changes_nothing (steps : List Runs.Step) (elements : Elements)
    (path language context : String) (first second : Conditions) :
    let once := indexElements first elements path language context (Runs.run steps)
    let twice := indexElements second elements path language context once.2
    isSuccess once.1 = true → isSuccess twice.1 = true →
      twice.2.nodes.map Node.undated = once.2.nodes.map Node.undated ∧
      twice.2.edges = once.2.edges ∧
      (second.now ≤ first.now → twice.2 = once.2) ∧
      (∀ node ∈ twice.2.nodes, node.isStub = true → node ∈ once.2.nodes) ∧
      twice.1 = once.1 := by
  intro once twice success success'
  have wf : WellFormed once.2 := by
    have start : WellFormed (Runs.run steps) :=
      Runs.run_invariant empty_well_formed fun step _ _ kept => Runs.step_well_formed step kept
    exact (well_formed_moves first).indexes.elements elements path language context _ start
  obtain ⟨report, _, _, _, _, completed⟩ := completed_of_success success
  obtain ⟨report', _, ended, _, _, completed'⟩ := completed_of_success success'
  have indexed : Indexed elements path language context first.now once.2 := completed.indexed
  have same : twice.2 = ended := completed'.last_eq_ended indexed wf
  have rewritten := (completed'.rewritten_ended indexed wf).2
  rw [← same] at rewritten
  obtain ⟨nodes, edges, early⟩ := indexed.settled.rewritten rewritten
  refine ⟨nodes, edges, early, fun node mem marked => ?_, report'.trans report.symm⟩
  rw [rewritten.nodes] at mem
  obtain ⟨old, known, rfl⟩ := List.mem_map.mp mem
  rwa [rewritten_stub marked]

def repeating : Elements :=
  { functions := [⟨"f", "{ missing() }"⟩, ⟨"f", "{ f() }"⟩]
    imports := [⟨"time", ["sleep"]⟩, ⟨"time", ["now"]⟩] }

/-- At a later time the repeated elements leave the graph as it was, with the stub they needed. -/
theorem repeating_again :
    let once := indexElements { now := 1 } repeating "a.py" "python" "main" (Runs.run [])
    let twice := indexElements { now := 2 } repeating "a.py" "python" "main" once.2
    (∃ node ∈ once.2.nodes, node.isStub = true) ∧
      twice.2.nodes.map Node.undated = once.2.nodes.map Node.undated ∧
      twice.2.edges = once.2.edges ∧ twice.1 = once.1 := by
  obtain ⟨nodes, edges, -, -, reports⟩ := indexing_again_changes_nothing [] repeating "a.py"
    "python" "main" { now := 1 } { now := 2 } (index_elements_faultless rfl ..)
    (index_elements_faultless rfl ..)
  exact ⟨by decide +kernel, nodes, edges, reports⟩

end CodeAtlas.Indexing
