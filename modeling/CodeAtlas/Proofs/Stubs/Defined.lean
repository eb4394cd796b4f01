import CodeAtlas.Proofs.Indexing.Itemised

/-! Nodes that were written and are not just referred to. As long as no context is removed, a
defined node stays defined and whatever ended at it, or at the stub it was, still ends there; and
the sources of the relationships that indexing writes are defined before it writes them. -/
namespace CodeAtlas.Graph

variable {here : Conditions} {graph after : Graph} {label : Label} {id : String}
  {identity : Identity} {given : Attributes}

/-- The node was written and is no stub. -/
def Defined (graph : Graph) (label : Label) (id : String) : Prop :=
  ∃ node ∈ graph.nodes, node.label = label ∧ node.id = id ∧ node.isStub = false

structure Endures (before after : Graph) : Prop extends Grows before after where
  defined : ∀ {label id}, Defined before label id → Defined after label id

theorem Defined.hasNode (h : Defined graph label id) : graph.hasNode label id = true := by
  obtain ⟨node, mem, labels, ids, -⟩ := h
  exact has_node_iff.mpr ⟨node, mem, labels, ids⟩

theorem Defined.of_nodes (h : Defined graph label id) (nodes : graph.nodes ⊆ after.nodes) :
    Defined after label id := by
  obtain ⟨node, mem, is⟩ := h
  exact ⟨node, nodes mem, is⟩

theorem Defined.setNode (h : Defined graph label id) {node : Node} {label' : Label} {id' : String}
    (found : graph.node? label' id' = some node) (given : Attributes) (now : Int) :
    Defined (graph.setNode label' id' (node.overwritten given now)) label id := by
  obtain ⟨other, mem, rfl, rfl, written⟩ := h
  obtain ⟨-, labels, ids⟩ := node?_eq_some found
  by_cases hit : other.label = label' ∧ other.id = id'
  · exact ⟨_, mem_setNode_self found, labels.trans hit.1.symm, ids.trans hit.2.symm, rfl⟩
  · exact ⟨other, mem_setNode_of_ne mem hit, rfl, rfl, written⟩

theorem upsert_defined {created : Bool}
    (h : upsert here identity given graph = .ok (created, after)) :
    Defined after identity.label identity.id := by
  rcases upsert_cases h with ⟨-, -, -, rfl⟩ | ⟨node, found, -, -, rfl⟩
  · exact ⟨_, mem_addNode_self, rfl, rfl, rfl⟩
  · obtain ⟨-, labels, ids⟩ := node?_eq_some found
    exact ⟨_, mem_setNode_self found, labels, ids, rfl⟩

theorem endures_addNode (node : Node) : Endures graph (graph.addNode node) :=
  { grows_addNode node with
    defined := fun h => h.of_nodes (List.subset_append_left _ _) }

theorem endures_joined (type : EdgeType) (source target : Endpoint) (context : String)
    (properties : Properties) :
    Endures graph (joined here graph type source target context properties) :=
  { grows_joined type source target context properties with
    defined := fun h => h.of_nodes (by rw [nodes_joined]; exact List.Subset.refl _) }

theorem endures_moves (here : Conditions) : PrimitiveMoves here Endures where
  refl graph := { (grows_moves here).refl graph with defined := id }
  trans first second :=
    { (grows_moves here).trans first.toGrows second.toGrows with
      defined := fun h => second.defined (first.defined h) }
  upsert identity given proper graph created after done := by
    have grows := (grows_moves here).upsert identity given proper graph created after done
    rcases upsert_cases done with ⟨-, -, -, rfl⟩ | ⟨node, found, -, -, rfl⟩
    · exact endures_addNode _
    · exact { grows with defined := fun h => h.setNode found given here.now }
  link type source target context properties graph value after done := by
    obtain ⟨-, -, -, rfl⟩ := link_cases done
    exact endures_joined type source target context properties
  ensure identity proper graph created after done :=
    { (grows_moves here).ensure identity proper graph created after done with
      defined := fun h => h.of_nodes (ensure_keeps_nodes done) }

theorem defined_of_tried {α β : Type} {write : α → Write β} {results : List (α × Except Error β)}
    {last : Graph} (identityOf : α → Identity) (tried : Tried write graph results last)
    (step : ∀ item ∈ results.map Prod.fst, ∀ {graph value next},
      write item graph = .ok (value, next) → Endures graph next ∧
        Defined next (identityOf item).label (identityOf item).id) :
    ∀ item ∈ succeeded results, Defined last (identityOf item).label (identityOf item).id := by
  intro item mem
  obtain ⟨value, mem⟩ := mem_succeeded.mp mem
  refine tried.result (I := fun _ => True)
    (P := fun item _ graph => Defined graph (identityOf item).label (identityOf item).id)
    trivial ?_ ?_ mem
  · exact fun item mem {_ _ _} _ done => ⟨trivial, (step item mem done).2⟩
  · exact fun item mem {_ _ _} _ _ held done => (step item mem done).1.defined held

end CodeAtlas.Graph

namespace CodeAtlas.Indexing

open CodeAtlas.Graph
open CodeAtlas.Relations (Relationship infer writeRelationship)
open CodeAtlas.Source (Elements)

variable {here : Conditions} {graph next last : Graph} {path language context : String}

theorem element_defined {file : Identity} {planned : PlannedWrite} (fits : planned.Fits context)
    (h : writeElement here file planned graph = .ok ((), next)) :
    Endures graph next ∧ Defined next planned.identity.label planned.identity.id := by
  refine ⟨(endures_moves here).element file planned fits.proper _ _ _ h, ?_⟩
  obtain ⟨created, middle, put, linked⟩ := write_bind h
  exact ((endures_moves here).link _ _ _ _ _ _ _ _ linked).defined (upsert_defined put)

theorem function_defined {function : LooseFunction}
    (h : writeFunction here language context function graph = .ok ((), next)) :
    Endures graph next ∧ Defined next .function
      (Identity.named .function function.name language context).id := by
  refine ⟨(endures_moves here).function language context function _ _ _ h, ?_⟩
  obtain ⟨created, middle, put, rest⟩ := write_bind h
  refine Endures.defined ?_ (upsert_defined put)
  by_cases loose : function.path.getD "" = ""
  · rw [if_pos loose] at rest
    exact (endures_moves here).write_pure () _ _ _ rest
  · rw [if_neg loose] at rest
    have file : (Identity.file (function.path.getD "") context).Proper := rfl
    obtain ⟨created', middle', put', linked⟩ := write_bind rest
    exact (endures_moves here).trans ((endures_moves here).upsert _ _ file _ _ _ put')
      ((endures_moves here).link _ _ _ _ _ _ _ _ linked)

/-- The source of every relationship that a file's elements lead to is defined. -/
theorem sources_defined {elements : Elements} {written : List (PlannedWrite × Except Error Unit)}
    {file : Identity} (tried : Tried (writeElement here file) graph written last)
    (planned : written.map Prod.fst = plan elements language context) {relationship : Relationship}
    (h : relationship ∈ infer (spared written elements)) :
    Defined last relationship.sourceLabel (relationship.source language context).id := by
  obtain ⟨write, mem, source, label⟩ := source_written planned h
  rw [← source, ← label]
  refine defined_of_tried PlannedWrite.identity tried (fun write mem {_ _ _} done => ?_) write mem
  rw [planned] at mem
  exact element_defined (plan_fits mem) done

theorem functions_defined {written : List (LooseFunction × Except Error Unit)}
    (tried : Tried (writeFunction here language context) graph written last) :
    ∀ function ∈ succeeded written, Defined last .function
      (Identity.named .function function.name language context).id := by
  have step : ∀ function ∈ written.map Prod.fst, ∀ {graph value next},
      writeFunction here language context function graph = .ok (value, next) →
        Endures graph next ∧ Defined next
          (Identity.named .function function.name language context).label
          (Identity.named .function function.name language context).id :=
    fun _ _ _ _ _ done => function_defined done
  exact defined_of_tried (fun function : LooseFunction =>
    Identity.named .function function.name language context) tried step

theorem loose_sources_defined {functions : List LooseFunction}
    {written : List (LooseFunction × Except Error Unit)}
    (tried : Tried (writeFunction here language context) graph written last)
    (items : written.map Prod.fst = functions) {relationship : Relationship}
    (h : relationship ∈ infer (looseElements
      (writtenFunctions (looseReportOf context written) functions))) :
    Defined last relationship.sourceLabel (relationship.source language context).id := by
  obtain ⟨function, mem, source, label⟩ := loose_source_written language items h
  rw [← source, label]
  exact functions_defined tried function mem

/-! What the sessions define. -/

theorem related_endures (elements : Elements) (graph : Graph) :
    Endures graph (tryRelated here elements language context graph).2 := by
  have endures := (endures_moves here).indexes.extract elements language context graph
  rwa [extract_apply] at endures

theorem elements_endure {elements : Elements} {created : Bool} {begun : Graph}
    {planned : PlannedWrite}
    (put : upsert here (.file path context) [] graph = .ok (created, begun))
    (mem : planned ∈ succeeded (tryPlan here elements path language context begun).1) :
    Endures graph (indexElements here elements path language context graph).2 ∧
      Defined (indexElements here elements path language context graph).2 planned.identity.label
        planned.identity.id := by
  refine ⟨(endures_moves here).indexes.elements elements path language context graph, ?_⟩
  rw [index_elements_apply, put]
  refine (related_endures _ _).defined ?_
  refine defined_of_tried PlannedWrite.identity (tried_tryAll _ _ _)
    (fun write mem {_ _ _} done => ?_) planned mem
  rw [items_tryAll] at mem
  exact element_defined (plan_fits mem) done

theorem functions_endure {functions : List LooseFunction} {function : LooseFunction}
    (mem : function ∈ succeeded (tryAll (writeFunction here language context) functions graph).1) :
    Endures graph (indexFunctions here functions language context graph).2 ∧
      Defined (indexFunctions here functions language context graph).2 .function
        (Identity.named .function function.name language context).id := by
  refine ⟨(endures_moves here).indexes.functions functions language context graph, ?_⟩
  rw [index_functions_apply]
  exact (related_endures _ _).defined (functions_defined (tried_tryAll _ _ _) function mem)

end CodeAtlas.Indexing
