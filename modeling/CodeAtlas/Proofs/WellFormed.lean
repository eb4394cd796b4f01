import CodeAtlas.Proofs.Moves

/-! Well-formed graphs. Every run keeps ids and edges unique, edges between nodes that are there and
may be connected, and times in order. SHA-1 is not assumed to be free of collisions: two identities
with one id would share a node, and the node would still be named by the one written first. -/
namespace CodeAtlas.Graph

structure WellFormed (graph : Graph) : Prop where
  named : ∀ node ∈ graph.nodes, node.id = node.identity.id
  keyed : ∀ node ∈ graph.nodes, node.identity.Proper
  filled : ∀ node ∈ graph.nodes, node.attributes.length = node.label.attributeColumns.length
  distinct_ids : (graph.nodes.map Node.id).Nodup
  distinct_edges : (graph.edges.map Edge.ends).Nodup
  connected : ∀ edge ∈ graph.edges, ∃ source ∈ graph.nodes, ∃ target ∈ graph.nodes,
    source.id = edge.source ∧ target.id = edge.target ∧
      (source.label, target.label) ∈ edge.type.endpoints
  ordered : ∀ node ∈ graph.nodes, node.createdAt ≤ node.updatedAt

variable {here : Conditions} {graph : Graph}

theorem empty_well_formed : WellFormed .empty := by
  constructor <;> simp [empty]

theorem WellFormed.eq_of_id (h : WellFormed graph) {a b : Node} (ha : a ∈ graph.nodes)
    (hb : b ∈ graph.nodes) (eq : a.id = b.id) : a = b :=
  List.inj_on_of_nodup_map h.distinct_ids ha hb eq

theorem WellFormed.eq_of_identity (h : WellFormed graph) {a b : Node} (ha : a ∈ graph.nodes)
    (hb : b ∈ graph.nodes) (same : a.identity = b.identity) : a = b :=
  h.eq_of_id ha hb (by rw [h.named a ha, h.named b hb, same])

theorem WellFormed.distinct_identities (h : WellFormed graph) :
    (graph.nodes.map Node.identity).Nodup := by
  refine List.Nodup.of_map Identity.id ?_
  have ids : graph.nodes.map Node.id = graph.nodes.map (Identity.id ∘ Node.identity) :=
    List.map_congr_left h.named
  rw [List.map_map, ← ids]
  exact h.distinct_ids

theorem key_of_shown {node : Node} (columns : node.label.keyColumns = ["name", "language"])
    (keyed : node.identity.Proper) : node.key = [node.displayName, node.language] := by
  have two : node.key.length = 2 := keyed.trans (by simp [Node.identity, columns])
  obtain ⟨first, second, key⟩ := List.length_eq_two.mp two
  rw [Node.displayName, Node.language, Node.keyValue, columns, key]
  rfl

theorem WellFormed.addNode (h : WellFormed graph) {node : Node} (named : node.id = node.identity.id)
    (keyed : node.identity.Proper)
    (filled : node.attributes.length = node.label.attributeColumns.length)
    (ordered : node.createdAt ≤ node.updatedAt)
    (absent : graph.node? node.label node.id = none) : WellFormed (graph.addNode node) where
  named := by simpa [or_imp, forall_and] using ⟨h.named, named⟩
  keyed := by simpa [or_imp, forall_and] using ⟨h.keyed, keyed⟩
  filled := by simpa [or_imp, forall_and] using ⟨h.filled, filled⟩
  distinct_ids := by
    rw [nodes_addNode, List.map_append, List.map_cons, List.map_nil, ← List.concat_eq_append,
      List.nodup_concat]
    refine ⟨fun mem => ?_, h.distinct_ids⟩
    obtain ⟨other, known, eq⟩ := List.mem_map.mp mem
    have labels : other.label = node.label :=
      label_of_id (a := other.identity) (b := node.identity)
        ((h.named other known).symm.trans (eq.trans named))
    exact node?_eq_none.mp absent other known labels eq
  distinct_edges := h.distinct_edges
  connected edge mem := by
    obtain ⟨source, hs, target, ht, ends⟩ := h.connected edge mem
    exact ⟨source, List.mem_append_left _ hs, target, List.mem_append_left _ ht, ends⟩
  ordered := by simpa [or_imp, forall_and] using ⟨h.ordered, ordered⟩

theorem WellFormed.setNode (h : WellFormed graph) {old node : Node} {label : Label} {id : String}
    (found : graph.node? label id = some old) (same : node.identity = old.identity)
    (kept : node.id = old.id)
    (filled : node.attributes.length = node.label.attributeColumns.length)
    (ordered : node.createdAt ≤ node.updatedAt) : WellFormed (graph.setNode label id node) := by
  obtain ⟨known, rfl, rfl⟩ := node?_eq_some found
  have ids : (graph.setNode old.label old.id node).nodes.map Node.id = graph.nodes.map Node.id :=
    map_setNode Node.id fun other _ _ eq => kept.trans eq.symm
  have labels : node.label = old.label := congrArg Identity.label same
  constructor
  · intro other mem
    rcases mem_setNode mem with rfl | ⟨mem, -⟩
    · rw [kept, same, h.named old known]
    · exact h.named other mem
  · intro other mem
    rcases mem_setNode mem with rfl | ⟨mem, -⟩
    · exact same ▸ h.keyed old known
    · exact h.keyed other mem
  · intro other mem
    rcases mem_setNode mem with rfl | ⟨mem, -⟩
    · exact filled
    · exact h.filled other mem
  · rw [ids]
    exact h.distinct_ids
  · exact h.distinct_edges
  · intro edge mem
    obtain ⟨source, hs, target, ht, begins, ends, fits⟩ := h.connected edge mem
    have moved : ∀ other ∈ graph.nodes, ∃ now ∈ (graph.setNode old.label old.id node).nodes,
        now.id = other.id ∧ now.label = other.label := by
      intro other mem
      by_cases same : other.label = old.label ∧ other.id = old.id
      · exact ⟨node, mem_setNode_self found, kept.trans same.2.symm, labels.trans same.1.symm⟩
      · exact ⟨other, mem_setNode_of_ne mem same, rfl, rfl⟩
    obtain ⟨source', hs', ids, labels⟩ := moved source hs
    obtain ⟨target', ht', idt, labelt⟩ := moved target ht
    exact ⟨source', hs', target', ht', ids.trans begins, idt.trans ends, by rwa [labels, labelt]⟩
  · intro other mem
    rcases mem_setNode mem with rfl | ⟨mem, -⟩
    · exact ordered
    · exact h.ordered other mem

theorem length_attributes_overwritten (node : Node) (given : Attributes) (now : Int)
    (filled : node.attributes.length = node.label.attributeColumns.length) :
    (node.overwritten given now).attributes.length = node.label.attributeColumns.length := by
  simp [Node.overwritten, filled]

theorem WellFormed.addEdge (h : WellFormed graph) {edge : Edge}
    (connected : ∃ source ∈ graph.nodes, ∃ target ∈ graph.nodes, source.id = edge.source ∧
      target.id = edge.target ∧ (source.label, target.label) ∈ edge.type.endpoints)
    (absent : graph.edge? edge.type edge.source edge.target = none) :
    WellFormed (graph.addEdge edge) where
  named := h.named
  keyed := h.keyed
  filled := h.filled
  distinct_ids := h.distinct_ids
  distinct_edges := by
    rw [edges_addEdge, List.map_append, List.map_cons, List.map_nil, ← List.concat_eq_append,
      List.nodup_concat]
    refine ⟨fun mem => ?_, h.distinct_edges⟩
    obtain ⟨other, known, eq⟩ := List.mem_map.mp mem
    exact edge?_eq_none.mp absent other known eq
  connected other mem := by
    rcases List.mem_append.mp mem with mem | mem
    · exact h.connected other mem
    · obtain rfl := List.mem_singleton.mp mem
      exact connected
  ordered := h.ordered

theorem WellFormed.setEdge (h : WellFormed graph) {edge old : Edge} (known : old ∈ graph.edges)
    (ends : edge.ends = old.ends) : WellFormed (graph.setEdge edge) where
  named := h.named
  keyed := h.keyed
  filled := h.filled
  distinct_ids := h.distinct_ids
  distinct_edges := by
    rw [map_setEdge Edge.ends fun other _ eq => eq.symm]
    exact h.distinct_edges
  connected other mem := by
    rcases mem_setEdge mem with rfl | ⟨mem, -⟩
    · simp only [Edge.ends, Prod.mk.injEq] at ends
      rw [ends.1, ends.2.1, ends.2.2]
      exact h.connected old known
    · exact h.connected other mem
  ordered := h.ordered

theorem WellFormed.without (h : WellFormed graph) (context : String) :
    WellFormed (graph.without context) where
  named node mem := h.named node (mem_nodes_without.mp mem).1
  keyed node mem := h.keyed node (mem_nodes_without.mp mem).1
  filled node mem := h.filled node (mem_nodes_without.mp mem).1
  distinct_ids := h.distinct_ids.sublist (List.filter_sublist.map _)
  distinct_edges := h.distinct_edges.sublist (List.filter_sublist.map _)
  connected edge mem := by
    obtain ⟨mem, apart⟩ := mem_edges_without.mp mem
    obtain ⟨source, hs, target, ht, begins, ends, fits⟩ := h.connected edge mem
    exact ⟨source, mem_nodes_without.mpr ⟨hs, fun inside => (apart source hs inside).1 begins⟩,
      target, mem_nodes_without.mpr ⟨ht, fun inside => (apart target ht inside).2 ends⟩,
      begins, ends, fits⟩
  ordered node mem := h.ordered node (mem_nodes_without.mp mem).1

theorem WellFormed.joined (h : WellFormed graph) {type : EdgeType} {source target : Endpoint}
    (fits : (source.label, target.label) ∈ type.endpoints) (context : String)
    (properties : Properties) :
    WellFormed (Graph.joined here graph type source target context properties) := by
  unfold Graph.joined
  split_ifs with present
  · rw [Bool.and_eq_true, has_node_iff, has_node_iff] at present
    obtain ⟨⟨first, hf, firstLabel, firstId⟩, ⟨second, hs, secondLabel, secondId⟩⟩ := present
    cases found : graph.edge? type source.id target.id with
    | some edge => exact h.setEdge (edge?_eq_some found).1 rfl
    | none =>
      exact h.addEdge ⟨first, hf, second, hs, firstId, secondId, by rwa [firstLabel, secondLabel]⟩
        found
  · exact h

theorem well_formed_moves (here : Conditions) :
    PrimitiveMoves here fun before after => WellFormed before → WellFormed after where
  refl _ h := h
  trans first second h := second (first h)
  upsert identity given proper graph created after done h := by
    rcases upsert_cases done with ⟨absent, -, -, rfl⟩ | ⟨node, found, -, -, rfl⟩
    · exact h.addNode rfl proper (by simp [Node.created]) (Int.le_refl _) absent
    · have known := (node?_eq_some found).1
      refine h.setNode found rfl rfl ?_ ?_
      · exact length_attributes_overwritten node given here.now (h.filled node known)
      · exact (h.ordered node known).trans (le_max_right _ _)
  ensure identity proper graph created after done h := by
    rcases ensure_cases done with ⟨-, -, rfl⟩ | ⟨absent, -, -, rfl⟩
    · exact h
    · refine h.addNode rfl proper (by simp [Node.stub]) (Int.le_refl _) ?_
      exact Option.isSome_eq_false_iff.mp absent |> Option.isNone_iff_eq_none.mp
  link type source target context properties graph value after done h := by
    obtain ⟨fits, -, -, rfl⟩ := link_cases done
    exact h.joined fits context properties

end CodeAtlas.Graph

namespace CodeAtlas.Runs

open CodeAtlas.Graph

theorem step_well_formed (step : Step) {graph : Graph} (h : WellFormed graph) :
    WellFormed (step.after graph) :=
  (well_formed_moves step.here).operation (fun _ context kept => kept.without context)
    step.operation graph h

/-- After any run, under any faults and clocks, the graph is well-formed, and at most one node has a
given label, key and context. -/
theorem run_well_formed (steps : List Step) :
    WellFormed (run steps) ∧ ((run steps).nodes.map Node.identity).Nodup := by
  have h : WellFormed (run steps) :=
    run_invariant empty_well_formed fun step _ _ kept => step_well_formed step kept
  exact ⟨h, h.distinct_identities⟩

end CodeAtlas.Runs
