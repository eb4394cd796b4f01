import CodeAtlas.Proofs.WellFormed

/-! Confined graphs. An edge belongs to the context of the nodes at its ends, and every node was
named by an identity that occurs, so an id leads into one context only. -/
namespace CodeAtlas.Graph

/-- A well-formed graph of nodes with known identities, in which no edge leaves its context. -/
structure Confined (known : List Identity) (graph : Graph) : Prop where
  wellFormed : WellFormed graph
  occurs : ∀ node ∈ graph.nodes, node.identity ∈ known
  joined : ∀ edge ∈ graph.edges, ∀ node ∈ graph.nodes,
    node.id = edge.source ∨ node.id = edge.target → node.context = edge.context

variable {known : List Identity} {graph : Graph}

theorem empty_confined (known : List Identity) : Confined known .empty where
  wellFormed := empty_well_formed
  occurs := by simp [empty]
  joined := by simp [empty]

/-- With collisions excluded a node is the one its id names. -/
theorem Confined.identity_of_id (h : Confined known graph) (free : CollisionFree known)
    {node : Node} (mem : node ∈ graph.nodes) {identity : Identity} (occurs : identity ∈ known)
    (id : node.id = identity.id) : node.identity = identity :=
  free.eq_of_id (h.occurs node mem) occurs ((h.wellFormed.named node mem).symm.trans id)

theorem Confined.context_of_id (h : Confined known graph) (free : CollisionFree known) {node : Node}
    (mem : node ∈ graph.nodes) {identity : Identity} (occurs : identity ∈ known)
    (id : node.id = identity.id) : node.context = identity.context :=
  congrArg Identity.context (h.identity_of_id free mem occurs id)

theorem Confined.ends (h : Confined known graph) {edge : Edge} (mem : edge ∈ graph.edges) :
    ∃ source ∈ graph.nodes, ∃ target ∈ graph.nodes,
      source.id = edge.source ∧ target.id = edge.target ∧
      source.context = edge.context ∧ target.context = edge.context := by
  obtain ⟨source, hs, target, ht, begins, ends, -⟩ := h.wellFormed.connected edge mem
  exact ⟨source, hs, target, ht, begins, ends, h.joined edge mem source hs (.inl begins),
    h.joined edge mem target ht (.inr ends)⟩

theorem Confined.same_context (h : Confined known graph) {edge : Edge} (mem : edge ∈ graph.edges)
    {source target : Node} (hs : source ∈ graph.nodes) (ht : target ∈ graph.nodes)
    (begins : source.id = edge.source) (ends : target.id = edge.target) :
    source.context = edge.context ∧ target.context = edge.context :=
  ⟨h.joined edge mem source hs (.inl begins), h.joined edge mem target ht (.inr ends)⟩

theorem Confined.addNode (h : Confined known graph) (free : CollisionFree known) {node : Node}
    (wellFormed : WellFormed (graph.addNode node)) (occurs : node.identity ∈ known) :
    Confined known (graph.addNode node) where
  wellFormed := wellFormed
  occurs := by simpa [or_imp, forall_and] using ⟨h.occurs, occurs⟩
  joined edge mem other inside at_end := by
    rcases List.mem_append.mp inside with inside | inside
    · exact h.joined edge mem other inside at_end
    · obtain rfl := List.mem_singleton.mp inside
      have id := wellFormed.named other mem_addNode_self
      obtain ⟨source, hs, target, ht, begins, ends, sourceIn, targetIn⟩ := h.ends mem
      rcases at_end with at_end | at_end
      · rw [← sourceIn]
        exact (h.context_of_id free hs occurs (begins.trans (at_end.symm.trans id))).symm
      · rw [← targetIn]
        exact (h.context_of_id free ht occurs (ends.trans (at_end.symm.trans id))).symm

theorem Confined.setNode (h : Confined known graph) {label : Label} {id : String} {old node : Node}
    (wellFormed : WellFormed (graph.setNode label id node))
    (found : graph.node? label id = some old) (same : node.identity = old.identity)
    (kept : node.id = old.id) : Confined known (graph.setNode label id node) where
  wellFormed := wellFormed
  occurs other mem := by
    rcases mem_setNode mem with rfl | ⟨mem, -⟩
    · exact same ▸ h.occurs old (node?_eq_some found).1
    · exact h.occurs other mem
  joined edge mem other inside at_end := by
    rcases mem_setNode inside with rfl | ⟨inside, -⟩
    · rw [show other.context = old.context from congrArg Identity.context same]
      exact h.joined edge mem old (node?_eq_some found).1 (kept ▸ at_end)
    · exact h.joined edge mem other inside at_end

theorem Confined.addEdge (h : Confined known graph) (free : CollisionFree known) {edge : Edge}
    (wellFormed : WellFormed (graph.addEdge edge)) {source target : Identity}
    (hs : source ∈ known) (ht : target ∈ known) (begins : edge.source = source.id)
    (ends : edge.target = target.id) (sourceIn : source.context = edge.context)
    (targetIn : target.context = edge.context) : Confined known (graph.addEdge edge) where
  wellFormed := wellFormed
  occurs := h.occurs
  joined other mem node inside at_end := by
    rcases List.mem_append.mp mem with mem | mem
    · exact h.joined other mem node inside at_end
    · obtain rfl := List.mem_singleton.mp mem
      rcases at_end with at_end | at_end
      · exact (h.context_of_id free inside hs (at_end.trans begins)).trans sourceIn
      · exact (h.context_of_id free inside ht (at_end.trans ends)).trans targetIn

theorem Confined.setEdge (h : Confined known graph) {old edge : Edge}
    (wellFormed : WellFormed (graph.setEdge edge)) (mem : old ∈ graph.edges)
    (ends : edge.ends = old.ends) (context : edge.context = old.context) :
    Confined known (graph.setEdge edge) where
  wellFormed := wellFormed
  occurs := h.occurs
  joined other known node inside at_end := by
    rcases mem_setEdge known with rfl | ⟨known, -⟩
    · simp only [Edge.ends, Prod.mk.injEq] at ends
      rw [context]
      exact h.joined old mem node inside (ends.2.1 ▸ ends.2.2 ▸ at_end)
    · exact h.joined other known node inside at_end

theorem Confined.without (h : Confined known graph) (context : String) :
    Confined known (graph.without context) where
  wellFormed := h.wellFormed.without context
  occurs node mem := h.occurs node (mem_nodes_without.mp mem).1
  joined edge mem node inside :=
    h.joined edge (mem_edges_without.mp mem).1 node (mem_nodes_without.mp inside).1

end CodeAtlas.Graph
