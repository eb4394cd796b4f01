import CodeAtlas.Proofs.Graph.Effects
import CodeAtlas.Proofs.Moves

/-! Growth: as long as no context is removed, every node stays findable and every edge keeps its
ends. With that, what a successful write puts into the graph is still there at the end of a
batch. -/
namespace CodeAtlas.Graph

/-- By what a node is looked up. -/
def Node.place (node : Node) : Label × String := (node.label, node.id)

structure Grows (before after : Graph) : Prop where
  places : before.nodes.map Node.place ⊆ after.nodes.map Node.place
  edges : before.edges.map Edge.ends ⊆ after.edges.map Edge.ends

variable {here : Conditions} {graph after : Graph}

theorem has_node_iff_place {label : Label} {id : String} :
    graph.hasNode label id = true ↔ (label, id) ∈ graph.nodes.map Node.place := by
  simp [has_node_iff, Node.place]

theorem Grows.hasNode (grows : Grows graph after) {label : Label} {id : String}
    (h : graph.hasNode label id = true) : after.hasNode label id = true :=
  has_node_iff_place.mpr (grows.places (has_node_iff_place.mp h))

theorem grows_addNode (node : Node) : Grows graph (graph.addNode node) where
  places := by simp
  edges := List.Subset.refl _

theorem places_setNode {label : Label} {id : String} {node : Node} (h : node.place = (label, id)) :
    (graph.setNode label id node).nodes.map Node.place = graph.nodes.map Node.place := by
  refine map_setNode Node.place fun old _ labels ids => ?_
  rw [h, Node.place, labels, ids]

theorem grows_joined (type : EdgeType) (source target : Endpoint) (context : String)
    (properties : Properties) :
    Grows graph (joined here graph type source target context properties) where
  places := by
    rw [nodes_joined]
    exact List.Subset.refl _
  edges _ mem := mem_ends_joined.mpr (.inl mem)

theorem grows_moves (here : Conditions) : PrimitiveMoves here Grows where
  refl graph := ⟨List.Subset.refl _, List.Subset.refl _⟩
  trans first second := ⟨List.Subset.trans first.places second.places,
    List.Subset.trans first.edges second.edges⟩
  upsert identity given _ graph created after done := by
    rcases upsert_cases done with ⟨-, -, -, rfl⟩ | ⟨node, found, -, -, rfl⟩
    · exact grows_addNode _
    · obtain ⟨-, labels, ids⟩ := node?_eq_some found
      refine ⟨?_, List.Subset.refl _⟩
      rw [places_setNode (by rw [Node.place, ← labels, ← ids]; rfl)]
      exact List.Subset.refl _
  ensure identity _ graph created after done := by
    rcases ensure_cases done with ⟨-, -, rfl⟩ | ⟨-, -, -, rfl⟩
    · exact ⟨List.Subset.refl _, List.Subset.refl _⟩
    · exact grows_addNode _
  link type source target context properties graph value after done := by
    obtain ⟨-, -, -, rfl⟩ := link_cases done
    exact grows_joined type source target context properties

end CodeAtlas.Graph
