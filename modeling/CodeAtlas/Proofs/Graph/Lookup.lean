import CodeAtlas.Graph.Store
import Mathlib.Data.List.Nodup
import Mathlib.Tactic.Tauto

/-! Looking nodes and edges up, and how the four ways to change a graph act on what is found.
Membership in the two lists is the view through which everything else is stated. -/
namespace CodeAtlas.Graph

def Edge.ends (edge : Edge) : EdgeType × String × String := (edge.type, edge.source, edge.target)

def edgesWith (graph : Graph) (type : EdgeType) (context : String) : List Edge :=
  graph.edges.filter fun edge => edge.type = type && edge.context = context

theorem Label.mem_all (label : Label) : label ∈ Label.all := by
  cases label <;> simp [Label.all]

theorem EdgeType.mem_all (type : EdgeType) : type ∈ EdgeType.all := by
  cases type <;> simp [EdgeType.all]

variable {graph : Graph} {label : Label} {id : String} {node other : Node}

theorem eq_of_lists {before after : Graph} (nodes : after.nodes = before.nodes)
    (edges : after.edges = before.edges) : after = before := by
  cases before
  cases after
  obtain rfl := nodes
  obtain rfl := edges
  rfl

theorem mem_nodesWith {context : String} :
    node ∈ graph.nodesWith label context ↔
      node ∈ graph.nodes ∧ node.label = label ∧ node.context = context := by
  simp [nodesWith]

theorem mem_edgesWith {type : EdgeType} {context : String} {edge : Edge} :
    edge ∈ graph.edgesWith type context ↔
      edge ∈ graph.edges ∧ edge.type = type ∧ edge.context = context := by
  simp [edgesWith]

theorem node?_eq_some (h : graph.node? label id = some node) :
    node ∈ graph.nodes ∧ node.label = label ∧ node.id = id := by
  have found := List.find?_some h
  simp only [Bool.and_eq_true, decide_eq_true_eq] at found
  exact ⟨List.mem_of_find?_eq_some h, found⟩

theorem node?_eq_none :
    graph.node? label id = none ↔ ∀ node ∈ graph.nodes, node.label = label → node.id ≠ id := by
  simp [node?, List.find?_eq_none]

theorem has_node_iff :
    graph.hasNode label id = true ↔ ∃ node ∈ graph.nodes, node.label = label ∧ node.id = id := by
  simp [hasNode, node?, List.find?_isSome]

theorem edge?_eq_some {type : EdgeType} {source target : String} {edge : Edge}
    (h : graph.edge? type source target = some edge) :
    edge ∈ graph.edges ∧ edge.ends = (type, source, target) := by
  have found := List.find?_some h
  simp only [Bool.and_eq_true, decide_eq_true_eq] at found
  refine ⟨List.mem_of_find?_eq_some h, ?_⟩
  simp [Edge.ends, found.1.1, found.1.2, found.2]

theorem edge?_eq_none {type : EdgeType} {source target : String} :
    graph.edge? type source target = none ↔
      ∀ edge ∈ graph.edges, edge.ends ≠ (type, source, target) := by
  simp [edge?, List.find?_eq_none, Edge.ends]

@[simp] theorem nodes_addNode : (graph.addNode node).nodes = graph.nodes ++ [node] := rfl

@[simp] theorem edges_addNode : (graph.addNode node).edges = graph.edges := rfl

@[simp] theorem nodes_addEdge {edge : Edge} : (graph.addEdge edge).nodes = graph.nodes := rfl

@[simp] theorem edges_addEdge {edge : Edge} :
    (graph.addEdge edge).edges = graph.edges ++ [edge] := rfl

@[simp] theorem edges_setNode : (graph.setNode label id node).edges = graph.edges := rfl

@[simp] theorem nodes_setEdge {edge : Edge} : (graph.setEdge edge).nodes = graph.nodes := rfl

theorem mem_addNode_self : node ∈ (graph.addNode node).nodes := by simp

theorem mem_setNode (h : other ∈ (graph.setNode label id node).nodes) :
    other = node ∨ (other ∈ graph.nodes ∧ ¬ (other.label = label ∧ other.id = id)) := by
  obtain ⟨old, mem, eq⟩ := List.mem_map.mp h
  by_cases hit : old.label = label ∧ old.id = id
  · rw [if_pos (by simpa using hit)] at eq
    exact .inl eq.symm
  · rw [if_neg (by simpa using hit)] at eq
    exact .inr (eq ▸ ⟨mem, hit⟩)

theorem mem_setNode_of_ne (h : other ∈ graph.nodes) (ne : ¬ (other.label = label ∧ other.id = id)) :
    other ∈ (graph.setNode label id node).nodes := by
  refine List.mem_map.mpr ⟨other, h, ?_⟩
  rw [if_neg (by simpa using ne)]

theorem mem_setNode_self (h : graph.node? label id = some other) :
    node ∈ (graph.setNode label id node).nodes := by
  obtain ⟨mem, rfl, rfl⟩ := node?_eq_some h
  exact List.mem_map.mpr ⟨other, mem, by simp⟩

theorem map_setNode {β : Type} (f : Node → β)
    (same : ∀ old ∈ graph.nodes, old.label = label → old.id = id → f node = f old) :
    (graph.setNode label id node).nodes.map f = graph.nodes.map f := by
  rw [setNode, List.map_map]
  refine List.map_congr_left fun old mem => ?_
  by_cases hit : old.label = label ∧ old.id = id
  · simpa [hit] using same old mem hit.1 hit.2
  · rw [Function.comp_apply, if_neg (by simpa using hit)]

theorem ends_eq_iff {edge old : Edge} :
    (old.type = edge.type && old.source = edge.source && old.target = edge.target) = true ↔
      old.ends = edge.ends := by
  simp [Edge.ends, and_assoc]

theorem mem_setEdge {edge old : Edge} (h : old ∈ (graph.setEdge edge).edges) :
    old = edge ∨ (old ∈ graph.edges ∧ old.ends ≠ edge.ends) := by
  obtain ⟨was, mem, eq⟩ := List.mem_map.mp h
  by_cases hit : was.ends = edge.ends
  · rw [if_pos (ends_eq_iff.mpr hit)] at eq
    exact .inl eq.symm
  · rw [if_neg (mt ends_eq_iff.mp hit)] at eq
    exact .inr (eq ▸ ⟨mem, hit⟩)

theorem map_setEdge {β : Type} (f : Edge → β) {edge : Edge}
    (same : ∀ old ∈ graph.edges, old.ends = edge.ends → f edge = f old) :
    (graph.setEdge edge).edges.map f = graph.edges.map f := by
  rw [setEdge, List.map_map]
  refine List.map_congr_left fun old mem => ?_
  by_cases hit : old.ends = edge.ends
  · rw [Function.comp_apply, if_pos (ends_eq_iff.mpr hit)]
    exact same old mem hit
  · rw [Function.comp_apply, if_neg (mt ends_eq_iff.mp hit)]

theorem mem_nodes_without {context : String} :
    node ∈ (graph.without context).nodes ↔ node ∈ graph.nodes ∧ node.context ≠ context := by
  simp [without]

theorem mem_edges_without {context : String} {edge : Edge} :
    edge ∈ (graph.without context).edges ↔ edge ∈ graph.edges ∧
      ∀ node ∈ graph.nodes, node.context = context →
        node.id ≠ edge.source ∧ node.id ≠ edge.target := by
  simp only [without, nodesOf, List.mem_filter, Bool.and_eq_true, Bool.not_eq_true',
    List.contains_eq_mem, decide_eq_false_iff_not, List.mem_map, decide_eq_true_eq]
  constructor
  · rintro ⟨mem, source, target⟩
    exact ⟨mem, fun node known inside =>
      ⟨fun eq => source ⟨node, ⟨known, inside⟩, eq⟩, fun eq => target ⟨node, ⟨known, inside⟩, eq⟩⟩⟩
  · rintro ⟨mem, apart⟩
    refine ⟨mem, ?_, ?_⟩
    · rintro ⟨node, ⟨known, inside⟩, eq⟩
      exact (apart node known inside).1 eq
    · rintro ⟨node, ⟨known, inside⟩, eq⟩
      exact (apart node known inside).2 eq

end CodeAtlas.Graph
