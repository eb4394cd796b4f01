import CodeAtlas.Proofs.Isolation.Confined
import Mathlib.Algebra.BigOperators.Group.List.Basic
import Mathlib.Data.List.Find

/-! The part of a context. What an operation in a context can see are the rows of that context,
table by table; two graphs with the same rows answer the same lookups, and a write moves both alike
while all other rows stay where they are. -/
namespace CodeAtlas.Graph

/-- Two graphs hold the same rows of a context, in the same order within each table. -/
structure AgreeOn (context : String) (graph other : Graph) : Prop where
  nodes : ∀ label, graph.nodesWith label context = other.nodesWith label context
  edges : ∀ type, graph.edgesWith type context = other.edgesWith type context

/-- Everything outside of a context is as it was. -/
structure Spares (context : String) (before after : Graph) : Prop where
  nodes : after.nodes.filter (fun node => node.context ≠ context) =
    before.nodes.filter fun node => node.context ≠ context
  edges : after.edges.filter (fun edge => edge.context ≠ context) =
    before.edges.filter fun edge => edge.context ≠ context

variable {context : String} {graph other : Graph} {label : Label} {id : String}

theorem Spares.refl (context : String) (graph : Graph) : Spares context graph graph := ⟨rfl, rfl⟩

theorem Spares.trans {first second third : Graph} (h : Spares context first second)
    (rest : Spares context second third) : Spares context first third :=
  ⟨rest.nodes.trans h.nodes, rest.edges.trans h.edges⟩

theorem Spares.agreeOn {before after : Graph} (h : Spares context before after)
    {elsewhere : String} (apart : elsewhere ≠ context) : AgreeOn elsewhere before after where
  nodes label := by
    have rows : ∀ graph : Graph, graph.nodesWith label elsewhere =
        (graph.nodes.filter fun node => node.context ≠ context).filter fun node =>
          node.label = label && node.context = elsewhere := by
      intro graph
      rw [nodesWith, List.filter_filter]
      refine List.filter_congr fun node _ => ?_
      by_cases inside : node.context = elsewhere
      · simp [inside, apart]
      · simp [inside]
    rw [rows, rows, h.nodes]
  edges type := by
    have rows : ∀ graph : Graph, graph.edgesWith type elsewhere =
        (graph.edges.filter fun edge => edge.context ≠ context).filter fun edge =>
          edge.type = type && edge.context = elsewhere := by
      intro graph
      rw [edgesWith, List.filter_filter]
      refine List.filter_congr fun edge _ => ?_
      by_cases inside : edge.context = elsewhere
      · simp [inside, apart]
      · simp [inside]
    rw [rows, rows, h.edges]

/-! Lookups. -/

/-- An id that leads into one context only is looked up among the rows of that context. -/
theorem node?_inside
    (inside : ∀ node ∈ graph.nodes, node.id = id → node.context = context) :
    graph.node? label id = (graph.nodesWith label context).find? fun node => node.id = id := by
  rw [nodesWith, List.find?_filter, node?]
  refine List.find?_congr fun node mem => ?_
  by_cases same : node.id = id
  · simp [inside node mem same, same]
  · simp [same]

theorem edge?_inside {type : EdgeType} {source target : String}
    (inside : ∀ edge ∈ graph.edges, edge.ends = (type, source, target) → edge.context = context) :
    graph.edge? type source target = (graph.edgesWith type context).find? fun edge =>
      edge.source = source && edge.target = target := by
  rw [edgesWith, List.find?_filter, edge?]
  refine List.find?_congr fun edge mem => ?_
  by_cases same : edge.ends = (type, source, target)
  · have within := inside edge mem same
    simp only [Edge.ends, Prod.mk.injEq] at same
    simp [within, same]
  · simp only [Edge.ends, Prod.mk.injEq, not_and] at same
    by_cases types : edge.type = type
    · by_cases sources : edge.source = source
      · simp [same types sources]
      · simp [sources]
    · simp [types]

theorem AgreeOn.node? (agree : AgreeOn context graph other)
    (inside : ∀ node ∈ graph.nodes, node.id = id → node.context = context)
    (inside' : ∀ node ∈ other.nodes, node.id = id → node.context = context) :
    graph.node? label id = other.node? label id := by
  rw [node?_inside inside, node?_inside inside', agree.nodes]

theorem AgreeOn.edge? (agree : AgreeOn context graph other) {type : EdgeType}
    {source target : String}
    (inside : ∀ edge ∈ graph.edges, edge.ends = (type, source, target) → edge.context = context)
    (inside' : ∀ edge ∈ other.edges, edge.ends = (type, source, target) → edge.context = context) :
    graph.edge? type source target = other.edge? type source target := by
  rw [edge?_inside inside, edge?_inside inside', agree.edges]

/-! Writes. -/

theorem filter_replace {α : Type} {p hit : α → Bool} {new : α} {xs : List α}
    (same : ∀ x ∈ xs, hit x → p new = p x) :
    (xs.map fun x => if hit x then new else x).filter p =
      (xs.filter p).map fun x => if hit x then new else x := by
  rw [List.filter_map]
  refine congrArg (List.map _) (List.filter_congr fun x mem => ?_)
  by_cases h : hit x
  · simp [h, same x mem h]
  · simp [h]

theorem filter_replace_apart {α : Type} {p hit : α → Bool} {new : α} {xs : List α}
    (apart : ∀ x ∈ xs, hit x → p new = false ∧ p x = false) :
    (xs.map fun x => if hit x then new else x).filter p = xs.filter p := by
  rw [filter_replace fun x mem h => (apart x mem h).1.trans (apart x mem h).2.symm]
  refine List.map_congr_left (g := id) (fun x mem => ?_) |>.trans (List.map_id _)
  obtain ⟨mem, kept⟩ := List.mem_filter.mp mem
  have missed : ¬ hit x = true := fun h => by simp [(apart x mem h).2] at kept
  simp [missed]

theorem AgreeOn.addNode (agree : AgreeOn context graph other) (node : Node) :
    AgreeOn context (graph.addNode node) (other.addNode node) where
  nodes label := by
    have rows := agree.nodes label
    simp only [nodesWith] at rows
    simp only [nodesWith, nodes_addNode, List.filter_append, rows]
  edges := agree.edges

theorem spares_addNode {node : Node} (inside : node.context = context) :
    Spares context graph (graph.addNode node) where
  nodes := by simp [inside]
  edges := rfl

/-- The rows that a replacement meets are rows of the same table. -/
def SameTable (graph : Graph) (label : Label) (id : String) (node : Node) : Prop :=
  ∀ old ∈ graph.nodes, old.label = label → old.id = id →
    old.label = node.label ∧ old.context = node.context

theorem nodesWith_setNode {node : Node} (same : SameTable graph label id node)
    (table : Label) (context : String) :
    (graph.setNode label id node).nodesWith table context =
      (graph.nodesWith table context).map fun old =>
        if old.label = label && old.id = id then node else old := by
  refine filter_replace fun old mem hit => ?_
  obtain ⟨labels, ids⟩ : old.label = label ∧ old.id = id := by simpa using hit
  obtain ⟨labels, contexts⟩ := same old mem labels ids
  rw [labels, contexts]

theorem AgreeOn.setNode (agree : AgreeOn context graph other) {node : Node}
    (same : SameTable graph label id node) (same' : SameTable other label id node) :
    AgreeOn context (graph.setNode label id node) (other.setNode label id node) where
  nodes table := by rw [nodesWith_setNode same, nodesWith_setNode same', agree.nodes]
  edges := agree.edges

theorem spares_setNode {node : Node} (same : SameTable graph label id node)
    (inside : node.context = context) : Spares context graph (graph.setNode label id node) where
  nodes := by
    refine filter_replace_apart fun old mem hit => ?_
    obtain ⟨labels, ids⟩ : old.label = label ∧ old.id = id := by simpa using hit
    simp [(same old mem labels ids).2, inside]
  edges := rfl

theorem AgreeOn.addEdge (agree : AgreeOn context graph other) (edge : Edge) :
    AgreeOn context (graph.addEdge edge) (other.addEdge edge) where
  nodes := agree.nodes
  edges type := by
    have rows := agree.edges type
    simp only [edgesWith] at rows
    simp only [edgesWith, edges_addEdge, List.filter_append, rows]

theorem spares_addEdge {edge : Edge} (inside : edge.context = context) :
    Spares context graph (graph.addEdge edge) where
  nodes := rfl
  edges := by simp [inside]

theorem edgesWith_setEdge {edge : Edge}
    (same : ∀ old ∈ graph.edges, old.ends = edge.ends → old.context = edge.context)
    (table : EdgeType) (context : String) :
    (graph.setEdge edge).edgesWith table context =
      (graph.edgesWith table context).map fun old =>
        if old.type = edge.type && old.source = edge.source && old.target = edge.target then edge
        else old := by
  refine filter_replace fun old mem hit => ?_
  have ends := ends_eq_iff.mp hit
  rw [show old.type = edge.type from congrArg Prod.fst ends, same old mem ends]

theorem AgreeOn.setEdge (agree : AgreeOn context graph other) {edge : Edge}
    (same : ∀ old ∈ graph.edges, old.ends = edge.ends → old.context = edge.context)
    (same' : ∀ old ∈ other.edges, old.ends = edge.ends → old.context = edge.context) :
    AgreeOn context (graph.setEdge edge) (other.setEdge edge) where
  nodes := agree.nodes
  edges table := by rw [edgesWith_setEdge same, edgesWith_setEdge same', agree.edges]

theorem spares_setEdge {edge : Edge}
    (same : ∀ old ∈ graph.edges, old.ends = edge.ends → old.context = edge.context)
    (inside : edge.context = context) : Spares context graph (graph.setEdge edge) where
  nodes := rfl
  edges := by
    refine filter_replace_apart fun old mem hit => ?_
    simp [same old mem (ends_eq_iff.mp hit), inside]

theorem nodesWith_without (label : Label) :
    (graph.without context).nodesWith label context = [] := by
  rw [nodesWith, List.filter_eq_nil_iff]
  intro node mem
  simp [(mem_nodes_without.mp mem).2]

theorem edgesWith_without {known : List Identity} (h : Confined known graph) (type : EdgeType) :
    (graph.without context).edgesWith type context = [] := by
  rw [edgesWith, List.filter_eq_nil_iff]
  intro edge mem
  obtain ⟨mem, apart⟩ := mem_edges_without.mp mem
  obtain ⟨source, hs, -, -, begins, -, sourceIn, -⟩ := h.ends mem
  have outside : edge.context ≠ context := fun inside =>
    (apart source hs (sourceIn.trans inside)).1 begins
  simp [outside]

theorem spares_without {known : List Identity} (h : Confined known graph) :
    Spares context graph (graph.without context) where
  nodes := by simp [without, List.filter_filter]
  edges := by
    rw [without, List.filter_filter]
    refine List.filter_congr fun edge mem => ?_
    by_cases inside : edge.context = context
    · simp [inside]
    · have stays : edge ∈ (graph.without context).edges :=
        mem_edges_without.mpr ⟨mem, fun node known within =>
          ⟨fun at_end => inside ((h.joined edge mem node known (.inl at_end)).symm.trans within),
            fun at_end => inside ((h.joined edge mem node known (.inr at_end)).symm.trans within)⟩⟩
      have kept := (List.mem_filter.mp stays).2
      simpa [inside] using kept

/-! How many nodes a context holds can be read off its tables. -/

theorem length_nodesOf (graph : Graph) (context : String) : (graph.nodesOf context).length =
    (Label.all.map fun label => (graph.nodesWith label context).length).sum := by
  have split : ∀ node : Node, (if node.context = context then 1 else 0) =
      (Label.all.map fun label =>
        if node.label = label ∧ node.context = context then 1 else 0).sum := by
    intro node
    by_cases inside : node.context = context
    · cases node.label <;> simp [inside, Label.all]
    · simp [inside]
  unfold nodesOf nodesWith
  induction graph.nodes with
  | nil => simp
  | cons node nodes ih =>
    simp only [← List.countP_eq_length_filter, List.countP_cons, List.sum_map_add] at ih ⊢
    simp only [decide_eq_true_eq, Bool.and_eq_true, ih, split node]

theorem AgreeOn.length_nodesOf (agree : AgreeOn context graph other) :
    (graph.nodesOf context).length = (other.nodesOf context).length := by
  simp only [Graph.length_nodesOf, agree.nodes]

end CodeAtlas.Graph
