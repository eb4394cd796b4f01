import CodeAtlas.Proofs.Graph.Writes

/-! What can be found after a write: the node that was written, everything else as before, and after
a link exactly one more pair of ends, or none when a node is missing. -/
namespace CodeAtlas.Graph

variable {here : Conditions} {graph after : Graph} {identity : Identity} {given : Attributes}
  {label : Label} {id : String} {node : Node}

theorem node?_addNode : (graph.addNode node).node? label id =
    (graph.node? label id).or (if node.label = label ∧ node.id = id then some node else none) := by
  rw [node?, nodes_addNode, List.find?_append]
  by_cases hit : node.label = label ∧ node.id = id
  · simp [node?, hit]
  · rw [if_neg hit, List.find?_cons_of_neg (by simpa using hit)]
    rfl

theorem node?_setNode {label' : Label} {id' : String} (labels : node.label = label)
    (ids : node.id = id) : (graph.setNode label id node).node? label' id' =
      if label' = label ∧ id' = id then (graph.node? label id).map fun _ => node
      else graph.node? label' id' := by
  have same : ((fun other : Node => other.label = label' && other.id = id') ∘ fun old : Node =>
      if old.label = label && old.id = id then node else old) =
      fun old : Node => old.label = label' && old.id = id' := by
    funext old
    by_cases hit : old.label = label ∧ old.id = id
    · simp [hit, labels, ids]
    · rw [Function.comp_apply, if_neg (by simpa using hit)]
  rw [node?, setNode, List.find?_map, same]
  change (graph.node? label' id').map _ = _
  split_ifs with hit
  · rw [hit.1, hit.2]
    refine Option.map_congr fun old found => ?_
    obtain ⟨-, labels, ids⟩ := node?_eq_some found
    simp [labels, ids]
  · cases found : graph.node? label' id' with
    | none => rfl
    | some old =>
      obtain ⟨-, rfl, rfl⟩ := node?_eq_some found
      rw [Option.map_some, if_neg (by simpa using hit)]

theorem edge?_addEdge {edge : Edge} {type : EdgeType} {source target : String} :
    (graph.addEdge edge).edge? type source target = (graph.edge? type source target).or
      (if edge.ends = (type, source, target) then some edge else none) := by
  rw [edge?, edges_addEdge, List.find?_append]
  by_cases hit : edge.ends = (type, source, target)
  · obtain ⟨rfl, rfl, rfl⟩ : edge.type = type ∧ edge.source = source ∧ edge.target = target := by
      simpa [Edge.ends] using hit
    simp [edge?, Edge.ends]
  · rw [if_neg hit, List.find?_cons_of_neg (by simpa [Edge.ends, and_assoc] using hit)]
    rfl

theorem edge?_setEdge {edge : Edge} {type : EdgeType} {source target : String} :
    (graph.setEdge edge).edge? type source target =
      if (type, source, target) = edge.ends then (graph.edge? type source target).map fun _ => edge
      else graph.edge? type source target := by
  have same : ((fun other : Edge => other.type = type && other.source = source &&
      other.target = target) ∘ fun old : Edge =>
        if old.type = edge.type && old.source = edge.source && old.target = edge.target then edge
        else old) =
      fun old : Edge => old.type = type && old.source = source && old.target = target := by
    funext old
    by_cases hit : old.ends = edge.ends
    · rw [Function.comp_apply, if_pos (ends_eq_iff.mpr hit)]
      simp only [Edge.ends, Prod.mk.injEq] at hit
      rw [hit.1, hit.2.1, hit.2.2]
    · rw [Function.comp_apply, if_neg (mt ends_eq_iff.mp hit)]
  rw [edge?, setEdge, List.find?_map, same]
  change (graph.edge? type source target).map _ = _
  cases found : graph.edge? type source target with
  | none => simp
  | some old =>
    obtain ⟨-, ends⟩ := edge?_eq_some found
    rw [Option.map_some, Option.map_some, ← ends]
    by_cases hit : old.ends = edge.ends
    · rw [if_pos (ends_eq_iff.mpr hit), if_pos hit]
    · rw [if_neg (mt ends_eq_iff.mp hit), if_neg hit]

theorem upsert_edges {created : Bool}
    (h : upsert here identity given graph = .ok (created, after)) :
    after.edges = graph.edges := by
  rcases upsert_cases h with ⟨-, -, -, rfl⟩ | ⟨node, -, -, -, rfl⟩ <;> rfl

theorem upsert_self {created : Bool} (h : upsert here identity given graph = .ok (created, after)) :
    after.node? identity.label identity.id = some
      (match graph.node? identity.label identity.id with
      | none => .created identity given here.now
      | some node => node.overwritten given here.now) := by
  rcases upsert_cases h with ⟨absent, -, -, rfl⟩ | ⟨node, found, -, -, rfl⟩
  · simp [node?_addNode, absent, Node.created]
  · obtain ⟨-, labels, ids⟩ := node?_eq_some found
    simp [node?_setNode, Node.overwritten, labels, ids, found]

theorem upsert_other {created : Bool} (h : upsert here identity given graph = .ok (created, after))
    (other : ¬ (label = identity.label ∧ id = identity.id)) :
    after.node? label id = graph.node? label id := by
  rcases upsert_cases h with ⟨-, -, -, rfl⟩ | ⟨node, found, -, -, rfl⟩
  · have missed : ¬ (identity.label = label ∧ identity.id = id) :=
      fun hit => other ⟨hit.1.symm, hit.2.symm⟩
    simp [node?_addNode, Node.created, missed]
  · obtain ⟨-, labels, ids⟩ := node?_eq_some found
    rw [node?_setNode (by exact labels) (by exact ids), if_neg other]

theorem upsert_present {created : Bool}
    (h : upsert here identity given graph = .ok (created, after)) :
    after.hasNode identity.label identity.id = true := by
  rw [hasNode, upsert_self h]
  rfl

theorem ensure_edges {created : Bool} (h : ensureNode here identity graph = .ok (created, after)) :
    after.edges = graph.edges := by
  rcases ensure_cases h with ⟨-, -, rfl⟩ | ⟨-, -, -, rfl⟩ <;> rfl

theorem ensure_keeps_nodes {created : Bool}
    (h : ensureNode here identity graph = .ok (created, after)) : graph.nodes ⊆ after.nodes := by
  rcases ensure_cases h with ⟨-, -, rfl⟩ | ⟨-, -, -, rfl⟩
  · exact List.Subset.refl _
  · simp

theorem ensure_lookup {created : Bool} (h : ensureNode here identity graph = .ok (created, after)) :
    after.node? label id = (graph.node? label id).or
      (if identity.label = label ∧ identity.id = id then some (.stub identity here.now)
        else none) := by
  rcases ensure_cases h with ⟨known, -, rfl⟩ | ⟨-, -, -, rfl⟩
  · by_cases hit : identity.label = label ∧ identity.id = id
    · obtain ⟨rfl, rfl⟩ := hit
      obtain ⟨node, found⟩ := Option.isSome_iff_exists.mp known
      rw [found]
      rfl
    · simp [hit]
  · exact node?_addNode

theorem ensure_present {created : Bool}
    (h : ensureNode here identity graph = .ok (created, after)) :
    after.hasNode identity.label identity.id = true := by
  rw [hasNode, ensure_lookup h]
  cases graph.node? identity.label identity.id <;> simp

variable {type : EdgeType} {source target : Endpoint} {context : String} {properties : Properties}

theorem nodes_joined (type : EdgeType) (source target : Endpoint) (context : String)
    (properties : Properties) :
    (joined here graph type source target context properties).nodes = graph.nodes := by
  unfold joined
  split_ifs
  · cases graph.edge? type source.id target.id <;> rfl
  · rfl

theorem mem_ends_joined {ends : EdgeType × String × String} :
    ends ∈ (joined here graph type source target context properties).edges.map Edge.ends ↔
      ends ∈ graph.edges.map Edge.ends ∨ (graph.hasNode source.label source.id = true ∧
        graph.hasNode target.label target.id = true ∧ ends = (type, source.id, target.id)) := by
  unfold joined
  split_ifs with present
  · rw [Bool.and_eq_true] at present
    simp only [present, true_and]
    cases found : graph.edge? type source.id target.id with
    | some edge =>
      obtain ⟨known, eq⟩ := edge?_eq_some found
      dsimp only
      rw [map_setEdge Edge.ends fun old _ eq => eq.symm]
      exact ⟨.inl, fun h => h.elim id fun h => h ▸ eq ▸ List.mem_map_of_mem known⟩
    | none => simp [Edge.fresh, Edge.ends]
  · rw [Bool.and_eq_true] at present
    exact ⟨.inl, fun h => h.elim id fun h => absurd ⟨h.1, h.2.1⟩ present⟩

theorem mem_joined_plain {edge : Edge}
    (h : edge ∈ (joined here graph type source target context []).edges) :
    edge ∈ graph.edges ∨ edge.type = type := by
  unfold joined at h
  split_ifs at h
  · cases found : graph.edge? type source.id target.id with
    | some old =>
      rw [found] at h
      rcases mem_setEdge h with rfl | ⟨mem, -⟩
      · exact .inl (edge?_eq_some found).1
      · exact .inl mem
    | none =>
      rw [found] at h
      rcases List.mem_append.mp h with mem | mem
      · exact .inl mem
      · obtain rfl := List.mem_singleton.mp mem
        exact .inr rfl
  · exact .inl h

end CodeAtlas.Graph
