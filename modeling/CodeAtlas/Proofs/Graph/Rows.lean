import CodeAtlas.Proofs.Batch
import CodeAtlas.Proofs.Graph.Effects

/-! The graph as tables: the nodes of each label and the edges of each type, in their order. A write
reads and changes the tables of its own label or type only. So it does the same to two graphs that
agree on those, and it leaves all other tables as they are. -/
namespace CodeAtlas.Graph

def labelled (graph : Graph) (label : Label) : List Node :=
  graph.nodes.filter fun node => node.label = label

def typed (graph : Graph) (type : EdgeType) : List Edge :=
  graph.edges.filter fun edge => edge.type = type

/-- Two graphs hold the same rows in the tables of some labels and some types. -/
structure SameRows (labels : Label → Prop) (types : EdgeType → Prop) (graph other : Graph) :
    Prop where
  nodes : ∀ label, labels label → graph.labelled label = other.labelled label
  edges : ∀ type, types type → graph.typed type = other.typed type

abbrev SameTables : Graph → Graph → Prop := SameRows (fun _ => True) (fun _ => True)

variable {α β : Type} {here : Conditions} {graph other third : Graph} {label : Label} {id : String}
  {node : Node} {labels labels' : Label → Prop} {types types' : EdgeType → Prop}

/-! Tables. -/

theorem node?_eq_labelled (graph : Graph) (label : Label) (id : String) :
    graph.node? label id = (graph.labelled label).find? fun node => node.id = id := by
  rw [labelled, List.find?_filter, node?]
  simp

theorem nodesWith_eq_labelled (graph : Graph) (label : Label) (context : String) :
    graph.nodesWith label context =
      (graph.labelled label).filter fun node => node.context = context := by
  rw [labelled, List.filter_filter, nodesWith]
  apply List.filter_congr
  intro node _
  exact Bool.and_comm _ _

theorem edge?_eq_typed (graph : Graph) (type : EdgeType) (source target : String) :
    graph.edge? type source target =
      (graph.typed type).find? fun edge => edge.source = source && edge.target = target := by
  rw [typed, List.find?_filter, edge?]
  simp [Bool.and_assoc]

theorem labelled_addNode : (graph.addNode node).labelled label =
    graph.labelled label ++ if node.label = label then [node] else [] := by
  rw [labelled, nodes_addNode, List.filter_append, labelled]
  by_cases hit : node.label = label <;> simp [hit]

theorem labelled_addNode_other (apart : node.label ≠ label) :
    (graph.addNode node).labelled label = graph.labelled label := by
  rw [labelled_addNode, if_neg apart, List.append_nil]

theorem labelled_setNode {label' : Label} (same : node.label = label') :
    (graph.setNode label' id node).labelled label = (graph.labelled label).map fun old =>
      if old.label = label' && old.id = id then node else old := by
  rw [labelled, setNode, List.filter_map, labelled]
  congr 1
  apply List.filter_congr
  intro old _
  by_cases hit : old.label = label' ∧ old.id = id
  · simp [hit, same]
  · rw [Function.comp_apply, if_neg (by simpa using hit)]

theorem labelled_setNode_other {label' : Label} (same : node.label = label')
    (apart : label ≠ label') :
    (graph.setNode label' id node).labelled label = graph.labelled label := by
  rw [labelled_setNode same]
  refine (List.map_congr_left fun old mem => ?_).trans (List.map_id _)
  have row : old.label = label := by simpa using List.of_mem_filter mem
  simp [row, apart]

theorem typed_addEdge {edge : Edge} {type : EdgeType} : (graph.addEdge edge).typed type =
    graph.typed type ++ if edge.type = type then [edge] else [] := by
  rw [typed, edges_addEdge, List.filter_append, typed]
  by_cases hit : edge.type = type <;> simp [hit]

theorem typed_addEdge_other {edge : Edge} {type : EdgeType} (apart : edge.type ≠ type) :
    (graph.addEdge edge).typed type = graph.typed type := by
  rw [typed_addEdge, if_neg apart, List.append_nil]

theorem typed_setEdge {edge : Edge} {type : EdgeType} : (graph.setEdge edge).typed type =
    (graph.typed type).map fun old => if old.ends = edge.ends then edge else old := by
  simp only [typed, setEdge, ends_eq_iff, List.filter_map]
  congr 1
  apply List.filter_congr
  intro old _
  by_cases hit : old.ends = edge.ends
  · have types : old.type = edge.type := congrArg (·.1) hit
    simp [hit, types]
  · simp [hit]

theorem typed_setEdge_other {edge : Edge} {type : EdgeType} (apart : type ≠ edge.type) :
    (graph.setEdge edge).typed type = graph.typed type := by
  rw [typed_setEdge]
  refine (List.map_congr_left fun old mem => ?_).trans (List.map_id _)
  have row : old.type = type := by simpa using List.of_mem_filter mem
  exact if_neg fun same => apart (row.symm.trans (congrArg (·.1) same))

/-! Rows in common. -/

namespace SameRows

theorem refl (graph : Graph) : SameRows labels types graph graph := ⟨fun _ _ => rfl, fun _ _ => rfl⟩

theorem symm (h : SameRows labels types graph other) : SameRows labels types other graph :=
  ⟨fun label inside => (h.nodes label inside).symm, fun type inside => (h.edges type inside).symm⟩

theorem trans (first : SameRows labels types graph other)
    (second : SameRows labels types other third) : SameRows labels types graph third :=
  ⟨fun label inside => (first.nodes label inside).trans (second.nodes label inside),
    fun type inside => (first.edges type inside).trans (second.edges type inside)⟩

theorem mono (h : SameRows labels types graph other) (fewer : ∀ label, labels' label → labels label)
    (fewer' : ∀ type, types' type → types type) : SameRows labels' types' graph other :=
  ⟨fun label inside => h.nodes label (fewer label inside),
    fun type inside => h.edges type (fewer' type inside)⟩

/-- Graphs with the same rows in all tables differ in nothing but the order of rows. -/
theorem perm (h : SameTables graph other) :
    graph.nodes.Perm other.nodes ∧ graph.edges.Perm other.edges := by
  constructor
  · apply List.perm_iff_count.mpr
    intro node
    have rows := congrArg (List.count node) (h.nodes node.label trivial)
    rwa [labelled, labelled, List.count_filter (by simp), List.count_filter (by simp)] at rows
  · apply List.perm_iff_count.mpr
    intro edge
    have rows := congrArg (List.count edge) (h.edges edge.type trivial)
    rwa [typed, typed, List.count_filter (by simp), List.count_filter (by simp)] at rows

theorem node? (h : SameRows labels types graph other) (inside : labels label) (id : String) :
    graph.node? label id = other.node? label id := by
  rw [node?_eq_labelled, node?_eq_labelled, h.nodes label inside]

theorem hasNode (h : SameRows labels types graph other) (inside : labels label) (id : String) :
    graph.hasNode label id = other.hasNode label id := by
  rw [Graph.hasNode, Graph.hasNode, h.node? inside]

theorem addNode (h : SameRows labels types graph other) (node : Node) :
    SameRows labels types (graph.addNode node) (other.addNode node) where
  nodes label inside := by rw [labelled_addNode, labelled_addNode, h.nodes label inside]
  edges := h.edges

theorem setNode (h : SameRows labels types graph other) (same : node.label = label) :
    SameRows labels types (graph.setNode label id node) (other.setNode label id node) where
  nodes label' inside := by
    rw [labelled_setNode same, labelled_setNode same, h.nodes label' inside]
  edges := h.edges

theorem addEdge (h : SameRows labels types graph other) (edge : Edge) :
    SameRows labels types (graph.addEdge edge) (other.addEdge edge) where
  nodes := h.nodes
  edges type inside := by rw [typed_addEdge, typed_addEdge, h.edges type inside]

theorem setEdge (h : SameRows labels types graph other) (edge : Edge) :
    SameRows labels types (graph.setEdge edge) (other.setEdge edge) where
  nodes := h.nodes
  edges type inside := by rw [typed_setEdge, typed_setEdge, h.edges type inside]

end SameRows

/-! What a write leaves as it is. -/

variable {identity : Identity} {given : Attributes} {created : Bool}

theorem upsert_spares (h : upsert here identity given graph = .ok (created, other))
    (spared : ¬ labels identity.label) : SameRows labels types other graph where
  nodes label inside := by
    have apart : label ≠ identity.label := fun same => spared (same ▸ inside)
    rcases upsert_cases h with ⟨-, -, -, rfl⟩ | ⟨node, found, -, -, rfl⟩
    · exact labelled_addNode_other (Ne.symm apart)
    · exact labelled_setNode_other (node?_eq_some found).2.1 apart
  edges type _ := by rw [typed, typed, upsert_edges h]

theorem ensure_spares (h : ensureNode here identity graph = .ok (created, other))
    (spared : ¬ labels identity.label) : SameRows labels types other graph where
  nodes label inside := by
    have apart : label ≠ identity.label := fun same => spared (same ▸ inside)
    rcases ensure_cases h with ⟨-, -, rfl⟩ | ⟨-, -, -, rfl⟩
    · rfl
    · exact labelled_addNode_other (Ne.symm apart)
  edges type _ := by rw [typed, typed, ensure_edges h]

theorem joined_spares {type : EdgeType} (source target : Endpoint) (context : String)
    (properties : Properties) (spared : ¬ types type) :
    SameRows labels types (joined here graph type source target context properties) graph where
  nodes label _ := by rw [labelled, labelled, nodes_joined]
  edges type' inside := by
    have apart : type' ≠ type := fun same => spared (same ▸ inside)
    unfold joined
    split_ifs
    · cases found : graph.edge? type source.id target.id with
      | some edge =>
        have same : edge.type = type := congrArg (·.1) (edge?_eq_some found).2
        exact typed_setEdge_other (same ▸ apart)
      | none => exact typed_addEdge_other (Ne.symm apart)
    · rfl

theorem SameRows.joined (h : SameRows labels types graph other) {type : EdgeType}
    {source target : Endpoint} (begins : labels source.label) (ends : labels target.label)
    (between : types type) (context : String) (properties : Properties) :
    SameRows labels types (Graph.joined here graph type source target context properties)
      (Graph.joined here other type source target context properties) := by
  unfold Graph.joined
  rw [h.hasNode begins, h.hasNode ends, edge?_eq_typed, edge?_eq_typed, h.edges type between]
  split_ifs
  · split
    · exact h.setEdge _
    · exact h.addEdge _
  · exact h

/-! Writes side by side. -/

/-- Two writes on related graphs both succeed with one answer, and what they leave is related. -/
def Both (R : Graph → Graph → Prop) (write write' : Write α) : Prop :=
  ∀ graph other, R graph other → ∃ value after after',
    write graph = .ok (value, after) ∧ write' other = .ok (value, after') ∧ R after after'

variable {R : Graph → Graph → Prop}

theorem both_pure (value : α) : Both R (pure value) (pure value) :=
  fun graph other alike => ⟨value, graph, other, rfl, rfl, alike⟩

theorem Both.bind {write write' : Write α} {next next' : α → Write β} (first : Both R write write')
    (rest : ∀ {graph value middle}, write graph = .ok (value, middle) →
      Both R (next value) (next' value)) : Both R (write >>= next) (write' >>= next') := by
  intro graph other alike
  obtain ⟨value, middle, middle', done, done', alike⟩ := first graph other alike
  obtain ⟨result, after, after', last, last', alike⟩ := rest done middle middle' alike
  refine ⟨result, after, after', ?_, ?_, alike⟩
  · rw [write_bind_apply, done]
    exact last
  · rw [write_bind_apply, done']
    exact last'

/-- Two batches go the same way: nothing fails in either of them, and what they leave is related. -/
structure SideBySide (R : Graph → Graph → Prop) (batch batch' : List (α × Except Error β) × Graph) :
    Prop where
  results : batch'.1 = batch.1
  clean : failed batch.1 = []
  related : R batch.2 batch'.2

theorem SideBySide.cons {batch batch' : List (α × Except Error β) × Graph}
    (rest : SideBySide R batch batch') (item : α) (value : β) :
    SideBySide R ((item, .ok value) :: batch.1, batch.2) ((item, .ok value) :: batch'.1, batch'.2)
    where
  results := congrArg ((item, .ok value) :: ·) rest.results
  clean := rest.clean
  related := rest.related

/-- Batches of such writes go the same way. -/
theorem Both.batch {write write' : α → Write β} {items : List α}
    (each : ∀ item ∈ items, Both R (write item) (write' item)) (alike : R graph other) :
    SideBySide R (tryAll write items graph) (tryAll write' items other) := by
  induction items generalizing graph other with
  | nil => exact ⟨rfl, rfl, alike⟩
  | cons item items ih =>
    obtain ⟨value, after, after', done, done', alike⟩ :=
      each item List.mem_cons_self graph other alike
    have rest := ih (fun later mem => each later (List.mem_cons_of_mem _ mem)) alike
    simp only [tryAll, done, done']
    exact rest.cons item value

section Faultless

variable (faultless : here.faults = [])

include faultless

theorem faultless_creates (identity : Identity) : here.refusesCreating identity = false := by
  rw [Conditions.refusesCreating, faultless]
  rfl

theorem faultless_updates (label : Label) : here.refusesUpdating label = false := by
  rw [Conditions.refusesUpdating, faultless]
  rfl

theorem faultless_links (type : EdgeType) : here.refusesLinking type = false := by
  rw [Conditions.refusesLinking, faultless]
  rfl

theorem upsert_both (identity : Identity) (given : Attributes) (inside : labels identity.label) :
    Both (SameRows labels types) (upsert here identity given) (upsert here identity given) := by
  intro graph other alike
  simp only [upsert_apply, alike.node? inside, faultless_creates faultless,
    faultless_updates faultless]
  cases found : other.node? identity.label identity.id with
  | none => exact ⟨true, _, _, rfl, rfl, alike.addNode _⟩
  | some node => exact ⟨false, _, _, rfl, rfl, alike.setNode (node?_eq_some found).2.1⟩

theorem upsert_answers (identity : Identity) (given : Attributes) (graph : Graph) :
    ∃ created after, upsert here identity given graph = .ok (created, after) := by
  obtain ⟨created, after, -, done, -⟩ :=
    (upsert_both faultless identity given trivial : Both SameTables _ _) graph graph (.refl graph)
  exact ⟨created, after, done⟩

theorem ensure_both (identity : Identity) (inside : labels identity.label) :
    Both (SameRows labels types) (ensureNode here identity) (ensureNode here identity) := by
  intro graph other alike
  simp only [ensure_apply, alike.hasNode inside, faultless_creates faultless]
  cases other.hasNode identity.label identity.id with
  | true => exact ⟨false, _, _, rfl, rfl, alike⟩
  | false => exact ⟨true, _, _, rfl, rfl, alike.addNode _⟩

theorem link_done {type : EdgeType} {source target : Endpoint} {properties : Properties}
    (fits : (source.label, target.label) ∈ type.endpoints)
    (supplied : ∀ property ∈ properties, property.1 ∈ type.properties) (context : String)
    (graph : Graph) : link here type source target context properties graph =
      .ok ((), joined here graph type source target context properties) := by
  rw [link_apply, if_neg (not_not.mpr fits), faultless_links faultless, if_neg Bool.false_ne_true,
    if_neg]
  exact not_not.mpr (List.all_eq_true.mpr fun property mem =>
    List.contains_iff_mem.mpr (supplied property mem))

theorem link_both {type : EdgeType} {source target : Endpoint} {properties : Properties}
    (fits : (source.label, target.label) ∈ type.endpoints)
    (supplied : ∀ property ∈ properties, property.1 ∈ type.properties)
    (begins : labels source.label) (ends : labels target.label) (between : types type)
    (context : String) :
    Both (SameRows labels types) (link here type source target context properties)
      (link here type source target context properties) :=
  fun graph other alike => ⟨(), _, _, link_done faultless fits supplied context graph,
    link_done faultless fits supplied context other,
    alike.joined begins ends between context properties⟩

end Faultless

end CodeAtlas.Graph
