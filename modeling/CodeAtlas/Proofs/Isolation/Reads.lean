import CodeAtlas.Proofs.Isolation.Writes
import CodeAtlas.Quality.Review
import CodeAtlas.Review.Analysis
import CodeAtlas.Review.Validation

/-! Reads of a context. Whether they reach the data by an id, by the context column or along the
edges of a file, they see the rows of that context only. -/
namespace CodeAtlas.Graph

variable {known : List Identity} {context : String} {graph other : Graph}

theorem Confined.end_inside (confined : Confined known graph) {edge : Edge} {id : String}
    (mem : edge ∈ graph.edges) (inside : edge.context = context)
    (at_end : id = edge.source ∨ id = edge.target) :
    ∀ node ∈ graph.nodes, node.id = id → node.context = context := by
  rintro node known rfl
  exact (confined.joined edge mem node known at_end).trans inside

theorem AgreeOn.node?_of_edge (agree : AgreeOn context graph other)
    (confined : Confined known graph) (confined' : Confined known other) {edge : Edge}
    (mem : edge ∈ graph.edges) (inside : edge.context = context) {id : String}
    (at_end : id = edge.source ∨ id = edge.target) (label : Label) :
    graph.node? label id = other.node? label id := by
  have mem' : edge ∈ other.edges := by
    have row : edge ∈ graph.edgesWith edge.type context := mem_edgesWith.mpr ⟨mem, rfl, inside⟩
    exact (mem_edgesWith.mp (agree.edges edge.type ▸ row)).1
  exact agree.node? (confined.end_inside mem inside at_end)
    (confined'.end_inside mem' inside at_end)

end CodeAtlas.Graph

namespace CodeAtlas.Review

open CodeAtlas.Graph
open CodeAtlas.Source (Elements)

variable {known : List Identity} {language context path : String} {graph other : Graph}
  {elements : Elements}

def snippetIdentities (elements : Elements) (language context : String) : List Identity :=
  elements.functions.map (fun function => .named .function function.name language context)
    ++ elements.classes.map fun classDef => .named .classDef classDef.name language context

theorem snippet_agrees (free : CollisionFree known)
    (occur : snippetIdentities elements language context ⊆ known)
    (confined : Confined known graph) (confined' : Confined known other)
    (agree : AgreeOn context graph other) :
    validateSnippet graph elements language context =
      validateSnippet other elements language context := by
  have same : ∀ label name, Identity.named label name language context ∈ known →
      lookUp graph language context label name = lookUp other language context label name := by
    intro label name occurs
    have placed : PlacedIn known context (.named label name language context) := ⟨occurs, rfl⟩
    rw [lookUp, lookUp, isIndexed, isIndexed, placed.node? free confined confined' agree]
  rw [validateSnippet, validateSnippet]
  congr 2
  · refine List.map_congr_left fun function mem => same _ _ (occur ?_)
    exact List.mem_append_left _ (List.mem_map.mpr ⟨function, mem, rfl⟩)
  · refine List.map_congr_left fun classDef mem => same _ _ (occur ?_)
    exact List.mem_append_right _ (List.mem_map.mpr ⟨classDef, mem, rfl⟩)

theorem contained_inside (free : CollisionFree known) (confined : Confined known graph)
    (file : PlacedIn known context (.file path context)) (label : Label) :
    contained graph (Identity.file path context).id label =
      (graph.edgesWith .contains context).filterMap fun edge =>
        if edge.source = (Identity.file path context).id then graph.node? label edge.target
        else none := by
  rw [contained, edgesWith, List.filterMap_filter]
  refine List.filterMap_congr fun edge mem => ?_
  by_cases begins : edge.source = (Identity.file path context).id
  · simp [begins, file.edge_inside free confined edge mem begins]
  · simp [begins]

theorem file_agrees (free : CollisionFree known) (occurs : Identity.file path context ∈ known)
    (confined : Confined known graph) (confined' : Confined known other)
    (agree : AgreeOn context graph other) :
    validateFile graph path elements language context =
      validateFile other path elements language context := by
  have file : PlacedIn known context (.file path context) := ⟨occurs, rfl⟩
  have held : ∀ label, contained graph (Identity.file path context).id label =
      contained other (Identity.file path context).id label := by
    intro label
    rw [contained_inside free confined file, contained_inside free confined' file, ← agree.edges]
    refine List.filterMap_congr fun edge mem => ?_
    obtain ⟨mem, -, inside⟩ := mem_edgesWith.mp mem
    rw [agree.node?_of_edge confined confined' mem inside (.inr rfl)]
  simp only [validateFile, indexedBody, namesakes, held, hasNode,
    file.node? free confined confined' agree]

theorem relations_agree (confined : Confined known graph) (confined' : Confined known other)
    (agree : AgreeOn context graph other) (kind : EdgeKind) (element : Option String) :
    relations graph kind context element = relations other kind context element := by
  have rows : ∀ graph : Graph, graph.edges.filterMap (relation? graph kind context element) =
      (graph.edgesWith kind.type context).filterMap (relation? graph kind context element) := by
    intro graph
    rw [edgesWith, List.filterMap_filter]
    refine List.filterMap_congr fun edge _ => ?_
    by_cases row : (edge.type = kind.type && edge.context = context) = true
    · rw [if_pos row]
    · rw [if_neg row, relation?, if_neg row]
  rw [relations, relations, rows, rows, ← agree.edges]
  congr 1
  refine List.filterMap_congr fun edge mem => ?_
  obtain ⟨mem, -, inside⟩ := mem_edgesWith.mp mem
  rw [relation?, relation?, agree.node?_of_edge confined confined' mem inside (.inl rfl),
    agree.node?_of_edge confined confined' mem inside (.inr rfl)]

theorem orphan_inside (confined : Confined known graph) {node : Node} (mem : node ∈ graph.nodes)
    (inside : node.context = context) : isOrphan graph node =
      !EdgeType.all.any fun type => (graph.edgesWith type context).any fun edge =>
        edge.source = node.id || edge.target = node.id := by
  rw [isOrphan, Bool.not_inj_iff, Bool.eq_iff_iff]
  simp only [List.any_eq_true, mem_edgesWith, Bool.or_eq_true, decide_eq_true_eq]
  constructor
  · rintro ⟨edge, known, at_end⟩
    refine ⟨edge.type, EdgeType.mem_all _, edge, ⟨known, rfl, ?_⟩, at_end⟩
    exact (confined.joined edge known node mem (at_end.imp Eq.symm Eq.symm)).symm.trans inside
  · rintro ⟨type, -, edge, ⟨known, -⟩, at_end⟩
    exact ⟨edge, known, at_end⟩

theorem orphans_agree (confined : Confined known graph) (confined' : Confined known other)
    (agree : AgreeOn context graph other) : orphans graph context = orphans other context := by
  have same : ∀ label, (graph.nodesWith label context).filter (isOrphan graph) =
      (other.nodesWith label context).filter (isOrphan other) := by
    intro label
    rw [← agree.nodes]
    refine List.filter_congr fun node mem => ?_
    have mem' : node ∈ other.nodesWith label context := agree.nodes label ▸ mem
    obtain ⟨mem, -, inside⟩ := mem_nodesWith.mp mem
    rw [orphan_inside confined mem inside, orphan_inside confined' (mem_nodesWith.mp mem').1 inside]
    simp only [agree.edges]
  simp only [orphans, same]

theorem analysis_agrees (confined : Confined known graph) (confined' : Confined known other)
    (agree : AgreeOn context graph other) (analysis : AnalysisType) (element : Option String) :
    analyzeContext graph context analysis element =
      analyzeContext other context analysis element := by
  simp only [analyzeContext, relations_agree confined confined' agree,
    orphans_agree confined confined' agree, nodeCounts, agree.nodes]

end CodeAtlas.Review

namespace CodeAtlas.Quality

open CodeAtlas.Graph

theorem review_agrees {context : String} {graph other : Graph} (agree : AgreeOn context graph other)
    (elements : Source.Elements) (language : String) :
    review graph elements language context = review other elements language context := by
  simp only [review, evidence, agree.nodes]

end CodeAtlas.Quality
