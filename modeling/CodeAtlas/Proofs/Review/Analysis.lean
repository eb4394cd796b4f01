import CodeAtlas.Proofs.Distinct
import CodeAtlas.Proofs.Review.Relations
import CodeAtlas.Proofs.WellFormed

/-! What an analysis tells of a context. In a well-formed graph every listed relation stands for one
edge between two nodes that are there, so a full analysis is a list of edges seen through the names
of their ends, and a filter by name is a filter of that list. Counts and orphans are read off the
tables of the labels in schema order; sorting the counts keeps that order among equals. -/
namespace CodeAtlas.Review

open CodeAtlas.Graph

variable {graph : Graph} {kind : EdgeKind} {context name : String} {element : Option String}
  {edge : Edge} {analysis : AnalysisType} {report : RelationshipReport}

/-! Listed edges. -/

def shownName (graph : Graph) (id : String) : String :=
  ((graph.nodes.find? fun node => node.id = id).map Node.displayName).getD ""

def shown (graph : Graph) (edge : Edge) : Relation where
  source := shownName graph edge.source
  target := shownName graph edge.target
  type := edge.type
  details := (detailsOf edge).toOption.getD .null

/-- An edge that leads from a node of one label to a node of another. -/
def Joins (graph : Graph) (edge : Edge) (source target : Label) : Prop :=
  (∃ node ∈ graph.nodes, node.id = edge.source ∧ node.label = source) ∧
    ∃ node ∈ graph.nodes, node.id = edge.target ∧ node.label = target

def listed (graph : Graph) (context : String) (kind : EdgeKind) : List Edge :=
  graph.edges.filter fun edge => (relation? graph kind context none edge).isSome

theorem shown_name (wf : WellFormed graph) {node : Node} (mem : node ∈ graph.nodes) :
    shownName graph node.id = node.displayName := by
  cases found : graph.nodes.find? fun other => other.id = node.id with
  | none => simpa using List.find?_eq_none.mp found node mem
  | some other =>
    have same : other.id = node.id := by simpa using List.find?_some found
    obtain rfl := wf.eq_of_id (List.mem_of_find?_eq_some found) mem same
    rw [shownName, found]
    rfl

theorem relation_parts {relation : Relation} {source target : String} {type : EdgeType}
    (h : .ok relation = (detailsOf edge).map (⟨source, target, type, ·⟩)) :
    ∃ value, detailsOf edge = .ok value ∧ relation = ⟨source, target, type, value⟩ := by
  cases details : detailsOf edge with
  | error error =>
    rw [details] at h
    cases h
  | ok value =>
    rw [details] at h
    exact ⟨value, rfl, Except.ok.inj h⟩

theorem relation_shown (wf : WellFormed graph) {relation : Relation}
    (h : relation? graph kind context element edge = some (.ok relation)) :
    relation = shown graph edge := by
  obtain ⟨type, -, source, target, begins, ends, -, result⟩ := relation_eq_some.mp h
  obtain ⟨first, -, id⟩ := node?_eq_some begins
  obtain ⟨second, -, id'⟩ := node?_eq_some ends
  obtain ⟨value, details, rfl⟩ := relation_parts result
  rw [shown, ← id, ← id', shown_name wf first, shown_name wf second, type, details]
  rfl

theorem mem_listed : edge ∈ listed graph context kind ↔
    edge ∈ graph.edges ∧ edge.type = kind.type ∧ edge.context = context ∧
      Joins graph edge kind.source kind.target := by
  rw [listed, List.mem_filter, Option.isSome_iff_exists]
  apply and_congr_right
  intro mem
  constructor
  · rintro ⟨result, h⟩
    obtain ⟨type, inside, source, target, begins, ends, -⟩ := relation_eq_some.mp h
    obtain ⟨first, label, id⟩ := node?_eq_some begins
    obtain ⟨second, label', id'⟩ := node?_eq_some ends
    exact ⟨type, inside, ⟨source, first, id, label⟩, target, second, id', label'⟩
  · rintro ⟨type, inside, ⟨first, mem, id, label⟩, second, mem', id', label'⟩
    obtain ⟨source, begins⟩ := Option.isSome_iff_exists.mp
      (has_node_iff.mpr ⟨first, mem, label, id⟩)
    obtain ⟨target, ends⟩ := Option.isSome_iff_exists.mp
      (has_node_iff.mpr ⟨second, mem', label', id'⟩)
    exact ⟨_, relation_eq_some.mpr ⟨type, inside, source, target, begins, ends, rfl, rfl⟩⟩

theorem map_of_filterMap_ok {α β : Type} {choose : α → Option (Except Error β)} {value : α → β}
    {items : List α} {values : List β} (h : items.filterMap choose = values.map .ok)
    (same : ∀ item ∈ items, ∀ given, choose item = some (.ok given) → given = value item) :
    values = (items.filter fun item => (choose item).isSome).map value := by
  induction items generalizing values with
  | nil => exact List.map_eq_nil_iff.mp h.symm
  | cons item items ih =>
    have rest := fun other mem => same other (List.mem_cons_of_mem _ mem)
    cases chosen : choose item with
    | none =>
      rw [List.filterMap_cons_none chosen] at h
      rw [List.filter_cons_of_neg (by simp [chosen])]
      exact ih h rest
    | some result =>
      rw [List.filterMap_cons_some chosen] at h
      cases values with
      | nil => cases h
      | cons given values =>
        obtain ⟨first, others⟩ := List.cons.inj h
        rw [first] at chosen
        rw [List.filter_cons_of_pos (by simp [chosen]), List.map_cons, ← ih others rest,
          same item List.mem_cons_self given chosen]

theorem relations_shown (wf : WellFormed graph) {found : List Relation}
    (h : relations graph kind context none = .ok found) :
    found = (listed graph context kind).map (shown graph) :=
  map_of_filterMap_ok (listed_of_relations h) fun _ _ _ given => relation_shown wf given

/-! Filters by name. -/

def Relation.touches (name : String) (relation : Relation) : Bool :=
  relation.source = name || relation.target = name

theorem mapM_of_map_ok {α β : Type} {f : α → Except Error β} {items : List α} {values : List β}
    (h : items.map f = values.map .ok) : items.mapM f = .ok values := by
  induction items generalizing values with
  | nil =>
    obtain rfl := List.map_eq_nil_iff.mp h.symm
    rfl
  | cons item items ih =>
    cases values with
    | nil => cases h
    | cons value values =>
      obtain ⟨first, rest⟩ := List.cons.inj h
      rw [List.mapM_cons, first, ih rest]
      rfl

theorem relation_filtered (given : name ≠ "") {relation : Relation}
    (h : relation? graph kind context none edge = some (.ok relation)) :
    relation? graph kind context (some name) edge =
      if relation.touches name then some (.ok relation) else none := by
  obtain ⟨type, inside, source, target, begins, ends, -, result⟩ := relation_eq_some.mp h
  obtain ⟨value, -, rfl⟩ := relation_parts result
  have passes : touches (some name) source.displayName target.displayName =
      Relation.touches name ⟨source.displayName, target.displayName, kind.type, value⟩ := by
    rw [touches, Relation.touches]
    simp [given]
  rw [relation?, type, inside]
  simp only [decide_true, Bool.and_self, if_true, begins, ends, Option.bind_eq_bind,
    Option.bind_some, passes, ← result]

theorem relation_left_out (h : relation? graph kind context none edge = none) :
    relation? graph kind context (some name) edge = none := by
  cases shown : relation? graph kind context (some name) edge with
  | none => rfl
  | some result =>
    obtain ⟨type, inside, source, target, begins, ends, -⟩ := relation_eq_some.mp shown
    have unfiltered : relation? graph kind context none edge = some _ :=
      relation_eq_some.mpr ⟨type, inside, source, target, begins, ends, rfl, rfl⟩
    rw [h] at unfiltered
    cases unfiltered

theorem filterMap_of_passing {α β : Type} {choose pick : α → Option (Except Error β)}
    {passes : β → Bool} {items : List α} {values : List β}
    (h : items.filterMap choose = values.map .ok)
    (passing : ∀ {item value}, choose item = some (.ok value) →
      pick item = if passes value then some (.ok value) else none)
    (none_of_none : ∀ {item}, choose item = none → pick item = none) :
    items.filterMap pick = (values.filter passes).map .ok := by
  induction items generalizing values with
  | nil =>
    obtain rfl := List.map_eq_nil_iff.mp h.symm
    rfl
  | cons item items ih =>
    cases chosen : choose item with
    | none =>
      rw [List.filterMap_cons_none chosen] at h
      rw [List.filterMap_cons_none (none_of_none chosen)]
      exact ih h
    | some result =>
      rw [List.filterMap_cons_some chosen] at h
      cases values with
      | nil => cases h
      | cons value values =>
        obtain ⟨rfl, others⟩ := List.cons.inj h
        have picked := passing chosen
        by_cases pass : passes value
        · rw [if_pos pass] at picked
          rw [List.filterMap_cons_some picked, List.filter_cons_of_pos pass, List.map_cons,
            ih others]
        · rw [if_neg pass] at picked
          rw [List.filterMap_cons_none picked, List.filter_cons_of_neg pass, ih others]

/-- A filter by name picks some of the relations that are listed without. -/
theorem relations_filtered (given : name ≠ "") {found : List Relation}
    (h : relations graph kind context none = .ok found) :
    relations graph kind context (some name) = .ok (found.filter (·.touches name)) := by
  have kept := filterMap_of_passing (listed_of_relations h) (relation_filtered given)
    relation_left_out
  rw [relations, kept]
  exact mapM_of_map_ok (List.map_id _)

/-! Whole analyses. -/

def relationsOf (graph : Graph) (context : String) (element : Option String) (kind : EdgeKind) :
    List Relation :=
  (relations graph kind context element).toOption.getD []

theorem analysis_lists (h : analyzeContext graph context analysis element = .ok report) :
    (∀ kind ∈ analysis.kinds, relations graph kind context element =
      .ok (relationsOf graph context element kind)) ∧
    report.relations = analysis.kinds.flatMap (relationsOf graph context element) := by
  obtain ⟨found, all, h⟩ := except_bind h
  obtain rfl := Except.ok.inj h
  have answers := map_of_mapM_ok all
  have each : found = analysis.kinds.map (relationsOf graph context element) := by
    have read := congrArg (List.map fun given : Except Error (List Relation) =>
      given.toOption.getD []) answers
    rw [List.map_map, List.map_map] at read
    exact (read.trans (List.map_id _)).symm
  constructor
  · intro kind mem
    rw [each, List.map_map] at answers
    exact List.map_inj_left.mp answers kind mem
  · change found.flatten = _
    rw [each, List.flatMap_def]

def reported (graph : Graph) (context : String) : List Edge :=
  AnalysisType.all.kinds.flatMap (listed graph context)

/-- What is to be reported of a context: its calls, extensions, imports and instantiations, and
those implementations that lead from a class to an interface. -/
def IsReported (graph : Graph) (context : String) (edge : Edge) : Prop :=
  edge ∈ graph.edges ∧ edge.context = context ∧
    (edge.type ∈ [.calls, .inherits, .imports, .instantiates] ∨
      edge.type = .implements ∧ Joins graph edge .classDef .interface)

theorem joins_endpoints (wf : WellFormed graph) (mem : edge ∈ graph.edges) :
    ∃ source target, Joins graph edge source target ∧ (source, target) ∈ edge.type.endpoints := by
  obtain ⟨first, known, second, known', begins, ends, fits⟩ := wf.connected edge mem
  exact ⟨first.label, second.label, ⟨⟨first, known, begins, rfl⟩, second, known', ends, rfl⟩, fits⟩

theorem joins_only (wf : WellFormed graph) (mem : edge ∈ graph.edges) {source target : Label}
    (only : edge.type.endpoints = [(source, target)]) : Joins graph edge source target := by
  obtain ⟨first, second, joins, fits⟩ := joins_endpoints wf mem
  rw [only, List.mem_singleton] at fits
  obtain ⟨rfl, rfl⟩ := Prod.mk.inj fits
  exact joins

theorem mem_reported (wf : WellFormed graph) :
    edge ∈ reported graph context ↔ IsReported graph context edge := by
  rw [reported, List.mem_flatMap]
  constructor
  · rintro ⟨kind, analysed, mem⟩
    obtain ⟨known, type, inside, joins⟩ := mem_listed.mp mem
    refine ⟨known, inside, ?_⟩
    simp only [AnalysisType.kinds, List.mem_cons, List.not_mem_nil, or_false] at analysed
    rcases analysed with rfl | rfl | rfl | rfl | rfl
    case inr.inr.inl => exact .inr ⟨type, joins⟩
    all_goals exact .inl (by simp [type])
  · rintro ⟨known, inside, plain | ⟨type, joins⟩⟩
    · have only : ∀ type ∈ [EdgeType.calls, .inherits, .imports, .instantiates],
          ∃ kind ∈ AnalysisType.all.kinds,
            type = kind.type ∧ type.endpoints = [(kind.source, kind.target)] := by decide
      obtain ⟨kind, analysed, type, endpoints⟩ := only edge.type plain
      exact ⟨kind, analysed, mem_listed.mpr ⟨known, type, inside, joins_only wf known endpoints⟩⟩
    · exact ⟨⟨.implements, .classDef, .interface⟩, by decide,
        mem_listed.mpr ⟨known, type, inside, joins⟩⟩

theorem nodup_reported (wf : WellFormed graph) (context : String) :
    (reported graph context).Nodup := by
  have apart : AnalysisType.all.kinds.Pairwise fun a b => a.type ≠ b.type := by decide
  apply List.nodup_flatMap.mpr
  constructor
  · intro kind _
    exact (wf.distinct_edges.of_map _).filter _
  · apply apart.imp
    intro a b differ edge first second
    apply differ
    exact (mem_listed.mp first).2.1.symm.trans (mem_listed.mp second).2.1

theorem analysis_shows (wf : WellFormed graph)
    (h : analyzeContext graph context analysis none = .ok report) :
    report.relations = (analysis.kinds.flatMap (listed graph context)).map (shown graph) := by
  obtain ⟨read, flat⟩ := analysis_lists h
  rw [flat, List.map_flatMap]
  apply List.flatMap_congr
  intro kind mem
  exact relations_shown wf (read kind mem)

theorem analysis_filtered (given : name ≠ "") {whole : RelationshipReport}
    (all : analyzeContext graph context analysis none = .ok whole)
    (h : analyzeContext graph context analysis (some name) = .ok report) :
    report.relations = whole.relations.filter (·.touches name) := by
  obtain ⟨read, flat⟩ := analysis_lists all
  obtain ⟨read', flat'⟩ := analysis_lists h
  rw [flat, flat', List.filter_flatMap]
  apply List.flatMap_congr
  intro kind mem
  have filtered := relations_filtered given (read kind mem)
  rw [read' kind mem] at filtered
  exact Except.ok.inj filtered

theorem analysis_unfiltered (graph : Graph) (context : String) (analysis : AnalysisType) :
    analyzeContext graph context analysis (some "") =
      analyzeContext graph context analysis none := rfl

def AnalysisType.families : List AnalysisType :=
  [.functionCalls, .classInheritance, .imports, .dependencies]

theorem kinds_all : AnalysisType.all.kinds = AnalysisType.families.flatMap AnalysisType.kinds := rfl

theorem analysis_concatenated {reports : AnalysisType → RelationshipReport}
    (h : ∀ analysis, analyzeContext graph context analysis element = .ok (reports analysis)) :
    (reports .all).relations =
      AnalysisType.families.flatMap fun family => (reports family).relations := by
  rw [(analysis_lists (h .all)).2, kinds_all, List.flatMap_assoc]
  apply List.flatMap_congr
  intro family _
  exact (analysis_lists (h family)).2.symm

theorem total_counts_by_type (report : RelationshipReport) :
    total (report.countsByType.map (·.2)) = report.relations.length := by
  rw [RelationshipReport.countsByType, tally, total_countAll]
  simp [total]

/-! Counts of nodes. -/

def place (label : Label) : Nat := Label.all.idxOf label

theorem places_increase : Label.all.Pairwise fun a b => place a < place b := by decide

/-- Sorting moves nothing among items that are alike. -/
theorem mergeSort_filter {α : Type} {le : α → α → Bool} {items : List α} {alike : α → Bool}
    (trans : ∀ a b c, le a b → le b c → le a c) (total : ∀ a b, le a b || le b a)
    (same : ∀ a b, alike a → alike b → le a b) :
    (items.mergeSort le).filter alike = items.filter alike := by
  have level : (items.filter alike).Pairwise fun a b => le a b := by
    apply List.pairwise_of_forall_mem_list
    intro a mem b mem'
    exact same a b (List.of_mem_filter mem) (List.of_mem_filter mem')
  have stays := (List.sublist_mergeSort trans total level List.filter_sublist).filter alike
  rw [List.filter_filter] at stays
  simp only [Bool.and_self] at stays
  exact (stays.eq_of_length ((List.mergeSort_perm items le).filter alike).length_eq.symm).symm

/-- The order of counts: the greater count first, equal counts as in the schema. -/
def CountsBefore (a b : Label × Nat) : Prop := b.2 < a.2 ∨ b.2 = a.2 ∧ place a.1 < place b.1

theorem mem_node_counts {label : Label} {count : Nat} :
    (label, count) ∈ nodeCounts graph context ↔
      count = (graph.nodesWith label context).length ∧ graph.nodesWith label context ≠ [] := by
  rw [nodeCounts, List.mem_mergeSort, List.mem_filter, List.mem_map]
  constructor
  · rintro ⟨⟨other, -, eq⟩, counted⟩
    obtain ⟨rfl, rfl⟩ := Prod.mk.inj eq
    exact ⟨rfl, by simpa using counted⟩
  · rintro ⟨rfl, some⟩
    exact ⟨⟨label, Label.mem_all label, rfl⟩, by simpa using some⟩

theorem sorted_counts_ordered {counts : List (Label × Nat)}
    (schema : counts.Pairwise fun a b => place a.1 < place b.1) :
    (counts.mergeSort fun a b => b.2 ≤ a.2).Pairwise CountsBefore := by
  let le (a b : Label × Nat) : Bool := b.2 ≤ a.2
  have trans : ∀ a b c, le a b → le b c → le a c := by
    intro a b c first second
    simp only [le, decide_eq_true_eq] at first second ⊢
    omega
  have total : ∀ a b, le a b || le b a := by
    intro a b
    simp only [le, Bool.or_eq_true, decide_eq_true_eq]
    omega
  change (counts.mergeSort le).Pairwise CountsBefore
  apply List.pairwise_iff_forall_sublist.mpr
  intro a b inside
  have sorted : b.2 ≤ a.2 := of_decide_eq_true <|
    List.pairwise_iff_forall_sublist.mp (List.pairwise_mergeSort trans total counts) inside
  rcases Nat.lt_or_eq_of_le sorted with less | equal
  · left
    exact less
  · refine .inr ⟨equal, List.pairwise_iff_forall_sublist.mp schema ?_⟩
    have kept := inside.filter fun pair => decide (pair.2 = a.2)
    rw [mergeSort_filter trans total fun c d first second => by
      simp only [le, decide_eq_true_eq] at first second ⊢
      omega] at kept
    have both : [a, b].filter (fun pair => decide (pair.2 = a.2)) = [a, b] := by simp [equal]
    rw [both] at kept
    exact kept.trans List.filter_sublist

theorem node_counts_ordered (graph : Graph) (context : String) :
    (nodeCounts graph context).Pairwise CountsBefore := by
  apply sorted_counts_ordered
  apply List.Pairwise.filter
  exact List.pairwise_map.mpr places_increase

/-! Orphans. -/

def Edgeless (graph : Graph) (context : String) (node : Node) : Prop :=
  node ∈ graph.nodes ∧ node.context = context ∧
    ∀ edge ∈ graph.edges, edge.source ≠ node.id ∧ edge.target ≠ node.id

def edgeless (graph : Graph) (context : String) : List Node :=
  Label.all.flatMap fun label => (graph.nodesWith label context).filter (isOrphan graph)

theorem orphans_eq (graph : Graph) (context : String) : orphans graph context =
    ((edgeless graph context).take maxOrphans).map fun node => (node.label, node.displayName) := rfl

theorem mem_edgeless {node : Node} :
    node ∈ edgeless graph context ↔ Edgeless graph context node := by
  have alone : isOrphan graph node = true ↔
      ∀ edge ∈ graph.edges, edge.source ≠ node.id ∧ edge.target ≠ node.id := by
    simp [isOrphan]
  rw [edgeless, List.mem_flatMap]
  constructor
  · rintro ⟨label, -, mem⟩
    obtain ⟨listed, orphan⟩ := List.mem_filter.mp mem
    obtain ⟨known, -, inside⟩ := mem_nodesWith.mp listed
    exact ⟨known, inside, alone.mp orphan⟩
  · rintro ⟨known, inside, orphan⟩
    exact ⟨node.label, Label.mem_all _, List.mem_filter.mpr
      ⟨mem_nodesWith.mpr ⟨known, rfl, inside⟩, alone.mpr orphan⟩⟩

theorem nodup_edgeless (wf : WellFormed graph) (context : String) :
    (edgeless graph context).Nodup := by
  have labels : Label.all.Nodup := by decide
  apply List.nodup_flatMap.mpr
  constructor
  · intro label _
    exact ((wf.distinct_ids.of_map _).filter _).filter _
  · apply labels.imp
    intro a b differ node first second
    apply differ
    exact (mem_nodesWith.mp (List.mem_of_mem_filter first)).2.1.symm.trans
      (mem_nodesWith.mp (List.mem_of_mem_filter second)).2.1

theorem edgeless_ordered (graph : Graph) (context : String) :
    (edgeless graph context).Pairwise fun a b => place a.label ≤ place b.label := by
  have label : ∀ {label node}, node ∈ (graph.nodesWith label context).filter (isOrphan graph) →
      node.label = label := fun mem => (mem_nodesWith.mp (List.mem_of_mem_filter mem)).2.1
  apply List.pairwise_flatMap.mpr
  constructor
  · intro _ _
    apply List.pairwise_of_forall_mem_list
    intro a mem b mem'
    rw [label mem, label mem']
  · apply places_increase.imp
    intro a b less first mem second mem'
    rw [label mem, label mem']
    exact Nat.le_of_lt less

/-! Accuracy. -/

/-- The reports on a context, by analysis and filter, tell what the graph holds: nothing more,
nothing twice, and all of it but for the cap on orphans. -/
structure Accurate (graph : Graph) (context : String)
    (reports : AnalysisType → Option String → RelationshipReport) : Prop where
  listed : ∃ edges : List Edge, edges.Nodup ∧
    (∀ edge, edge ∈ edges ↔ IsReported graph context edge) ∧
    (reports .all none).relations = edges.map (shown graph)
  concatenated : ∀ element, (reports .all element).relations =
    AnalysisType.families.flatMap fun family => (reports family element).relations
  filtered : ∀ analysis name, name ≠ "" → (reports analysis (some name)).relations =
    (reports analysis none).relations.filter (·.touches name)
  unfiltered : ∀ analysis, reports analysis (some "") = reports analysis none
  counted : ∀ analysis element, total ((reports analysis element).countsByType.map (·.2)) =
    (reports analysis element).relations.length
  present : ∀ analysis element label count, (label, count) ∈ (reports analysis element).nodeCounts ↔
    count = (graph.nodesWith label context).length ∧ graph.nodesWith label context ≠ []
  ordered : ∀ analysis element, (reports analysis element).nodeCounts.Pairwise CountsBefore
  orphaned : ∀ analysis element, ∃ nodes : List Node, nodes.Nodup ∧
    (reports analysis element).orphans = nodes.map (fun node => (node.label, node.displayName)) ∧
    (∀ node ∈ nodes, Edgeless graph context node) ∧
    nodes.Pairwise (fun a b => place a.label ≤ place b.label) ∧ nodes.length ≤ 10 ∧
    (nodes.length < 10 → ∀ node, Edgeless graph context node → node ∈ nodes)

theorem orphans_shown (wf : WellFormed graph) (context : String) : ∃ nodes : List Node,
    nodes.Nodup ∧ orphans graph context = nodes.map (fun node => (node.label, node.displayName)) ∧
    (∀ node ∈ nodes, Edgeless graph context node) ∧
    nodes.Pairwise (fun a b => place a.label ≤ place b.label) ∧ nodes.length ≤ 10 ∧
    (nodes.length < 10 → ∀ node, Edgeless graph context node → node ∈ nodes) := by
  have front := List.take_sublist maxOrphans (edgeless graph context)
  refine ⟨(edgeless graph context).take maxOrphans, (nodup_edgeless wf context).sublist front,
    orphans_eq graph context, fun node mem => mem_edgeless.mp (front.subset mem),
    (edgeless_ordered graph context).sublist front, List.length_take_le _ _, ?_⟩
  intro short node alone
  rw [List.length_take, maxOrphans] at short
  have whole : (edgeless graph context).length ≤ maxOrphans := by
    rw [maxOrphans]
    omega
  rw [List.take_of_length_le whole]
  exact mem_edgeless.mpr alone

theorem accurate_of_answers (wf : WellFormed graph)
    {reports : AnalysisType → Option String → RelationshipReport}
    (h : ∀ analysis element, analyzeContext graph context analysis element =
      .ok (reports analysis element)) : Accurate graph context reports where
  listed := ⟨reported graph context, nodup_reported wf context, fun _ => mem_reported wf,
    analysis_shows wf (h .all none)⟩
  concatenated element := analysis_concatenated fun analysis => h analysis element
  filtered analysis name given := analysis_filtered given (h analysis none) (h analysis (some name))
  unfiltered analysis := by
    have answer := h analysis (some "")
    rw [analysis_unfiltered, h analysis none] at answer
    exact (Except.ok.inj answer).symm
  counted analysis element := total_counts_by_type _
  present analysis element label count := by
    rw [(analysis_ok (h analysis element)).2.2.1]
    exact mem_node_counts
  ordered analysis element := by
    rw [(analysis_ok (h analysis element)).2.2.1]
    exact node_counts_ordered graph context
  orphaned analysis element := by
    rw [(analysis_ok (h analysis element)).2.2.2]
    exact orphans_shown wf context

/-- After any run that supplies lists where it links imports, every analysis of every context is
answered, and the answers are accurate. -/
theorem analysis_accurate {steps : List Runs.Step} {project branch : Option String}
    (supplies : ∀ step ∈ steps, step.operation.SuppliesLists)
    (settled : Indexing.contextKey project branch = .ok context) :
    ∃ reports : AnalysisType → Option String → RelationshipReport,
      (∀ analysis element,
        analyze project branch analysis.name element ⟨Runs.run steps, true⟩ =
          (.ok (reports analysis element), ⟨Runs.run steps, true⟩)) ∧
      Accurate (Runs.run steps) context reports := by
  have readable := Runs.run_keeps_lists supplies
  choose reports answered using analysis_answers readable context
  refine ⟨reports, ?_, ?_⟩
  · intro analysis element
    rw [analyze_settled settled, answered analysis element]
  · exact accurate_of_answers (Runs.run_well_formed steps).1 answered

/-- A page with every kind of relationship, one of them a page pattern, and a library apart. -/
def garage : List Runs.Step := [
  ⟨{ now := 1 }, .indexElements {
      functions := [⟨"drive", "{ start(); new Car(); }"⟩, ⟨"start", "{}"⟩]
      classes := [⟨"Car", "class Car extends Machine implements Wheeled {}"⟩]
      patterns := [⟨"getServerSideProps", "ssr", [], ""⟩]
      imports := [⟨"parts", ["wheel"]⟩] } "garage.ts" "typescript" none none⟩,
  ⟨{ now := 2 }, .upsert ⟨"Library", [("name", .text "parts")], [], "default:main"⟩⟩]

/-- What is reported of the garage: six relations, none of them the page
pattern, and one orphan. -/
theorem garage_analysis_accurate :
    (∃ reports : AnalysisType → Option String → RelationshipReport,
      (∀ analysis element,
        analyze none none analysis.name element ⟨Runs.run garage, true⟩ =
          (.ok (reports analysis element), ⟨Runs.run garage, true⟩)) ∧
      Accurate (Runs.run garage) "default:main" reports) ∧
    (analyze none none "all" none ⟨Runs.run garage, true⟩).1.toOption.map (fun report =>
        (report.relations.map fun relation => (relation.source, relation.target, relation.type),
          report.orphans)) =
      some ([("drive", "start", .calls), ("drive", "Car", .calls), ("Car", "Machine", .inherits),
          ("Car", "Wheeled", .implements), ("garage.ts", "parts", .imports),
          ("drive", "Car", .instantiates)],
        [(.library, "parts")]) := by
  refine ⟨analysis_accurate (fun step mem => ?_) rfl, by decide +kernel⟩
  simp only [garage, List.mem_cons, List.not_mem_nil, or_false] at mem
  rcases mem with rfl | rfl <;> trivial

end CodeAtlas.Review
