import CodeAtlas.Proofs.Batch
import CodeAtlas.Proofs.Distinct
import CodeAtlas.Proofs.Growth

/-! Indexing a file, item by item. The report and the graph are both read off two lists of results:
one for the planned elements, one for the relationships of those of which no namesake failed. -/
namespace CodeAtlas.Indexing

open CodeAtlas.Graph
open CodeAtlas.Relations (Failure Relationship infer writeRelationship)
open CodeAtlas.Source (Elements)

variable {here : Conditions} {graph next before last : Graph} {elements : Elements}
  {path language context : String}

/-- Whether every planned write of a label and a name succeeded. -/
def Spared (written : List (PlannedWrite × Except Error Unit)) (label : Label) (name : String) :
    Prop :=
  ∀ item ∈ failed written, ¬ (item.1.identity.label = label ∧ item.1.name = name)

instance (written : List (PlannedWrite × Except Error Unit)) (label : Label) (name : String) :
    Decidable (Spared written label name) :=
  inferInstanceAs (Decidable (∀ item ∈ failed written,
    ¬ (item.1.identity.label = label ∧ item.1.name = name)))

def spared (written : List (PlannedWrite × Except Error Unit)) (elements : Elements) : Elements :=
  { elements with
    functions := elements.functions.filter fun function => Spared written .function function.name
    classes := elements.classes.filter fun classDef => Spared written .classDef classDef.name }

def elementFailure (item : PlannedWrite × Error) : Failure :=
  ⟨.node item.1.identity.label, item.1.name, item.2.message⟩

def relationshipFailure (item : Relationship × Error) : Failure :=
  ⟨.edge item.1.type, item.1.sourceName ++ "->" ++ item.1.targetName, item.2.message⟩

/-- The node of an element and the edge from its file are in the graph. -/
def Held (graph : Graph) (file : Identity) (planned : PlannedWrite) : Prop :=
  graph.hasNode planned.identity.label planned.identity.id = true ∧
    (planned.edge, file.id, planned.identity.id) ∈ graph.edges.map Edge.ends

/-- The edge of a relationship is in the graph: it begins at the source and ends at a node of the
target's label, which is the target itself or one of its name in the context. -/
def Reached (graph : Graph) (language context : String) (relationship : Relationship) : Prop :=
  ∃ target ∈ graph.nodes, target.label = relationship.targetLabel ∧
    (target.id = (relationship.target language context).id ∨
      (target.displayName = relationship.targetName ∧ target.context = context)) ∧
    (relationship.type, (relationship.source language context).id, target.id) ∈
      graph.edges.map Edge.ends

/-- What a report and the graph after it have to do with the results of the single writes. -/
structure Itemised (here : Conditions) (elements : Elements) (path language context : String)
    (before : Graph) (report : Report) (last : Graph)
    (written : List (PlannedWrite × Except Error Unit))
    (related : List (Relationship × Except Error Bool)) : Prop where
  planned : written.map Prod.fst = plan elements language context
  inferred : related.map Prod.fst = infer (spared written elements)
  steps : ∃ created begun ended,
    upsert here (.file path context) [] before = .ok (created, begun) ∧
      Tried (writeElement here (.file path context)) begun written ended ∧
      Tried (writeRelationship here language context) ended related last
  counts : ∀ label, (valueOf? label report.counts).getD 0 =
    ((succeeded written).map (·.identity.label)).count label
  relationships : ∀ type, (valueOf? type report.relationships).getD 0 =
    ((succeeded related).map (·.type)).count type
  distinct_labels : (report.counts.map Prod.fst).Nodup
  distinct_types : (report.relationships.map Prod.fst).Nodup
  failures : report.failures =
    (failed written).map elementFailure ++ (failed related).map relationshipFailure
  held : ∀ planned ∈ succeeded written, Held last (.file path context) planned
  reached : ∀ relationship ∈ succeeded related, Reached last language context relationship
  filePath : report.filePath = some path
  context : report.context = context

theorem Held.mono {file : Identity} {planned : PlannedWrite} (h : Held graph file planned)
    (grows : Grows graph next) : Held next file planned :=
  ⟨grows.hasNode h.1, grows.edges h.2⟩

theorem element_grows {file : Identity} {planned : PlannedWrite} (fits : planned.Fits context)
    (h : writeElement here file planned graph = .ok ((), next)) : Grows graph next :=
  (grows_moves here).element file planned fits.proper _ _ _ h

theorem element_held {file : Identity} {planned : PlannedWrite}
    (known : graph.hasNode file.label file.id = true)
    (h : writeElement here file planned graph = .ok ((), next)) (fits : planned.Fits context) :
    Held next file planned := by
  obtain ⟨created, middle, put, linked⟩ := write_bind h
  have present := upsert_present put
  have grows := (grows_moves here).upsert _ _ fits.proper _ _ _ put
  obtain ⟨-, -, -, rfl⟩ := link_cases linked
  exact ⟨(grows_joined _ _ _ _ _).hasNode present,
    mem_ends_joined.mpr (.inr ⟨grows.hasNode known, present, rfl⟩)⟩

theorem relationship_grows {relationship : Relationship} {created : Bool}
    (kind : relationship.kind ∈ Relations.inferredKinds)
    (h : writeRelationship here language context relationship graph = .ok (created, next)) :
    Grows graph next :=
  (grows_moves here).indexes.relationship language context kind _ _ _ h

theorem relationship_keeps_nodes {relationship : Relationship} {created : Bool}
    (h : writeRelationship here language context relationship graph = .ok (created, next)) :
    graph.nodes ⊆ next.nodes := by
  obtain ⟨⟨target, fresh⟩, middle, resolved, h⟩ := write_bind h
  obtain ⟨_, joined, linked, h⟩ := write_bind h
  obtain ⟨-, rfl⟩ := write_pure h
  obtain ⟨-, -, -, rfl⟩ := link_cases linked
  rw [nodes_joined]
  rcases Relations.resolve_cases resolved with ⟨_, -, -, -, rfl⟩ | ⟨-, -, -, _, ensured⟩
  · exact List.Subset.refl _
  · exact ensure_keeps_nodes ensured

theorem Reached.mono {relationship : Relationship} (h : Reached graph language context relationship)
    (nodes : graph.nodes ⊆ next.nodes) (grows : Grows graph next) :
    Reached next language context relationship := by
  obtain ⟨target, mem, label, named, edge⟩ := h
  exact ⟨target, nodes mem, label, named, grows.edges edge⟩

theorem resolved_present {label : Label} {name : String} {target : Endpoint} {created : Bool}
    (h : Relations.resolveTarget here label name language context graph =
      .ok ((target, created), next)) :
    target.label = label ∧ ∃ node ∈ next.nodes, node.label = label ∧ node.id = target.id ∧
      (node.id = (Relations.elementIdentity label name language context).id ∨
        (node.displayName = name ∧ node.context = context)) := by
  refine ⟨Relations.target_label h, ?_⟩
  rcases Relations.resolve_cases h with ⟨node, known, rfl, -, rfl⟩ | ⟨-, -, rfl, _, ensured⟩
  · obtain ⟨mem, label, named⟩ := Relations.target_node_known known
    exact ⟨node, mem, label, rfl, named⟩
  · obtain ⟨node, mem, label, id⟩ := has_node_iff.mp (ensure_present ensured)
    exact ⟨node, mem, label.trans (Relations.label_elementIdentity _ _ _ _), id, .inl id⟩

theorem relationship_reached {relationship : Relationship} {created : Bool}
    (known : graph.hasNode relationship.sourceLabel
      (relationship.source language context).id = true)
    (h : writeRelationship here language context relationship graph = .ok (created, next)) :
    Reached next language context relationship := by
  obtain ⟨⟨target, fresh⟩, middle, resolved, h⟩ := write_bind h
  obtain ⟨_, joined, linked, h⟩ := write_bind h
  obtain ⟨-, rfl⟩ := write_pure h
  obtain ⟨-, -, -, rfl⟩ := link_cases linked
  obtain ⟨label, node, mem, labelled, id, named⟩ := resolved_present resolved
  have begins : middle.hasNode (relationship.source language context).label
      (relationship.source language context).id = true := by
    rw [Relationship.source, Relations.label_elementIdentity]
    rcases Relations.resolve_cases resolved with ⟨_, -, -, -, rfl⟩ | ⟨-, -, -, _, ensured⟩
    · exact known
    · obtain ⟨node, mem, is⟩ := has_node_iff.mp known
      exact has_node_iff.mpr ⟨node, ensure_keeps_nodes ensured mem, is⟩
  have ends : middle.hasNode target.label target.id = true :=
    has_node_iff.mpr ⟨node, mem, labelled.trans label.symm, id⟩
  refine ⟨node, ?_, labelled, named, mem_ends_joined.mpr (.inr ⟨begins, ends, ?_⟩)⟩
  · rw [nodes_joined]
    exact mem
  · rw [id]
    rfl

/-! The reports, read off the results. -/

def reportOf (path context : String) (written : List (PlannedWrite × Except Error Unit)) : Report :=
  written.foldl (fun report item => report.record item.1.identity.label item.1.name item.2)
    ⟨some path, context, [], [], []⟩

def outcomeOf (related : List (Relationship × Except Error Bool)) : Relations.Outcome :=
  related.foldl (fun outcome item => outcome.record item.1 item.2) {}

theorem record_results {α : Type} (label : α → Label) (name : α → String)
    (results : List (α × Except Error Unit)) (start : Report) :
    results.foldl (fun report item => report.record (label item.1) (name item.1) item.2) start =
      { start with
        counts := ((succeeded results).map label).foldl
          (fun counts label => countOne label counts) start.counts
        failures := start.failures ++ (failed results).map fun item =>
          ⟨.node (label item.1), name item.1, item.2.message⟩ } := by
  induction results generalizing start with
  | nil => simp [succeeded, failed]
  | cons item results ih =>
    obtain ⟨item, _ | _⟩ := item <;> rw [List.foldl_cons, ih] <;> simp [Report.record]

theorem record_relationships (related : List (Relationship × Except Error Bool))
    (start : Relations.Outcome) :
    (related.foldl (fun outcome item => outcome.record item.1 item.2) start).counts =
        ((succeeded related).map (·.type)).foldl (fun counts type => countOne type counts)
          start.counts ∧
      (related.foldl (fun outcome item => outcome.record item.1 item.2) start).failures =
        start.failures ++ (failed related).map relationshipFailure := by
  induction related generalizing start with
  | nil => simp [succeeded, failed]
  | cons item related ih =>
    obtain ⟨relationship, _ | _⟩ := item <;> rw [List.foldl_cons, (ih _).1, (ih _).2]
    · simp [Relations.Outcome.record, relationshipFailure]
    · simp [Relations.Outcome.record]

/-- The report of some results under whichever labels and names they are listed, with those of the
relationships that followed. -/
def reported {α : Type} (filePath : Option String) (context : String) (label : α → Label)
    (name : α → String) (written : List (α × Except Error Unit))
    (related : List (Relationship × Except Error Bool)) : Report :=
  let report : Report :=
    written.foldl (fun report item => report.record (label item.1) (name item.1) item.2)
      ⟨filePath, context, [], [], []⟩
  report.withRelationships (outcomeOf related)

theorem reported_failures {α : Type} {filePath : Option String} {label : α → Label}
    {name : α → String} {written : List (α × Except Error Unit)}
    {related : List (Relationship × Except Error Bool)} :
    (reported filePath context label name written related).failures = [] ↔
      failed written = [] ∧ failed related = [] := by
  have failures := (record_relationships related {}).2
  rw [reported, record_results, Report.withRelationships, outcomeOf]
  dsimp only
  rw [failures]
  simp

theorem reported_elements (path context : String)
    (written : List (PlannedWrite × Except Error Unit))
    (related : List (Relationship × Except Error Bool)) :
    (reportOf path context written).withRelationships (outcomeOf related) =
      reported (some path) context (·.identity.label) PlannedWrite.name written related := rfl

theorem hasFailed_iff {written : List (PlannedWrite × Except Error Unit)} {report : Report}
    (failures : report.failures = (failed written).map elementFailure) {label : Label}
    {name : String} : report.hasFailed label name = !decide (Spared written label name) := by
  rw [Bool.eq_iff_iff, Bool.not_eq_true', decide_eq_false_iff_not, Report.hasFailed, failures,
    List.any_map, List.any_eq_true]
  constructor
  · rintro ⟨item, mem, same⟩ whole
    obtain ⟨kinds, names⟩ := Bool.and_eq_true .. ▸ same
    exact whole item mem ⟨Relations.WriteKind.node.inj (of_decide_eq_true kinds),
      of_decide_eq_true names⟩
  · intro broken
    simp only [Spared, not_forall, not_not] at broken
    obtain ⟨item, mem, rfl, rfl⟩ := broken
    exact ⟨item, mem, by simp [elementFailure]⟩

theorem related_eq_spared (written : List (PlannedWrite × Except Error Unit)) {report : Report}
    (failures : report.failures = (failed written).map elementFailure) :
    related report elements = spared written elements := by
  simp [related, spared, hasFailed_iff failures]

theorem source_planned (language context : String) {relationship : Relationship}
    (h : relationship ∈ infer elements) :
    ∃ planned ∈ plan elements language context,
      planned.identity = relationship.source language context ∧
      planned.identity.label ∈ [Label.function, .classDef] := by
  rcases Relations.mem_infer.mp h with ⟨function, mem, h⟩ | ⟨classDef, mem, h⟩
  · obtain ⟨label, name, -⟩ := Relations.of_function_shape h
    refine ⟨_, function_planned mem, ?_, by simp [Identity.named]⟩
    rw [Relationship.source, label, name]
    rfl
  · obtain ⟨label, name, -⟩ := Relations.of_class_shape h
    refine ⟨_, class_planned mem, ?_, by simp [Identity.named]⟩
    rw [Relationship.source, label, name]
    rfl

/-- The source of an inferred relationship was written: all writes of its label and name
succeeded. -/
theorem source_written {written : List (PlannedWrite × Except Error Unit)}
    (planned : written.map Prod.fst = plan elements language context) {relationship : Relationship}
    (h : relationship ∈ infer (spared written elements)) :
    ∃ planned ∈ succeeded written, planned.identity = relationship.source language context ∧
      planned.identity.label = relationship.sourceLabel := by
  have settled : ∀ write ∈ plan elements language context,
      Spared written write.identity.label write.name → write ∈ succeeded written := by
    intro write mem whole
    rw [← planned] at mem
    obtain ⟨⟨write, error | value⟩, tried, rfl⟩ := List.mem_map.mp mem
    · exact absurd ⟨rfl, rfl⟩ (whole (write, error) (mem_failed.mpr tried))
    · exact mem_succeeded.mpr ⟨value, tried⟩
  rcases Relations.mem_infer.mp h with ⟨function, mem, h⟩ | ⟨classDef, mem, h⟩
  · obtain ⟨label, name, -⟩ := Relations.of_function_shape h
    obtain ⟨mem, whole⟩ := List.mem_filter.mp mem
    refine ⟨_, settled _ (function_planned mem) (of_decide_eq_true whole), ?_, label.symm⟩
    rw [Relationship.source, label, name]
    rfl
  · obtain ⟨label, name, -⟩ := Relations.of_class_shape h
    obtain ⟨mem, whole⟩ := List.mem_filter.mp mem
    refine ⟨_, settled _ (class_planned mem) (of_decide_eq_true whole), ?_, label.symm⟩
    rw [Relationship.source, label, name]
    rfl

theorem elements_held {file : Identity} {written : List (PlannedWrite × Except Error Unit)}
    (tried : Tried (writeElement here file) graph written last)
    (fits : ∀ planned ∈ written.map Prod.fst, planned.Fits context)
    (known : graph.hasNode file.label file.id = true) :
    ∀ planned ∈ succeeded written, Held last file planned := by
  intro planned mem
  obtain ⟨value, mem⟩ := mem_succeeded.mp mem
  refine tried.result (I := fun graph => graph.hasNode file.label file.id = true)
    (P := fun planned _ graph => Held graph file planned) known ?_ ?_ mem
  · intro planned mem graph _ next known done
    exact ⟨(element_grows (fits planned mem) done).hasNode known,
      element_held known done (fits planned mem)⟩
  · intro planned mem graph _ next other _ held done
    exact held.mono (element_grows (fits planned mem) done)

theorem relationships_grow {related : List (Relationship × Except Error Bool)}
    (tried : Tried (writeRelationship here language context) graph related last)
    (kinds : ∀ relationship ∈ related.map Prod.fst, relationship.kind ∈ Relations.inferredKinds) :
    Grows graph last := by
  refine tried.invariant (P := Grows graph) ((grows_moves here).refl graph) ?_
  intro relationship mem middle _ next grown done
  exact (grows_moves here).trans grown (relationship_grows (kinds relationship mem) done)

theorem relationships_reached {related : List (Relationship × Except Error Bool)}
    (tried : Tried (writeRelationship here language context) graph related last)
    (kinds : ∀ relationship ∈ related.map Prod.fst, relationship.kind ∈ Relations.inferredKinds)
    (known : ∀ relationship ∈ related.map Prod.fst,
      graph.hasNode relationship.sourceLabel (relationship.source language context).id = true) :
    ∀ relationship ∈ succeeded related, Reached last language context relationship := by
  intro relationship mem
  obtain ⟨value, mem⟩ := mem_succeeded.mp mem
  refine tried.result
    (I := fun graph => ∀ relationship ∈ related.map Prod.fst,
      graph.hasNode relationship.sourceLabel (relationship.source language context).id = true)
    (P := fun relationship _ graph => Reached graph language context relationship) known ?_ ?_ mem
  · intro relationship mem graph _ next known done
    exact ⟨fun other mem' => (relationship_grows (kinds relationship mem) done).hasNode
      (known other mem'), relationship_reached (known relationship mem) done⟩
  · intro relationship mem graph _ next other _ reached done
    exact reached.mono (relationship_keeps_nodes done)
      (relationship_grows (kinds relationship mem) done)

theorem write_plan_apply {writes : List PlannedWrite}
    (fits : ∀ planned ∈ writes, planned.Fits context) (start : Report) (graph : Graph) :
    writePlan here (.file path context) writes start graph =
      (.ok ((tryAll (writeElement here (.file path context)) writes graph).1.foldl
        (fun report item => report.record item.1.identity.label item.1.name item.2) start),
      (tryAll (writeElement here (.file path context)) writes graph).2) :=
  batch_apply (fun (report : Report) (planned : PlannedWrite) result =>
    report.record planned.identity.label planned.name result)
    (fun planned mem _ _ h => element_error (fits planned mem) h) start graph

theorem extract_apply (elements : Elements) (graph : Graph) :
    Relations.extract here elements language context graph =
      (.ok (outcomeOf (tryAll (writeRelationship here language context) (infer elements) graph).1),
      (tryAll (writeRelationship here language context) (infer elements) graph).2) :=
  batch_apply Relations.Outcome.record
    (fun _ mem _ _ h => Relations.relationship_refused (Relations.infer_kind mem) h) {} graph

def tryPlan (here : Conditions) (elements : Elements) (path language context : String)
    (begun : Graph) : List (PlannedWrite × Except Error Unit) × Graph :=
  tryAll (writeElement here (.file path context)) (plan elements language context) begun

def tryRelated (here : Conditions) (elements : Elements) (language context : String)
    (ended : Graph) : List (Relationship × Except Error Bool) × Graph :=
  tryAll (writeRelationship here language context) (infer elements) ended

theorem index_elements_as_apply (form : Relations.LanguageForm) (here : Conditions)
    (elements : Elements) (path language context : String) (before : Graph) :
    indexElementsAs form here elements path language context before =
      match upsert here (.file path context) [] before with
      | .error error => (.error error, before)
      | .ok (_, begun) =>
        let written := tryPlan here elements path language context begun
        match Relations.extractAs form here (spared written.1 elements) language context
          written.2 with
        | (.error error, last) => (.error error, last)
        | (.ok outcome, last) =>
          (.ok ((reportOf path context written.1).withRelationships outcome), last) := by
  rw [indexElementsAs, session_bind_apply, commit_apply]
  cases upsert here (.file path context) [] before with
  | error error => rfl
  | ok pair =>
    have tried : tryAll (writeElement here (.file path context)) (plan elements language context)
      pair.2 = tryPlan here elements path language context pair.2 := rfl
    dsimp only
    rw [session_bind_apply, write_plan_apply fun planned mem => plan_fits mem]
    dsimp only
    rw [session_bind_apply, tried, related_eq_spared
      (tryPlan here elements path language context pair.2).1
      (by rw [record_results (·.identity.label) PlannedWrite.name]; rfl)]
    rcases Relations.extractAs form here
      (spared (tryPlan here elements path language context pair.2).1 elements) language context
      (tryPlan here elements path language context pair.2).2 with ⟨_ | _, _⟩ <;> rfl

/-- Once the file is written, indexing its elements is trying them and then their relationships. -/
theorem index_elements_apply (here : Conditions) (elements : Elements)
    (path language context : String) (before : Graph) :
    indexElements here elements path language context before =
      match upsert here (.file path context) [] before with
      | .error error => (.error error, before)
      | .ok (_, begun) =>
        let written := tryPlan here elements path language context begun
        let related := tryRelated here (spared written.1 elements) language context written.2
        (.ok ((reportOf path context written.1).withRelationships (outcomeOf related.1)),
          related.2) := by
  rw [indexElements, index_elements_as_apply]
  cases upsert here (.file path context) [] before with
  | error error => rfl
  | ok pair =>
    dsimp only
    rw [← Relations.extract, extract_apply]
    rfl

def looseElements (functions : List LooseFunction) : Elements :=
  { functions := functions.map fun function => ⟨function.name, function.body⟩ }

def looseReportOf (context : String) (written : List (LooseFunction × Except Error Unit)) :
    Report :=
  written.foldl (fun report item => report.record .function item.1.name item.2)
    ⟨none, context, [], [], []⟩

theorem write_functions_apply (functions : List LooseFunction) (graph : Graph) :
    writeFunctions here functions language context graph =
      (.ok (looseReportOf context
        (tryAll (writeFunction here language context) functions graph).1),
      (tryAll (writeFunction here language context) functions graph).2) :=
  batch_apply (fun (report : Report) (function : LooseFunction) result =>
    report.record .function function.name result) (fun _ _ _ _ h => function_error h) _ graph

theorem loose_written {functions : List LooseFunction}
    {written : List (LooseFunction × Except Error Unit)} (items : written.map Prod.fst = functions)
    {function : LooseFunction}
    (mem : function ∈ writtenFunctions (looseReportOf context written) functions) :
    function ∈ succeeded written := by
  obtain ⟨mem, whole⟩ := List.mem_filter.mp mem
  rw [← items] at mem
  obtain ⟨⟨function, error | value⟩, tried, rfl⟩ := List.mem_map.mp mem
  · have listed : (looseReportOf context written).hasFailed .function function.name = true := by
      rw [looseReportOf, record_results (fun _ => .function) LooseFunction.name]
      refine List.any_eq_true.mpr ⟨_, List.mem_append_right _ (List.mem_map_of_mem
        (mem_failed.mpr tried)), ?_⟩
      simp
    simp [listed] at whole
  · exact mem_succeeded.mpr ⟨value, tried⟩

theorem loose_source_written (language : String) {functions : List LooseFunction}
    {written : List (LooseFunction × Except Error Unit)} (items : written.map Prod.fst = functions)
    {relationship : Relationship} (h : relationship ∈ infer (looseElements
      (writtenFunctions (looseReportOf context written) functions))) :
    ∃ function ∈ succeeded written,
      Identity.named .function function.name language context =
        relationship.source language context ∧ relationship.sourceLabel = .function := by
  rcases Relations.mem_infer.mp h with ⟨element, mem, h⟩ | ⟨classDef, mem, -⟩
  · obtain ⟨function, inside, rfl⟩ := List.mem_map.mp mem
    obtain ⟨label, name, -⟩ := Relations.of_function_shape h
    refine ⟨function, loose_written items inside, ?_, label⟩
    rw [Relationship.source, label, name]
    rfl
  · cases mem

theorem index_functions_apply (here : Conditions) (functions : List LooseFunction)
    (language context : String) (before : Graph) :
    indexFunctions here functions language context before =
      let written := tryAll (writeFunction here language context) functions before
      let report := looseReportOf context written.1
      let related := tryRelated here (looseElements (writtenFunctions report functions)) language
        context written.2
      (.ok (report.withRelationships (outcomeOf related.1)), related.2) := by
  rw [indexFunctions, session_bind_apply, write_functions_apply]
  dsimp only
  rw [session_bind_apply, extract_apply]
  rfl

theorem report_itemised {created : Bool} {begun ended : Graph}
    {written : List (PlannedWrite × Except Error Unit)}
    {related : List (Relationship × Except Error Bool)}
    (put : upsert here (.file path context) [] before = .ok (created, begun))
    (tried : Tried (writeElement here (.file path context)) begun written ended)
    (planned : written.map Prod.fst = plan elements language context)
    (followed : Tried (writeRelationship here language context) ended related last)
    (inferred : related.map Prod.fst = infer (spared written elements)) :
    Itemised here elements path language context before
      ((reportOf path context written).withRelationships (outcomeOf related)) last
      written related := by
  have fits : ∀ write ∈ written.map Prod.fst, write.Fits context := by
    rw [planned]
    exact fun write mem => plan_fits mem
  have kinds : ∀ relationship ∈ related.map Prod.fst,
      relationship.kind ∈ Relations.inferredKinds := by
    rw [inferred]
    exact fun relationship mem => Relations.infer_kind mem
  have held := elements_held tried fits (upsert_present put)
  have known : ∀ relationship ∈ related.map Prod.fst,
      ended.hasNode relationship.sourceLabel (relationship.source language context).id = true := by
    rw [inferred]
    intro relationship mem
    obtain ⟨write, mem, source, label⟩ := source_written planned mem
    rw [← label, ← source]
    exact (held write mem).1
  obtain ⟨counts, failures⟩ := record_relationships related {}
  rw [reportOf, record_results (·.identity.label) PlannedWrite.name, outcomeOf]
  exact
    { planned, inferred
      steps := ⟨created, begun, ended, put, tried, followed⟩
      counts := fun label => valueOf?_tally _ label
      relationships := fun type => by
        rw [Report.withRelationships, counts]
        exact valueOf?_tally _ type
      distinct_labels := nodup_keys_tally _
      distinct_types := by
        rw [Report.withRelationships, counts]
        exact nodup_keys_tally _
      failures := by
        rw [Report.withRelationships, failures]
        rfl
      held := fun write mem => (held write mem).mono (relationships_grow followed kinds)
      reached := relationships_reached followed kinds known
      filePath := rfl
      context := rfl }

theorem itemised_of_report {report : Report}
    (done : indexElements here elements path language context before = (.ok report, last)) :
    ∃ written related,
      Itemised here elements path language context before report last written related := by
  rw [index_elements_apply] at done
  cases put : upsert here (.file path context) [] before with
  | error error =>
    rw [put] at done
    cases (Prod.mk.inj done).1
  | ok pair =>
    rw [put] at done
    obtain ⟨reported, rfl⟩ := Prod.mk.inj done
    obtain rfl := Except.ok.inj reported
    exact ⟨_, _, report_itemised put (tried_tryAll _ _ _) (items_tryAll _ _ _)
      (tried_tryAll _ _ _) (items_tryAll _ _ _)⟩

/-- Indexing the elements of a file raises only when the file's node cannot be written, and then
nothing is. Otherwise the outcome is itemised: what failed is listed and left out, and all else is
counted and in the graph. -/
theorem index_elements_itemised (here : Conditions) (elements : Elements)
    (path language context : String) (before : Graph) :
    (∃ error, upsert here (.file path context) [] before = .error error ∧
      indexElements here elements path language context before = (.error error, before)) ∨
    (∃ report last written related,
      indexElements here elements path language context before = (.ok report, last) ∧
      Itemised here elements path language context before report last written related) := by
  rw [index_elements_apply]
  cases put : upsert here (.file path context) [] before with
  | error error => exact .inl ⟨error, rfl, rfl⟩
  | ok pair =>
    exact .inr ⟨_, _, _, _, rfl, report_itemised put (tried_tryAll _ _ _) (items_tryAll _ _ _)
      (tried_tryAll _ _ _) (items_tryAll _ _ _)⟩

end CodeAtlas.Indexing
