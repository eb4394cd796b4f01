import CodeAtlas.Proofs.Indexing.Readable
import CodeAtlas.Review.Analysis

/-! Reports of relationships. Everything in a report is a count or a name that the graph holds, but
for the lists on import edges, which have to be read. So a report is refused only where a stored
list cannot be read, and then it is refused as a whole. -/
namespace CodeAtlas.Review

open CodeAtlas.Graph

variable {graph : Graph} {kind : EdgeKind} {context : String} {element : Option String}
  {edge : Edge} {error : Error}

theorem map_of_mapM_ok {α β : Type} {f : α → Except Error β} {items : List α} {values : List β}
    (h : items.mapM f = .ok values) : items.map f = values.map .ok := by
  induction items generalizing values with
  | nil =>
    obtain rfl := Except.ok.inj h
    rfl
  | cons item items ih =>
    rw [List.mapM_cons] at h
    obtain ⟨value, first, h⟩ := except_bind h
    obtain ⟨rest, others, h⟩ := except_bind h
    obtain rfl := Except.ok.inj h
    rw [List.map_cons, List.map_cons, first, ih others]

theorem mapM_error {α β : Type} {f : α → Except Error β} {items : List α}
    (h : items.mapM f = .error error) : ∃ item ∈ items, f item = .error error := by
  induction items with
  | nil => cases h
  | cons item items ih =>
    rw [List.mapM_cons] at h
    cases first : f item with
    | error refused =>
      rw [first] at h
      obtain rfl := Except.error.inj h
      exact ⟨item, List.mem_cons_self, first⟩
    | ok value =>
      cases rest : items.mapM f with
      | error refused =>
        rw [first, rest] at h
        obtain rfl := Except.error.inj h
        obtain ⟨other, mem, failed⟩ := ih rest
        exact ⟨other, List.mem_cons_of_mem _ mem, failed⟩
      | ok values =>
        rw [first, rest] at h
        cases h

theorem of_name_name (analysis : AnalysisType) :
    AnalysisType.ofName analysis.name = .ok analysis := by
  cases analysis <;> rfl

theorem analyze_settled {project branch : Option String}
    (settled : Indexing.contextKey project branch = .ok context) (analysis : AnalysisType)
    (element : Option String) (graph : Graph) :
    analyze project branch analysis.name element ⟨graph, true⟩ =
      (analyzeContext graph context analysis element, ⟨graph, true⟩) := by
  unfold Indexing.contextKey at settled
  cases resolved : BranchContext.resolve project branch with
  | error error =>
    rw [resolved] at settled
    cases settled
  | ok place =>
    rw [resolved] at settled
    obtain rfl := Except.ok.inj settled
    rw [analyze, analyzeNamed, of_name_name, resolved]
    rfl

theorem relation_eq_some {result : Except Error Relation} :
    relation? graph kind context element edge = some result ↔
      edge.type = kind.type ∧ edge.context = context ∧
      ∃ source target, graph.node? kind.source edge.source = some source ∧
        graph.node? kind.target edge.target = some target ∧
        touches element source.displayName target.displayName = true ∧
        result = (detailsOf edge).map (⟨source.displayName, target.displayName, kind.type, ·⟩) := by
  unfold relation?
  split_ifs with listed
  · rw [Bool.and_eq_true, decide_eq_true_eq, decide_eq_true_eq] at listed
    cases begins : graph.node? kind.source edge.source with
    | none => simp
    | some source =>
      cases ends : graph.node? kind.target edge.target with
      | none => simp
      | some target =>
        cases shown : touches element source.displayName target.displayName <;>
          simp [listed, shown, eq_comm (b := result)]
  · rw [Bool.and_eq_true, decide_eq_true_eq, decide_eq_true_eq] at listed
    exact iff_of_false (by simp) fun h => listed ⟨h.1, h.2.1⟩

theorem details_error (h : detailsOf edge = .error error) :
    error = .malformedList ∧ edge.type = .imports ∧
      decodeList edge.imports = .error .malformedList := by
  unfold detailsOf at h
  split_ifs at h with type
  have only : error = .malformedList := by
    unfold decodeList at h
    split at h
    · cases h
    · split_ifs at h
      split at h
      · cases h
      · exact (Except.error.inj h).symm
  exact ⟨only, type, only ▸ h⟩

theorem listed_of_relations {found : List Relation}
    (h : relations graph kind context element = .ok found) :
    graph.edges.filterMap (relation? graph kind context element) = found.map .ok :=
  (List.map_id _).symm.trans (map_of_mapM_ok h)

/-- A context in which some import has a list that cannot be read. -/
def HoldsUnreadable (graph : Graph) (context : String) : Prop :=
  ∃ edge ∈ graph.edges, edge.type = .imports ∧ edge.context = context ∧
    decodeList edge.imports = .error .malformedList

theorem relations_error (h : relations graph kind context element = .error error) :
    error = .malformedList ∧ kind.type = .imports ∧ HoldsUnreadable graph context := by
  obtain ⟨result, mem, failed⟩ := mapM_error h
  obtain ⟨edge, known, listed⟩ := List.mem_filterMap.mp mem
  obtain ⟨listed, inside, source, target, -, -, -, result⟩ := relation_eq_some.mp listed
  have unread : detailsOf edge = .error error := by
    cases details : detailsOf edge with
    | error refused =>
      rw [result, details] at failed
      obtain rfl := Except.error.inj failed
      rfl
    | ok value =>
      rw [result, details] at failed
      cases failed
  obtain ⟨only, type, unreadable⟩ := details_error unread
  exact ⟨only, listed ▸ type, edge, known, type, inside, unreadable⟩

def AnalysisType.ListsImports (analysis : AnalysisType) : Prop :=
  ∃ kind ∈ analysis.kinds, kind.type = .imports

instance (analysis : AnalysisType) : Decidable analysis.ListsImports :=
  inferInstanceAs (Decidable (∃ kind ∈ analysis.kinds, kind.type = .imports))

theorem analysis_error {analysis : AnalysisType}
    (h : analyzeContext graph context analysis element = .error error) :
    error = .malformedList ∧ analysis.ListsImports ∧ HoldsUnreadable graph context := by
  unfold analyzeContext at h
  cases found : analysis.kinds.mapM fun kind => relations graph kind context element with
  | error refused =>
    rw [found] at h
    obtain rfl := Except.error.inj h
    obtain ⟨kind, mem, failed⟩ := mapM_error found
    obtain ⟨only, imports, unreadable⟩ := relations_error failed
    exact ⟨only, ⟨kind, mem, imports⟩, unreadable⟩
  | ok listed =>
    rw [found] at h
    cases h

theorem analysis_ok {analysis : AnalysisType} {report : RelationshipReport}
    (h : analyzeContext graph context analysis element = .ok report) :
    report.context = context ∧ report.analysis = analysis ∧
      report.nodeCounts = nodeCounts graph context ∧ report.orphans = orphans graph context := by
  unfold analyzeContext at h
  cases found : analysis.kinds.mapM fun kind => relations graph kind context element with
  | error refused =>
    rw [found] at h
    cases h
  | ok listed =>
    rw [found] at h
    obtain rfl := Except.ok.inj h
    exact ⟨rfl, rfl, rfl, rfl⟩

/-- Where all lists can be read there is always a report. -/
theorem analysis_answers (readable : ListsReadable graph) (context : String)
    (analysis : AnalysisType) (element : Option String) :
    ∃ report, analyzeContext graph context analysis element = .ok report := by
  cases analysed : analyzeContext graph context analysis element with
  | ok report => exact ⟨report, rfl⟩
  | error refused =>
    obtain ⟨-, -, edge, mem, -, -, unreadable⟩ := analysis_error analysed
    obtain ⟨value, read⟩ := readable edge mem
    rw [read] at unreadable
    cases unreadable

theorem imports_analysed {report : RelationshipReport}
    (h : analyzeContext graph context .imports element = .ok report) :
    relations graph ⟨.imports, .file, .importedModule⟩ context element = .ok report.relations := by
  unfold analyzeContext at h
  rw [AnalysisType.kinds, List.mapM_cons, List.mapM_nil] at h
  cases found : relations graph ⟨.imports, .file, .importedModule⟩ context element with
  | error refused =>
    rw [found] at h
    cases h
  | ok listed =>
    rw [found] at h
    obtain rfl := Except.ok.inj h
    simp

end CodeAtlas.Review
