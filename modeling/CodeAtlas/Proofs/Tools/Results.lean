import CodeAtlas.Proofs.Json.Roundtrip
import CodeAtlas.Proofs.Json.Units
import CodeAtlas.Proofs.Review.Analysis
import CodeAtlas.Proofs.Tools.Status

/-! What is read from the answer of a tool. Every part of a result is a JSON value, no name is taken
twice, and none of them is that of the status. So the text of an answer reads back as the status and
the result, whatever characters the texts in it are made of. -/
namespace CodeAtlas

open CodeAtlas.Graph
open CodeAtlas.Json (Proper)

/-! Reports as values. -/

theorem edge_name_injective : Function.Injective EdgeType.name := by
  intro a b h
  cases a <;> cases b <;> first | rfl | (exact absurd h (by decide))

theorem label_counts_proper {counts : List (Label × Nat)} (once : (counts.map Prod.fst).Nodup) :
    Proper (labelCounts counts) :=
  .counts label_name_injective once

theorem edge_counts_proper {counts : List (EdgeType × Nat)} (once : (counts.map Prod.fst).Nodup) :
    Proper (edgeCounts counts) :=
  .counts edge_name_injective once

theorem failures_as_proper {names : List Json} (proper : ∀ name ∈ names, Proper name)
    (failures : List Relations.Failure) : ∀ shown ∈ failuresAs names failures, Proper shown := by
  have each (failure : Relations.Failure) {name : Json} (named : Proper name) :
      Proper (failure.toJsonAs name) := .object (by simp) (by simp [named])
  induction names generalizing failures with
  | nil =>
    rw [Tools.failuresAs_nil]
    intro shown mem
    obtain ⟨failure, -, rfl⟩ := List.mem_map.mp mem
    exact each failure (.text _)
  | cons name names ih =>
    obtain ⟨first, rest⟩ := List.forall_mem_cons.mp proper
    cases failures with
    | nil => exact List.forall_mem_nil _
    | cons failure failures =>
      exact List.forall_mem_cons.mpr ⟨each failure first, ih rest failures⟩

@[simp] theorem failures_proper (failures : List Relations.Failure) :
    Proper (failureList failures) :=
  .list (failures_as_proper (List.forall_mem_nil _) failures)

@[simp] theorem findings_proper (findings : List Review.Finding) (verbose : Bool) :
    Proper (.list (findings.map (Review.Finding.toJson verbose))) := by
  refine .list_map fun finding _ => ?_
  rw [Review.Finding.toJson]
  cases verbose <;> cases finding.indexedBody <;> exact .object (by simp) (by simp)

@[simp] theorem file_summary_proper (report : Review.FileReport) : Proper report.summary :=
  .object (by simp) (by simp)

@[simp] theorem issues_proper (issues : List Quality.Issue) :
    Proper (.list (issues.map Quality.Issue.toJson)) :=
  .list_map fun issue _ => .object (by simp) (by simp)

@[simp] theorem compared_proper (elements : List Review.ComparedElement) :
    Proper (.list (elements.map Review.ComparedElement.toJson)) :=
  .list_map fun element _ => .object (by simp) (by simp)

@[simp] theorem summaries_proper (summaries : List Contexts.Summary) :
    Proper (.list (summaries.map Contexts.Summary.toJson)) :=
  .list_map fun summary _ => .object (by simp) (by simp)

@[simp] theorem orphans_proper (orphans : List (Label × String)) :
    Proper (.list (orphans.map orphanJson)) :=
  .list_map fun orphan _ => .object (by simp) (by simp)

theorem relations_proper {relations : List Review.Relation}
    (each : ∀ relation ∈ relations, Proper relation.details) :
    Proper (.list (relations.map Review.Relation.toJson)) := by
  refine .list_map fun relation mem => .object (by simp) ?_
  simpa using each relation mem

/-! What is stored, and what is counted. -/

namespace Review

variable {graph : Graph} {context : String} {element : Option String} {analysis : AnalysisType}
  {report : RelationshipReport}

theorem details_proper {edge : Edge} {value : Json} (details : detailsOf edge = .ok value) :
    Proper value := by
  unfold detailsOf decodeList at details
  split_ifs at details
  · split at details
    · obtain rfl := Except.ok.inj details
      exact .list (List.forall_mem_nil _)
    · next text _ =>
      split_ifs at details
      · obtain rfl := Except.ok.inj details
        exact .list (List.forall_mem_nil _)
      · cases parsed : Json.parseStrict? text with
        | none =>
          rw [parsed] at details
          cases details
        | some value =>
          rw [parsed] at details
          obtain rfl := Except.ok.inj details
          exact Json.proper_of_parsed parsed
  · obtain rfl := Except.ok.inj details
    exact .null

theorem analysed_details_proper
    (analysed : analyzeContext graph context analysis element = .ok report) :
    ∀ relation ∈ report.relations, Proper relation.details := by
  unfold analyzeContext at analysed
  obtain ⟨found, listed, analysed⟩ := except_bind analysed
  obtain rfl := Except.ok.inj analysed
  intro relation mem
  obtain ⟨some, inside, mem⟩ := List.mem_flatten.mp mem
  have kinds :
      Except.ok some ∈ analysis.kinds.map fun kind => relations graph kind context element :=
    map_of_mapM_ok listed ▸ List.mem_map_of_mem inside
  obtain ⟨kind, -, related⟩ := List.mem_map.mp kinds
  have shown : Except.ok relation ∈ graph.edges.filterMap (relation? graph kind context element) :=
    listed_of_relations related ▸ List.mem_map_of_mem mem
  obtain ⟨edge, -, shown⟩ := List.mem_filterMap.mp shown
  obtain ⟨-, -, source, target, -, -, -, result⟩ := relation_eq_some.mp shown
  obtain ⟨value, details, rfl⟩ := relation_parts result
  exact details_proper details

theorem node_counts_once (graph : Graph) (context : String) :
    ((nodeCounts graph context).map Prod.fst).Nodup := by
  have schema : (Label.all.map fun label => (label, (graph.nodesWith label context).length)).map
      Prod.fst = Label.all := by
    rw [List.map_map]
    exact List.map_id _
  have once : Label.all.Nodup := by decide
  rw [nodeCounts, ((List.mergeSort_perm _ _).map _).nodup_iff]
  exact (schema ▸ once).sublist (List.filter_sublist.map _)

end Review

namespace Indexing

variable {here : Conditions} {graph last : Graph} {elements : Source.Elements}
  {path language context : String} {report : Report}

/-- The counts of a report hold every label and every type of edge once. -/
structure Report.Tallied (report : Report) : Prop where
  counts : (report.counts.map Prod.fst).Nodup
  relationships : (report.relationships.map Prod.fst).Nodup

theorem reported_tallied {α : Type} {filePath : Option String} {label : α → Label}
    {name : α → String} {written : List (α × Except Error Unit)}
    {related : List (Relations.Relationship × Except Error Bool)} :
    (reported filePath context label name written related).Tallied := by
  have counts := (record_relationships related {}).1
  rw [reported, record_results, Report.withRelationships, outcomeOf]
  constructor
  · exact nodup_keys_tally _
  · dsimp only
    rw [counts]
    exact nodup_keys_tally _

theorem elements_tallied {form : Relations.LanguageForm}
    (done : indexElementsAs form here elements path language context graph = (.ok report, last)) :
    report.Tallied := by
  rcases index_elements_as_cases form here elements path language context graph with
    ⟨error, refused⟩ | ⟨created, begun, -, indexed | ⟨left, -, stopped⟩⟩
  · rw [refused] at done
    cases (Prod.mk.inj done).1
  · rw [indexed] at done
    obtain rfl := Except.ok.inj (Prod.mk.inj done).1
    rw [reported_elements]
    exact reported_tallied
  · rw [stopped] at done
    cases (Prod.mk.inj done).1

theorem entries_tallied {entries : List FunctionEntry} {language : Json} {names : List Json}
    (given : entries ≠ [])
    (done : indexEntries here entries language context graph = (.ok (report, names), last)) :
    report.Tallied := by
  rcases index_entries_cases here given language context graph with
    ⟨text, -, indexed⟩ | ⟨error, left, -, stopped⟩
  · rw [indexed] at done
    obtain ⟨rfl, -⟩ := Prod.mk.inj (Except.ok.inj (Prod.mk.inj done).1)
    rw [reported_entries]
    exact reported_tallied
  · rw [stopped] at done
    cases (Prod.mk.inj done).1

theorem entry_name_proper {item : Json} {entry : FunctionEntry} (proper : Proper item)
    (read : FunctionEntry.ofJson item = .ok entry) : Proper entry.name := by
  cases proper with
  | @object fields _ each =>
    obtain ⟨name, named, read⟩ := except_bind read
    obtain ⟨body, -, read⟩ := except_bind read
    obtain rfl := Except.ok.inj read
    dsimp only at named
    split at named
    next value found =>
      obtain rfl := Except.ok.inj named
      obtain ⟨front, back, split, -⟩ := List.lookup_eq_some_iff.mp found
      exact each ("name", value) (by simp [split])
    next => cases named
  | _ => cases read

theorem entry_names_proper {items : List Json} {entries : List FunctionEntry}
    (proper : ∀ item ∈ items, Proper item) (read : items.mapM FunctionEntry.ofJson = .ok entries) :
    ∀ entry ∈ entries, Proper entry.name := by
  intro entry mem
  have kinds : Except.ok entry ∈ items.map FunctionEntry.ofJson :=
    Review.map_of_mapM_ok read ▸ List.mem_map_of_mem mem
  obtain ⟨item, inside, read⟩ := List.mem_map.mp kinds
  exact entry_name_proper (proper item inside) read

end Indexing

namespace Tools

variable {here : Conditions} {settings : Settings} {arguments : Arguments} {store after : Store}
  {answer : Answer} {name : String} {value : Json} {names : List String}

/-! The results of the tools. -/

def reportNames : List String :=
  ["file_path", "context", "counts", "relationships", "failures", "success", "total_indexed"]

def contextNames : Json → List String
  | .text "list" => ["action", "total", "contexts"]
  | .text "list-branches" => ["action", "project", "total", "branches"]
  | .text "create" => ["action", "existing_nodes", "message"]
  | .text "delete" | .text "clear" => ["action", "context", "nodes_removed"]
  | _ =>
    ["action", "project", "source_branch", "target_branch", "source_count", "target_count",
      "only_in_source", "only_in_target", "in_both"]

def Tool.resultNames (arguments : Arguments) : Tool → List String
  | indexFile | indexFunctions => reportNames
  | validateCode => ["context", "found", "not_found", "results", "summary"]
  | validateFile =>
    ["file_path", "context", "file_exists", "summary", "results", "file_status", "summary_line"]
  | checkCodeQuality =>
    ["context", "language", "naming_convention", "functions_checked", "passed", "issues", "summary"]
  | manageContexts => contextNames (arguments.get "action")
  | analyzeRelationships =>
    ["context", "analysis_type", "relationships", "node_counts", "orphans", "counts_by_type"]
  | indexDependencies =>
    ["context", "total_dependencies", "indexed_libraries", "indexed_apis", "supported",
      "unsupported", "failures"]

theorem context_names_once (action : Json) : ("status" :: contextNames action).Nodup := by
  unfold contextNames
  split <;> decide

theorem result_names_once (arguments : Arguments) (tool : Tool) :
    ("status" :: tool.resultNames arguments).Nodup := by
  cases tool with
  | manageContexts => exact context_names_once _
  | _ =>
    rw [Tool.resultNames]
    decide

/-- The fields of a result: these names, and a JSON value under each of them. -/
structure IsResult (names : List String) (fields : WrittenFields) : Prop where
  named : fields.map Prod.fst = names
  proper : ∀ field ∈ fields, Proper field.2

def Presents (names : List String) (answer : Answer) : Prop :=
  ∃ fields status, answer = .success fields status ∧ (status = "success" ∨ status = "partial") ∧
    IsResult names fields

theorem presents_success {fields : Fields} (named : fields.map Prod.fst = names)
    (proper : ∀ field ∈ fields, Proper field.2) {status : String}
    (known : status = "success" ∨ status = "partial") :
    Presents names (.success fields.written status) := by
  refine ⟨_, status, rfl, known, ?_, fun field mem => ?_⟩
  · rw [← named, Fields.written, List.map_map]
    rfl
  · obtain ⟨field, inside, rfl⟩ := List.mem_map.mp mem
    exact (proper field inside).written

theorem presents_whole {fields : Fields} (named : fields.map Prod.fst = names)
    (proper : ∀ field ∈ fields, Proper field.2) : Presents names (.success fields.written) :=
  presents_success named proper (.inl rfl)

theorem whole_proper {fields : WrittenFields} (result : IsResult names fields)
    (once : ("status" :: names).Nodup) (status : String) : Proper (wholeOf fields status) := by
  refine .object ?_ ?_
  · have units := once.map Json.units_injective
    rw [← result.named, List.map_cons, List.map_map] at units
    rwa [List.map_cons, List.map_map]
  · refine List.forall_mem_cons.mpr ⟨.text _, fun field mem => ?_⟩
    obtain ⟨field, inside, rfl⟩ := List.mem_map.mp mem
    exact result.proper field inside

/-! Arguments that a result repeats. -/

section Repeated

variable (proper : ∀ argument ∈ arguments, Proper argument.2)

include proper

theorem lookup_proper (found : arguments.lookup name = some value) : Proper value := by
  induction arguments with
  | nil => cases found
  | cons argument arguments ih =>
    obtain ⟨first, rest⟩ := List.forall_mem_cons.mp proper
    rw [lookup_cons_if] at found
    split_ifs at found
    · exact Option.some.inj found ▸ first
    · exact ih rest found

theorem given_proper (given : arguments.given? name = some value) : Proper value :=
  lookup_proper proper (lookup_of_given given).1

theorem get_proper (name : String) : Proper (arguments.get name) := by
  rw [Arguments.get]
  cases found : arguments.lookup name with
  | none => exact .null
  | some value => exact lookup_proper proper found

end Repeated

/-! Each tool. -/

theorem report_presented {report : Indexing.Report} (tallied : report.Tallied) {path : Json}
    {repeated : List Json} (placed : Proper path) (named : ∀ name ∈ repeated, Proper name) :
    Presents reportNames (reportAnswer report path repeated) := by
  refine presents_success rfl ?_ ?_
  · simp [Indexing.Report.fieldsAs, label_counts_proper tallied.counts,
      edge_counts_proper tallied.relationships, placed,
      Proper.list (failures_as_proper named report.failures)]
  · rw [statusOf]
    cases report.success <;> simp

theorem code_given {review : Json → Work Answer}
    (done : (match arguments.get "code" with
      | .null => refuse "code is required"
      | code => review code) store = (.ok answer, after)) :
    review (arguments.get "code") store = (.ok answer, after) := by
  generalize arguments.get "code" = code at done ⊢
  cases code with
  | null => cases (Prod.mk.inj done).1
  | _ => exact done

theorem validate_code_presents
    (done : validateCode here settings arguments store = (.ok answer, after)) :
    Presents (Tool.validateCode.resultNames arguments) answer := by
  obtain ⟨language, -, done⟩ := settled_bind_ok (code_given done)
  obtain ⟨elements, -, done⟩ := settled_bind_ok done
  obtain ⟨context, -, done⟩ := settled_bind_ok done
  obtain ⟨report, -, rfl⟩ := answered_ok done
  exact presents_whole rfl (by simp [Review.SnippetReport.fields])

theorem analyze_relationships_presents
    (done : analyzeRelationships here settings arguments store = (.ok answer, after)) :
    Presents (Tool.analyzeRelationships.resultNames arguments) answer := by
  unfold analyzeRelationships at done
  obtain ⟨named, -, done⟩ := settled_bind_ok done
  obtain ⟨report, worked, rfl⟩ := answered_ok done
  obtain ⟨analysis, -, worked⟩ := access_settled worked
  obtain ⟨context, -, worked⟩ := access_settled worked
  have analysed : Review.analyzeContext store.graph context analysis
      ((arguments.given? "element_name").map Json.plain) = .ok report :=
    (Prod.mk.inj (used_ok worked)).1
  have counts := (Review.analysis_ok analysed).2.2.1
  refine presents_whole rfl ?_
  simp [Review.RelationshipReport.fields, counts,
    relations_proper (Review.analysed_details_proper analysed),
    label_counts_proper (Review.node_counts_once _ _), Review.RelationshipReport.countsByType,
    edge_counts_proper (nodup_keys_tally _)]

theorem act_on_context_presents {action : Contexts.Action}
    (done : actOnContext here action arguments store = (.ok answer, after)) :
    Presents (contextNames (.text action.name)) answer := by
  obtain ⟨_, -, done⟩ := settled_bind_ok done
  obtain ⟨context, -, done⟩ := settled_bind_ok done
  obtain ⟨count, -, rfl⟩ := answered_ok done
  cases action <;> exact presents_whole rfl (by simp [contextAnswer])

section Repeating

variable (proper : ∀ argument ∈ arguments, Proper argument.2)

include proper

theorem index_file_presents
    (done : indexFile here settings arguments store = (.ok answer, after)) :
    Presents reportNames answer := by
  obtain ⟨path, _, _, _, _, _, _, report, reads, indexed, rfl⟩ := index_file_reported done
  exact report_presented (Indexing.elements_tallied indexed) (given_proper proper reads.filed)
    (List.forall_mem_nil _)

theorem index_functions_presents
    (done : indexFunctions here settings arguments store = (.ok answer, after)) :
    Presents reportNames answer := by
  obtain ⟨entries, _, _, report, names, lists, indexed, rfl⟩ := index_functions_reported done
  refine report_presented (Indexing.entries_tallied lists.given indexed) .null fun name mem => ?_
  obtain ⟨items, given, read⟩ := lists.listed
  obtain ⟨entry, inside, rfl⟩ :=
    List.mem_map.mp (Indexing.failed_names_given lists.given indexed mem)
  cases given_proper proper given with
  | list each => exact Indexing.entry_names_proper each read entry inside

theorem check_code_quality_presents
    (done : checkCodeQuality here settings arguments store = (.ok answer, after)) :
    Presents (Tool.checkCodeQuality.resultNames arguments) answer := by
  obtain ⟨language, spoken, done⟩ := settled_bind_ok (code_given done)
  obtain ⟨elements, -, done⟩ := settled_bind_ok done
  obtain ⟨context, -, done⟩ := settled_bind_ok done
  obtain ⟨report, -, rfl⟩ := answered_ok done
  have repeated : Proper language := by
    unfold languageOf at spoken
    split at spoken
    next given =>
      obtain rfl := Except.ok.inj spoken
      exact given_proper proper given
    next =>
      obtain ⟨extension, -, spoken⟩ := except_bind spoken
      obtain rfl := Except.ok.inj spoken
      exact .text _
  exact presents_whole rfl (by simp [Quality.Report.fieldsAs, repeated])

theorem validate_file_presents
    (done : validateFile here settings arguments store = (.ok answer, after)) :
    Presents (Tool.validateFile.resultNames arguments) answer := by
  generalize performed : validateFile here settings arguments = work at done
  unfold validateFile at performed
  split at performed <;> subst performed
  · cases (Prod.mk.inj done).1
  · cases (Prod.mk.inj done).1
  next path content filed _ =>
    obtain ⟨language, -, done⟩ := settled_bind_ok done
    obtain ⟨elements, -, done⟩ := settled_bind_ok done
    obtain ⟨context, -, done⟩ := settled_bind_ok done
    obtain ⟨name, -, done⟩ := settled_bind_ok done
    obtain ⟨report, -, rfl⟩ := answered_ok done
    exact presents_whole rfl
      (by simp [fileFields, Review.FileReport.results, given_proper proper filed])

theorem compare_branches_presents
    (done : compareBranches here arguments store = (.ok answer, after)) :
    Presents (contextNames (.text "compare-branches")) answer := by
  generalize performed : compareBranches here arguments = work at done
  unfold compareBranches at performed
  split at performed <;> subst performed
  next project source target named left right =>
    obtain ⟨sourceKey, -, done⟩ := settled_bind_ok done
    obtain ⟨targetKey, -, done⟩ := settled_bind_ok done
    obtain ⟨comparison, -, rfl⟩ := answered_ok done
    exact presents_whole rfl (by simp [Review.Comparison.fields, given_proper proper named,
      given_proper proper left, given_proper proper right])
  next => cases (Prod.mk.inj done).1

theorem manage_contexts_presents
    (done : manageContexts here arguments store = (.ok answer, after)) :
    Presents (Tool.manageContexts.resultNames arguments) answer := by
  rw [Tool.resultNames]
  unfold manageContexts at done
  generalize arguments.get "action" = action at done ⊢
  split at done
  · obtain ⟨contexts, -, rfl⟩ := answered_ok done
    exact presents_whole rfl (by simp [summaryList])
  · obtain ⟨_, -, done⟩ := settled_bind_ok done
    obtain ⟨name, -, done⟩ := settled_bind_ok done
    obtain ⟨branches, -, rfl⟩ := answered_ok done
    exact presents_whole rfl (by simp [summaryList, get_proper proper])
  · exact act_on_context_presents done
  · exact act_on_context_presents done
  · exact act_on_context_presents done
  · exact compare_branches_presents proper done
  · obtain ⟨name, -, done⟩ := settled_bind_ok done
    cases (Prod.mk.inj done).1

end Repeating

theorem index_dependencies_presents
    (done : indexDependencies here settings arguments store = (.ok answer, after)) :
    Presents (Tool.indexDependencies.resultNames arguments) answer := by
  obtain ⟨report, rfl, -⟩ := index_dependencies_accounts done
  refine ⟨_, "success", rfl, .inl rfl, rfl, ?_⟩
  have names (given : List Library.Name) : Proper (.list (given.map .text) : Json.Written) :=
    .list_map fun name _ => .text name
  simp [Indexing.DependencyReport.fields, Json.written, names,
    (failures_proper report.failures).written]

/-- The text of an answer that is no error reads back as what was answered. The status stands first
and says whether all went well, and nothing else in the result is called a status. Only an integer
of more figures than any text may hold is not read back, nor what is nested too deeply for the
reader. -/
theorem result_reads_back (here : Conditions) (settings : Settings) (tool : Tool)
    (arguments : Arguments) (store : Store) (answer : Answer)
    (proper : ∀ argument ∈ arguments, Proper argument.2)
    (answered : (call here settings tool.name arguments store).1 = answer ∨
      (callChecked here settings tool.name arguments store).1 = answer)
    (result : answer.isError = false) :
    ∃ fields status, answer = .success fields status ∧
      (status = "success" ∨ status = "partial") ∧
      fields.map Prod.fst = tool.resultNames arguments ∧
      ("status" :: fields.map Prod.fst).Nodup ∧
      ∀ stack, Json.levels stack.constant (wholeOf fields status) ≤ stack.room →
        Json.read stack answer.text =
          if Json.maxFigures < Json.mostFigures (wholeOf fields status) then .error .oversized
          else .ok (wholeOf fields status) := by
  obtain ⟨fields, status, rfl, known, presented⟩ :
      Presents (tool.resultNames arguments) answer := by
    have done := work_of_called answered result
    cases tool with
    | indexFile => exact index_file_presents proper done
    | indexFunctions => exact index_functions_presents proper done
    | validateCode => exact validate_code_presents done
    | validateFile => exact validate_file_presents proper done
    | checkCodeQuality => exact check_code_quality_presents proper done
    | manageContexts => exact manage_contexts_presents proper done
    | analyzeRelationships => exact analyze_relationships_presents done
    | indexDependencies => exact index_dependencies_presents done
  have once : ("status" :: tool.resultNames arguments).Nodup := result_names_once arguments tool
  exact ⟨fields, status, rfl, known, presented.named, presented.named.symm ▸ once,
    fun _ enough => Json.read_pretty (whole_proper presented once status) enough⟩

/-- A project whose name takes every kind of escape: quotes, a control character, and characters
within and beyond the sixteen bits of one escape. -/
def oddProject : Arguments :=
  [("action", .text "list-branches"), ("project", .text "\"\\\n\u0001é𝄞")]

theorem odd_project_reads_back :
    let answer := (callChecked { now := 1 } plainSettings "manage_contexts" oddProject {}).1
    answer.isError = false ∧ ∃ fields status, answer = .success fields status ∧
      fields.map Prod.fst = ["action", "project", "total", "branches"] ∧
      ∀ stack, Json.levels stack.constant (wholeOf fields status) ≤ stack.room →
        Json.read stack answer.text =
          if Json.maxFigures < Json.mostFigures (wholeOf fields status) then .error .oversized
          else .ok (wholeOf fields status) := by
  intro answer
  have proper : ∀ argument ∈ oddProject, Proper argument.2 := by simp [oddProject]
  have result : answer.isError = false := by decide +kernel
  obtain ⟨fields, status, worded, -, named, -, read⟩ := result_reads_back { now := 1 } plainSettings
    .manageContexts oddProject {} answer proper (.inr rfl) result
  exact ⟨result, fields, status, worded, named, read⟩

end Tools

end CodeAtlas
