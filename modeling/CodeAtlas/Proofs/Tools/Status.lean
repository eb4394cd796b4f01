import CodeAtlas.Proofs.Indexing.Dependencies
import CodeAtlas.Proofs.Tools.Errors

/-! What the status of an indexing answer tells. A batch that goes on after a failure lists it, so
the list is empty exactly when all that was asked for is written. Two of the tools say so in their
status; the third one lists the members of libraries that it could not write, and calls it a
success all the same. -/
namespace CodeAtlas.Indexing

open CodeAtlas.Graph
open CodeAtlas.Library (Api)
open CodeAtlas.Relations (Relationship infer)
open CodeAtlas.Source (Elements)

variable {here : Conditions} {graph last : Graph} {elements : Elements}
  {path language context projectPath : String}

/-! Files and loose functions. -/

def workload (elements : Elements) : Nat :=
  (plan elements "" "").length + (infer elements).length

def Report.written (report : Report) : Nat :=
  report.totalIndexed + total (report.relationships.map (·.2))

def entriesWorkload (entries : List FunctionEntry) : Nat :=
  entries.length + (inferEntries entries).length

/-- Nothing of so many writes is missing exactly when nothing is listed as failed. -/
def Report.Accounts (report : Report) (asked : Nat) : Prop :=
  report.failures = [] ↔ report.written = asked

theorem plan_length (elements : Elements) (language context : String) :
    (plan elements language context).length = (plan elements "" "").length := by
  simp [plan]

theorem infer_length_le {some all : Elements} (functions : some.functions ⊆ all.functions)
    (classes : some.classes ⊆ all.classes) : (infer some).length ≤ (infer all).length :=
  (List.subperm_of_subset (nodup_distinct _) (Relations.infer_mono functions classes)).length_le

section Reported

variable {α : Type} {filePath : Option String} {label : α → Label} {name : α → String}
  {written : List (α × Except Error Unit)} {related : List (Relationship × Except Error Bool)}

theorem reported_written :
    (reported filePath context label name written related).written =
      (succeeded written).length + (succeeded related).length := by
  have counts := (record_relationships related {}).1
  rw [reported, record_results, Report.written, Report.totalIndexed, Report.withRelationships,
    outcomeOf]
  dsimp only
  rw [counts, total_countAll, total_countAll, List.length_map, List.length_map]
  exact congrArg₂ (· + ·) (Nat.zero_add _) (Nat.zero_add _)

/-- Failures are listed and not counted, and what depends on a failure is left out: the counts add
up to what was asked for only if nothing failed. -/
theorem reported_accounts {followers : Nat} (fewer : related.length ≤ followers)
    (whole : failed written = [] → related.length = followers) :
    (reported filePath context label name written related).Accounts
      (written.length + followers) := by
  have tried := succeeded_add_failed written
  have followed := succeeded_add_failed related
  rw [Report.Accounts, reported_written, reported_failures]
  constructor
  · rintro ⟨clean, cleanRelated⟩
    have all := whole clean
    rw [clean] at tried
    rw [cleanRelated] at followed
    simp only [List.length_nil] at tried followed
    omega
  · intro all
    have clean : failed written = [] := List.length_eq_zero_iff.mp (by omega)
    have same := whole clean
    exact ⟨clean, List.length_eq_zero_iff.mp (by rw [clean, List.length_nil] at tried; omega)⟩

end Reported

theorem reported_entries (context : String) (results : Results)
    (related : List (Relationship × Except Error Bool)) :
    (results.report context).withRelationships (outcomeOf related) =
      reported none context (fun _ => .function) (·.name.plain) results related := rfl

theorem spared_of_clean {written : List (PlannedWrite × Except Error Unit)}
    (clean : failed written = []) : spared written elements = elements := by
  simp [spared, Spared, clean]

theorem elements_as_account {form : Relations.LanguageForm} {report : Report}
    (done : indexElementsAs form here elements path language context graph = (.ok report, last)) :
    report.Accounts (workload elements) := by
  rcases index_elements_as_cases form here elements path language context graph with
    ⟨error, refused⟩ | ⟨created, begun, -, indexed | ⟨left, -, stopped⟩⟩
  · rw [refused] at done
    cases (Prod.mk.inj done).1
  · rw [indexed] at done
    obtain rfl := Except.ok.inj (Prod.mk.inj done).1
    let written := (tryPlan here elements path language context begun).1
    have counted : written.length = (plan elements "" "").length :=
      (length_tryAll _ _ _).trans (plan_length elements language context)
    rw [reported_elements, workload, ← counted]
    refine reported_accounts ?_ fun clean => ?_
    · rw [length_tryAll]
      exact infer_length_le (List.filter_subset_self _) (List.filter_subset_self _)
    · rw [length_tryAll, spared_of_clean clean]
  · rw [stopped] at done
    cases (Prod.mk.inj done).1

def entryKeys (entries : List FunctionEntry) : List (Option NameKey × Relationship) :=
  entries.flatMap fun entry => (Relations.ofFunction entry.element).map fun relationship =>
    (nameKey? entry.name, { relationship with sourceName := "" })

theorem inferEntries_length (entries : List FunctionEntry) :
    (inferEntries entries).length = (distinct (entryKeys entries)).length := by
  have keys : (entries.flatMap fun entry =>
      (Relations.ofFunction entry.element).map fun relationship =>
        ((nameKey? entry.name, { relationship with sourceName := "" }), relationship)).map
          Prod.fst = entryKeys entries := by
    simp [entryKeys, List.map_flatMap, Function.comp_def]
  rw [← keys, inferEntries, List.filterMap_length_eq_length]
  intro key mem
  obtain ⟨pair, inside, rfl⟩ := List.mem_map.mp (mem_distinct.mp mem)
  exact List.lookup_isSome_iff.mpr ⟨pair, inside, beq_self_eq_true pair.1⟩

theorem inferEntries_length_le {some all : List FunctionEntry} (fewer : some ⊆ all) :
    (inferEntries some).length ≤ (inferEntries all).length := by
  rw [inferEntries_length, inferEntries_length]
  refine (List.subperm_of_subset (nodup_distinct _) fun key mem => ?_).length_le
  obtain ⟨entry, inside, read⟩ := List.mem_flatMap.mp (mem_distinct.mp mem)
  exact mem_distinct.mpr (List.mem_flatMap.mpr ⟨entry, fewer inside, read⟩)

theorem spared_entries_subset (results : Results) : results.spared ⊆ results.map Prod.fst :=
  List.filter_subset_self _

theorem spared_entries_of_clean {results : Results} (clean : failed results = []) :
    results.spared = results.map Prod.fst := by
  have none : results.failedNames = [] := by
    induction results with
    | nil => rfl
    | cons result results ih =>
      obtain ⟨entry, _ | _⟩ := result
      · cases clean
      · exact ih clean
  simp [Results.spared, none]

theorem entries_account {report : Report} {names : List Json} {entries : List FunctionEntry}
    {language : Json} (given : entries ≠ [])
    (done : indexEntries here entries language context graph = (.ok (report, names), last)) :
    report.Accounts (entriesWorkload entries) := by
  rcases index_entries_cases here given language context graph with
    ⟨text, -, indexed⟩ | ⟨error, after, -, stopped⟩
  · rw [indexed] at done
    obtain ⟨rfl, -⟩ := Prod.mk.inj (Except.ok.inj (Prod.mk.inj done).1)
    let results := (tryEntries here entries language context graph).1
    have items : results.map Prod.fst = entries := items_tryAll _ _ _
    have counted : results.length = entries.length := length_tryAll _ _ _
    rw [reported_entries, entriesWorkload, ← counted]
    refine reported_accounts ?_ fun clean => ?_
    · rw [length_tryAll]
      refine inferEntries_length_le fun entry mem => ?_
      rw [← items]
      exact spared_entries_subset results mem
    · rw [length_tryAll, spared_entries_of_clean clean]
      exact congrArg (fun entries => (inferEntries entries).length) items
  · rw [stopped] at done
    cases (Prod.mk.inj done).1

theorem names_for_account {names : List Library.Name} {path : Json} {report : DependencyReport}
    (done : indexNamesFor here names context path graph = (.ok report, last)) :
    report.indexedApis + report.failures.length = membersOf names := by
  have each (projectPath : String)
      (indexed : indexNames here names context projectPath graph = (.ok report, last)) :
      report.indexedApis + report.failures.length = membersOf names :=
    (names_account indexed).trans (Nat.zero_add _)
  unfold indexNamesFor at done
  cases stored : Cell.ofJson (here.tooDeep .attribute) .library "project_path" path with
  | ok cell =>
    rw [stored] at done
    exact each _ done
  | error error =>
    rw [stored] at done
    dsimp only at done
    split_ifs at done
    · cases (Prod.mk.inj done).1
    · exact each _ done

end CodeAtlas.Indexing

namespace CodeAtlas.Tools

open CodeAtlas.Graph
open CodeAtlas.Indexing (FunctionEntry Report)
open CodeAtlas.Source (Elements)

variable {α β : Type} {here : Conditions} {settings : Settings} {arguments : Arguments}
  {store after : Store} {answer : Answer} {tool : Tool}

/-! What the arguments of a call ask for. -/

/-- The number of writes that a file or loose functions are made of. -/
def callWorkload (arguments : Arguments) : Tool → Nat
  | .indexFile =>
    match parseCode (arguments.get "content")
      ((arguments.given? "file_extension").getD (arguments.get "file_path")) with
    | .ok elements => Indexing.workload elements
    | .error _ => 0
  | .indexFunctions =>
    match arguments.given? "functions" with
    | some (.list items) =>
      match items.mapM FunctionEntry.ofJson with
      | .ok entries => Indexing.entriesWorkload entries
      | .error _ => 0
    | _ => 0
  | _ => 0

def callLibraries (stack : Json.Stack) (arguments : Arguments) : List Library.Name :=
  match arguments.given? "package_json" with
  | some (.text manifest) => Library.dependencyNames stack manifest
  | _ => []

theorem Reads.workload {path language : Json} {elements : Elements} {context : String}
    (reads : Reads here settings arguments path elements language context) :
    callWorkload arguments .indexFile = Indexing.workload elements := by
  rw [callWorkload, get_of_given reads.filed, reads.parsed]

theorem Lists.workload {entries : List FunctionEntry} {language : Json} {context : String}
    (lists : Lists here settings arguments entries language context) :
    callWorkload arguments .indexFunctions = Indexing.entriesWorkload entries := by
  obtain ⟨items, given, read⟩ := lists.listed
  simp only [callWorkload, given, read]

theorem Declares.libraries {names : List Library.Name} {path : Json} {context : String}
    (declares : Declares here settings arguments names path context) :
    callLibraries here.stack arguments = names := by
  obtain ⟨text, given, read⟩ := declares.manifest
  rw [callLibraries, given]
  exact (Library.dependencies_read read).symm

/-! Work that succeeds. -/

def reportAnswer (report : Report) (path : Json) (names : List Json) : Answer :=
  .success (report.fieldsAs path names).written (statusOf report)

theorem index_file_reported
    (done : indexFile here settings arguments store = (.ok answer, after)) :
    ∃ path elements language context form name text report,
      Reads here settings arguments path elements language context ∧
      Indexing.indexElementsAs form here elements name text context store.graph =
        (.ok report, after.graph) ∧
      answer = reportAnswer report path [] := by
  rcases index_file_cases here settings arguments store with
    ⟨refusal, refused⟩ | ⟨path, elements, language, context, reads, performed⟩
  · rw [refused] at done
    cases (Prod.mk.inj done).1
  · rw [performed] at done
    obtain ⟨report, indexed, rfl⟩ := answered_ok done
    obtain ⟨form, name, text, -, written⟩ := Indexing.index_elements_of_ok (used_ok indexed)
    exact ⟨path, elements, language, context, form, name, text, report, reads, written, rfl⟩

theorem index_functions_reported
    (done : indexFunctions here settings arguments store = (.ok answer, after)) :
    ∃ entries language context report names,
      Lists here settings arguments entries language context ∧
      Indexing.indexEntries here entries language context store.graph =
        (.ok (report, names), after.graph) ∧
      answer = reportAnswer report .null names := by
  rcases index_functions_cases here settings arguments store with
    ⟨refusal, refused⟩ | ⟨entries, language, context, lists, performed⟩
  · rw [refused] at done
    cases (Prod.mk.inj done).1
  · rw [performed] at done
    obtain ⟨⟨report, names⟩, indexed, rfl⟩ := answered_ok done
    exact ⟨entries, language, context, report, names, lists, used_ok indexed, rfl⟩

theorem index_dependencies_answers {graph last : Graph} {names : List Library.Name} {path : String}
    {report : Indexing.DependencyReport}
    (declares : Declares here settings arguments names (.text path) context)
    (indexed : Indexing.indexNames here names context path graph = (.ok report, last)) :
    indexDependencies here settings arguments ⟨graph, true⟩ =
      (.ok (.success report.fields), ⟨last, true⟩) := by
  have plain : Indexing.indexNamesFor here names context (.text path) =
      Indexing.indexNames here names context path := rfl
  rw [index_dependencies_declared declares, below_bind_apply, use_open, plain, indexed]
  rfl

theorem index_dependencies_accounts
    (done : indexDependencies here settings arguments store = (.ok answer, after)) :
    ∃ report : Indexing.DependencyReport, answer = .success report.fields ∧
      report.indexedApis + report.failures.length =
        Indexing.membersOf (callLibraries here.stack arguments) := by
  rcases index_dependencies_cases here settings arguments store with
    ⟨refusal, refused⟩ | ⟨names, path, context, declares, performed⟩
  · rw [refused] at done
    cases (Prod.mk.inj done).1
  · rw [performed] at done
    obtain ⟨report, indexed, rfl⟩ := worded_ok done
    rw [declares.libraries]
    exact ⟨report, rfl, Indexing.names_for_account (used_ok indexed)⟩

/-! Answers. -/

theorem result_of_checked {name : String}
    (answered : (callChecked here settings name arguments store).1 = answer)
    (result : answer.isError = false) : (call here settings name arguments store).1 = answer := by
  rw [callChecked] at answered
  rw [call]
  cases known : Tool.ofName? name with
  | none =>
    rw [known] at answered
    exact answered
  | some tool =>
    rw [known] at answered
    dsimp only at answered ⊢
    split_ifs at answered
    · exact answered
    · cases answered.symm ▸ result

theorem of_name_name (tool : Tool) : Tool.ofName? tool.name = some tool := by
  cases tool <;> decide

theorem checked_of_work {tool : Tool} (accepted : tool.accepts arguments = true)
    (done : tool.work here settings arguments store = (.ok answer, after)) :
    callChecked here settings tool.name arguments store = (answer, after) := by
  rw [callChecked, of_name_name]
  dsimp only
  rw [if_pos accepted, answer_of_work tool done]

theorem work_of_called {tool : Tool}
    (answered : (call here settings tool.name arguments store).1 = answer ∨
      (callChecked here settings tool.name arguments store).1 = answer)
    (result : answer.isError = false) :
    tool.work here settings arguments store =
      (.ok answer, (tool.answer here settings arguments store).2) := by
  have called : (call here settings tool.name arguments store).1 = answer :=
    answered.elim id fun checked => result_of_checked checked result
  rw [call, of_name_name] at called
  exact work_of_answer tool called result

theorem failuresAs_eq_nil {names : List Json} {failures : List Relations.Failure} :
    failuresAs names failures = [] ↔ failures = [] := by
  cases names <;> cases failures <;> simp [failuresAs]

/-- A result of a tool that indexes lists its failures, and the list is empty exactly when the
counts of the result add up to all that the arguments ask for: every element and relationship of a
file or of loose functions, every member of the known libraries. For files and loose functions the
status says which of the two it is. For libraries it does not: it is a success in any case. -/
theorem status_of_result (here : Conditions) (settings : Settings) (tool : Tool)
    (arguments : Arguments) (store : Store) (answer : Answer)
    (answered : (call here settings tool.name arguments store).1 = answer ∨
      (callChecked here settings tool.name arguments store).1 = answer)
    (result : answer.isError = false) :
    (tool ∈ [.indexFile, .indexFunctions] →
      ∃ (report : Report) (path : Json) (names shown : List Json),
      answer = .success (report.fieldsAs path names).written
          (if shown.isEmpty then "success" else "partial") ∧
        (report.fieldsAs path names).lookup "failures" = some (.list shown) ∧
        (shown = [] ↔ report.written = callWorkload arguments tool)) ∧
    (tool = .indexDependencies → ∃ report : Indexing.DependencyReport,
      answer = .success report.fields "success" ∧
        report.fields.lookup "failures" = some (failureList report.failures).written ∧
        (report.failures = [] ↔
          report.indexedApis = Indexing.membersOf (callLibraries here.stack arguments))) := by
  have done := work_of_called answered result
  have told (report : Report) (names : List Json) : statusOf report =
      if (failuresAs names report.failures).isEmpty then "success" else "partial" := by
    simp only [statusOf, Report.success, List.isEmpty_iff, failuresAs_eq_nil]
  constructor
  · intro mem
    simp only [List.mem_cons, List.not_mem_nil, or_false] at mem
    rcases mem with rfl | rfl
    · obtain ⟨path, _, _, _, _, _, _, report, reads, indexed, rfl⟩ := index_file_reported done
      have accounts := Indexing.elements_as_account indexed
      rw [← reads.workload] at accounts
      refine ⟨report, path, [], _, ?_, rfl, failuresAs_eq_nil.trans accounts⟩
      rw [reportAnswer, told report []]
    · obtain ⟨_, _, _, report, names, lists, indexed, rfl⟩ := index_functions_reported done
      have accounts := Indexing.entries_account lists.given indexed
      rw [← lists.workload] at accounts
      refine ⟨report, .null, names, _, ?_, rfl, failuresAs_eq_nil.trans accounts⟩
      rw [reportAnswer, told report names]
  · rintro rfl
    obtain ⟨report, rfl, accounted⟩ := index_dependencies_accounts done
    refine ⟨report, rfl, rfl, ?_⟩
    rw [← List.length_eq_zero_iff]
    omega

def callingFile : Arguments :=
  [("file_path", .text "a.ts"), ("content", .text "function f(){ g(); }")]

/-- Of a file whose only function is refused both writes are missing, its node and its call, and the
answer lists failures. -/
theorem refused_function_told :
    let answer := (callChecked { now := 1, faults := [.create .function none] } plainSettings
      "index_file" callingFile {}).1
    answer.isError = false ∧ ∃ (report : Report) (path : Json) (names shown : List Json),
      answer = .success (report.fieldsAs path names).written
        (if shown.isEmpty then "success" else "partial") ∧
      (shown = [] ↔ report.written = 2) := by
  intro answer
  have result : answer.isError = false := by decide +kernel
  have asked : callWorkload callingFile .indexFile = 2 := by decide +kernel
  obtain ⟨told, -⟩ := status_of_result { now := 1, faults := [.create .function none] }
    plainSettings .indexFile callingFile {} answer (.inr rfl) result
  obtain ⟨report, path, names, shown, worded, -, accounts⟩ := told List.mem_cons_self
  exact ⟨result, report, path, names, shown, worded, asked ▸ accounts⟩

def routerLibrary : Arguments :=
  [("package_json", .text Indexing.routerManifest), ("project_path", .text "web")]

/-- A library is called a success although one of its members is listed as failed. -/
theorem refused_member_called_success :
    ¬ ∀ (here : Conditions) (settings : Settings) (tool : Tool) (arguments : Arguments)
      (steps : List Runs.Step) (fields : WrittenFields) (status : String)
      (failures : List Relations.Failure),
      tool ∈ [.indexFile, .indexFunctions, .indexDependencies] →
        (callChecked here settings tool.name arguments ⟨Runs.run steps, true⟩).1 =
          .success fields status →
        fields.lookup "failures" = some (failureList failures).written →
          (status = "success" ↔ failures = []) := by
  intro truthful
  have declares : Declares Indexing.withoutTypes plainSettings routerLibrary _ (.text "web")
      "default:main" :=
    ⟨⟨_, rfl, Indexing.router_read⟩, rfl, rfl⟩
  obtain ⟨report, indexed, told⟩ := Option.map_eq_some_iff.mp Indexing.router_told
  rcases left : Indexing.indexNames Indexing.withoutTypes _ "default:main" "web"
    (Runs.run Indexing.drawn) with ⟨result, last⟩
  rw [left] at indexed
  obtain rfl := ok_of_toOption indexed
  have worked : Tool.indexDependencies.work Indexing.withoutTypes plainSettings routerLibrary
      ⟨Runs.run Indexing.drawn, true⟩ = (.ok (.success report.fields), ⟨last, true⟩) := by
    rw [Tool.work]
    exact index_dependencies_answers declares left
  have answered : (callChecked Indexing.withoutTypes plainSettings Tool.indexDependencies.name
      routerLibrary ⟨Runs.run Indexing.drawn, true⟩).1 = .success report.fields :=
    congrArg Prod.fst (checked_of_work (by decide) worked)
  have clean := (truthful Indexing.withoutTypes plainSettings .indexDependencies routerLibrary
    Indexing.drawn report.fields "success" report.failures (by decide) answered rfl).mp rfl
  rw [clean] at told
  cases (Prod.mk.inj (Prod.mk.inj told).2).2

end CodeAtlas.Tools
