import CodeAtlas.Proofs.Command.Actions
import CodeAtlas.Proofs.Tools.Revalidate

/-! Indexing a file in two ways: by the command that is given its path, and by the tool that is
given its text. -/
namespace CodeAtlas.Command

open CodeAtlas.Files
open CodeAtlas.Graph
open CodeAtlas.Tools (Answer Arguments Reads Tool call fileAnswer)

variable {α : Type} {here : Conditions} {console : Console} {settings : Settings} {words : Words}
  {path content : String} {store : Store}

/-! What the tool is given. -/

def fileArguments (path content : String) (words : Words) : Arguments :=
  ("file_path", .text path) :: ("content", .text content) ::
    [("project", words.value? "--project"), ("branch", words.value? "--branch"),
      ("language", words.value? "--language")].filterMap fun (name, value) =>
        value.map fun value => (name, Json.text value)

theorem option_given (path content : String) (words : Words) :
    (fileArguments path content words).lookup "project" =
        (words.value? "--project").map Json.text ∧
      (fileArguments path content words).lookup "branch" =
        (words.value? "--branch").map Json.text ∧
      (fileArguments path content words).lookup "language" =
        (words.value? "--language").map Json.text ∧
      (fileArguments path content words).lookup "file_extension" = none := by
  unfold fileArguments
  cases words.value? "--project" <;> cases words.value? "--branch" <;>
    cases words.value? "--language" <;> exact ⟨rfl, rfl, rfl, rfl⟩

theorem given_of_option {arguments : Arguments} {name option : String}
    (found : arguments.lookup name = (words.value? option).map Json.text) (default : Json) :
    (arguments.given? name).getD default = optionOr words option default := by
  rw [Arguments.given?, found, optionOr]
  cases words.value? option with
  | none => rfl
  | some value =>
    by_cases empty : value = ""
    · simp [empty, Json.isGiven]
    · simp [empty, Json.isGiven]

theorem scope_of_options : Tools.scopeKey here settings (fileArguments path content words) =
    scopeKey here settings words := by
  obtain ⟨project, branch, -, -⟩ := option_given path content words
  rw [Tools.scopeKey, scopeKey, given_of_option project, given_of_option branch]

def spokenLanguage (words : Words) (path : String) : String :=
  BranchContext.effective (words.value? "--language") (Source.languageOf path)

theorem language_of_options : Tools.languageOf (fileArguments path content words) (.text path) =
    .ok (.text (spokenLanguage words path)) := by
  obtain ⟨-, -, found, -⟩ := option_given path content words
  rw [Tools.languageOf, Arguments.given?, found, spokenLanguage]
  cases words.value? "--language" with
  | none => rfl
  | some value =>
    by_cases empty : value = ""
    · simp [empty, Json.isGiven, BranchContext.effective]
      rfl
    · simp [empty, Json.isGiven, BranchContext.effective]

theorem file_arguments_read (filled : path ≠ "") {context : String}
    (settled : scopeKey here settings words = .ok context) :
    Reads here settings (fileArguments path content words) (.text path)
      (Source.parseElements content path) (.text (spokenLanguage words path)) context := by
  obtain ⟨-, -, -, extension⟩ := option_given path content words
  have dialect : ((fileArguments path content words).given? "file_extension").getD (.text path) =
      .text path := by
    rw [Arguments.given?, extension]
    rfl
  exact
    { filed := Tools.given_of_lookup rfl (by simpa [Json.isGiven] using filled)
      content := fun none => by cases none
      spoken := by rw [dialect, language_of_options]
      parsed := by rw [dialect]; exact Tools.parse_code_texts content path
      settled := scope_of_options.trans settled }

theorem file_arguments_accepted :
    Tool.indexFile.accepts (fileArguments path content words) = true := by
  unfold fileArguments
  cases words.value? "--project" <;> cases words.value? "--branch" <;>
    cases words.value? "--language" <;> rfl

/-! What both do. -/

def fileWork (here : Conditions) (settings : Settings) (words : Words) (path content : String) :
    Access Indexing.Report :=
  Indexing.indexSource here ⟨path, some content, words.value? "--language", none⟩
    (scopeKey here settings words)

theorem file_work_eq : fileWork here settings words path content = (do
    let context ← scopeKey here settings words
    use (Indexing.indexElements here (Source.parseElements content path) path
      (spokenLanguage words path) context)) := rfl

theorem file_work_path {report : Indexing.Report} {after : Store}
    (done : fileWork here settings words path content store = (.ok report, after)) :
    report.filePath = some path := by
  rw [file_work_eq] at done
  obtain ⟨context, -, indexed⟩ := Tools.access_settled done
  obtain ⟨_, _, itemised⟩ := Indexing.itemised_of_report (Tools.used_ok indexed)
  exact itemised.filePath

theorem index_file_unsettled (filled : path ≠ "") {error : Error}
    (unsettled : scopeKey here settings words = .error error) :
    Tools.indexFile here settings (fileArguments path content words) store =
      (.error (.failed error), store) := by
  have filed : (fileArguments path content words).given? "file_path" = some (.text path) :=
    Tools.given_of_lookup rfl (by simpa [Json.isGiven] using filled)
  have text : (fileArguments path content words).get "content" = .text content := rfl
  have dialect : ((fileArguments path content words).given? "file_extension").getD (.text path) =
      .text path := by
    rw [Arguments.given?, (option_given path content words).2.2.2]
    rfl
  rw [Tools.indexFile, filed, text]
  dsimp only
  rw [dialect, language_of_options, Tools.settled_ok_bind, Tools.parse_code_texts]
  dsimp only
  rw [scope_of_options, unsettled]
  rfl

theorem tool_applies (filled : path ≠ "") :
    call here settings "index_file" (fileArguments path content words) store =
      match fileWork here settings words path content store with
      | (.ok report, after) => (fileAnswer path report, after)
      | (.error error, after) =>
        (.failure (Tool.indexFile.failureText (fileArguments path content words) error),
          after) := by
  change Tool.answer here settings .indexFile (fileArguments path content words) store = _
  rw [Tool.answer, Tool.work, file_work_eq, Runs.settle_apply]
  cases settled : scopeKey here settings words with
  | error error => rw [index_file_unsettled filled settled]
  | ok context =>
    dsimp only
    rw [Tools.index_file_read (file_arguments_read filled settled), Tools.below_bind_apply]
    rcases use (Indexing.indexElements here (Source.parseElements content path) path
      (spokenLanguage words path) context) store with ⟨error | report, after⟩ <;> rfl

theorem file_answer_fields {report : Indexing.Report} (filed : report.filePath = some path) :
    fileAnswer path report = .success report.fields.written (Tools.statusOf report) := by
  rw [fileAnswer, Indexing.Report.fields, filed]
  rfl

theorem answers_success (filled : path ≠ "")
    (clean : Indexing.isSuccess (fileWork here settings words path content store).1 = true) :
    ∃ fields : WrittenFields,
      (call here settings "index_file" (fileArguments path content words) store).1 =
        .success fields := by
  rw [tool_applies filled]
  rcases worked : fileWork here settings words path content store with ⟨error | report, after⟩
  · rw [worked] at clean
    cases clean
  · rw [worked] at clean
    have clean : report.success = true := clean
    refine ⟨(report.fieldsAs (.text path) []).written, ?_⟩
    change fileAnswer path report = _
    rw [fileAnswer, Tools.statusOf, if_pos clean]

/-! What the command does. -/

/-- A command line that indexes one file of UTF-8 text into a graph, under the settings that its
global options come to. -/
structure IndexesFile (line : List String) (console : Console) (settings : Settings)
    (words : Words) (word text : String) (graph : Graph) : Prop where
  parsed : ∃ globals rest, wordsOf globalOptions false line = some globals ∧
    globals.positionals = "index" :: rest ∧
    (loadSettings globals console).1 = .ok settings ∧
    wordsOf (scopeOptions ++ [languageOption, jsonOption]) true rest = some words
  single : words.positionals = [word]
  filled : word ≠ ""
  shows : console.host.tree.find? (Path.ofText word) = some (.bytes text.toUTF8.toList)
  opened : (openGraph settings console).1 = .ok (.ok graph)

def showReports (words : Words) (reports : List Indexing.Report) : Action Unit := do
  if words.has "--json" then
    printJson "Index Results"
      (Json.written (.list (reports.map fun report => .object report.fields)))
  else
    printTable "Indexed Files" ["File", "Elements", "Relationships", "Failures"]
      (reports.map fun report =>
        [report.filePath.getD "", toString report.totalIndexed,
          toString (total (report.relationships.map (·.2))), toString report.failures.length])
    let failed := total (reports.map (·.failures.length))
    if failed = 0 then printSuccess s!"Indexed {reports.length} files"
    else printWarning s!"{failed} elements could not be indexed"

def reportLines (report : Indexing.Report) (console : Console) : List (List String) :=
  (printJson "Index Results" (Json.written (.list [.object report.fields])) console).2.lines

theorem show_reports_keeps (words : Words) (reports : List Indexing.Report) :
    KeepsHost (showReports words reports) := by
  unfold showReports
  split_ifs
  · exact keeps_host_json _ _
  · refine (keeps_host_table _ _ _).bind fun _ => ?_
    dsimp only
    split_ifs <;> exact keeps_host_print _

section Asked

variable {line : List String} {word text : String} {graph : Graph}

theorem run_index (asked : IndexesFile line console settings words word text graph) :
    ∃ rest, wordsOf (scopeOptions ++ [languageOption, jsonOption]) true rest = some words ∧
      run line console = index settings rest console := by
  obtain ⟨globals, rest, read, named, loaded, parsed⟩ := asked.parsed
  have loaded : loadSettings globals console = (.ok settings, console) := by
    rcases done : loadSettings globals console with ⟨result, after⟩
    rw [done] at loaded
    dsimp only at loaded
    subst loaded
    rw [load_settings_keeps done]
  refine ⟨rest, parsed, ?_⟩
  rw [run, read, action_bind (or_usage_some _), named]
  dsimp only
  have known : commands.lookup "index" = some index := rfl
  rw [known, action_bind (or_usage_some _), action_bind loaded]

theorem index_all_single {tree : Tree} {file : Path} (shows : tree.sourceAt file = .ok content)
    (language : Option String) (context : Except Error String) :
    indexAll here tree [file] language context store =
      match Indexing.indexSource here ⟨file.text, some content, language, none⟩ context store with
      | (.ok report, after) => (.ok [report], after)
      | (.error error, after) => (.error error, after) := by
  rw [indexAll, List.mapM_cons, Runs.access_bind_apply, Runs.settle_apply, shows]
  dsimp only
  rcases Indexing.indexSource here ⟨file.text, some content, language, none⟩ context store
    with ⟨error | report, after⟩ <;> rfl

theorem source_files_single (asked : IndexesFile line console settings words word text graph) :
    sourceFiles console.host.tree [Path.ofText word] = [Path.ofText word] := by
  have file : console.host.tree.isDirectory (Path.ofText word) = false := by
    rw [Tree.isDirectory, asked.shows]
  simp [sourceFiles, file]

/-- The command does the work on the text that the file shows, and then either reports it or
fails. -/
theorem index_applies (asked : IndexesFile line console settings words word text graph) :
    run line console =
      match fileWork console.here settings words (Path.ofText word).text
          (Text.lineFeeds text) ⟨graph, true⟩ with
      | (.ok report, store) => showReports words [report] (console.saved settings store.graph)
      | (.error error, store) =>
        reportFailure "Indexing failed" error (console.saved settings store.graph) := by
  obtain ⟨rest, parsed, runs⟩ := run_index asked
  have opened : openGraph settings console = (.ok (.ok graph), console) :=
    Prod.ext asked.opened (open_graph_keeps settings console)
  have paths : [word].mapM existingPath console = (.ok [Path.ofText word], console) := by
    have there : (console.host.tree.find? (Path.ofText word)).isSome := by rw [asked.shows]; rfl
    rw [List.mapM_cons, action_bind (existing_path_found asked.filled there)]
    rfl
  rw [runs, index, commandWords, parsed, action_bind (or_usage_some _), asked.single,
    if_neg (by simp)]
  dsimp only
  rw [action_bind paths, action_bind (get_apply _)]
  rw [source_files_single asked, on_graph_bind _ _ _ opened,
    index_all_single (Tree.source_shown asked.shows), fileWork]
  rcases Indexing.indexSource console.here ⟨(Path.ofText word).text,
    some (Text.lineFeeds text), words.value? "--language", none⟩
    (scopeKey console.here settings words) ⟨graph, true⟩ with ⟨error | report, after⟩ <;> rfl

theorem execute_host (line : List String) (console : Console) :
    (execute line console).host = (run line console).2.host := by
  rw [execute]
  rcases run line console with ⟨(code | - | error) | done, after⟩ <;> rfl

/-- Whatever the work comes to, the graph that it leaves is all that the command changes. -/
theorem execute_saves (asked : IndexesFile line console settings words word text graph) :
    (execute line console).host = (console.saved settings
      (fileWork console.here settings words (Path.ofText word).text
        (Text.lineFeeds text) ⟨graph, true⟩).2.graph).host := by
  rw [execute_host, index_applies asked]
  rcases fileWork console.here settings words (Path.ofText word).text
    (Text.lineFeeds text) ⟨graph, true⟩ with ⟨error | report, store⟩
  · exact report_failure_keeps _ _ _
  · exact show_reports_keeps _ _ _

theorem execute_fails (asked : IndexesFile line console settings words word text graph)
    {error : Error} {after : Store}
    (failed : fileWork console.here settings words (Path.ofText word).text
      (Text.lineFeeds text) ⟨graph, true⟩ = (.error error, after)) :
    (execute line console).exitCode = 1 := by
  have runs := index_applies asked
  rw [failed] at runs
  obtain ⟨stop, left, stopped, rfl | ⟨crash, rfl⟩⟩ :=
    @report_failure_stops Unit "Indexing failed" error (console.saved settings after.graph)
  · rw [execute, runs.trans stopped]
  · rw [execute, runs.trans stopped]

theorem execute_reports (asked : IndexesFile line console settings words word text graph)
    {report : Indexing.Report} {after : Store}
    (done : fileWork console.here settings words (Path.ofText word).text
      (Text.lineFeeds text) ⟨graph, true⟩ = (.ok report, after))
    (json : words.has "--json" = true) :
    (execute line console).exitCode = 0 ∧ (execute line console).lines =
      reportLines report console := by
  have runs := index_applies asked
  rw [done] at runs
  dsimp only at runs
  rw [showReports, if_pos json] at runs
  have printed : printJson "Index Results" (Json.written (.list [.object report.fields]))
      (console.saved settings after.graph) =
        (.ok (), { console.saved settings after.graph with lines := reportLines report console }) :=
    rfl
  rw [execute, runs.trans printed]
  exact ⟨rfl, rfl⟩

end Asked

/-! What the tool finds then. -/

theorem validation_answers {arguments : Arguments} {path language context : String}
    {elements : Source.Elements}
    (reads : Reads here settings arguments (.text path) elements (.text language) context)
    (graph : Graph) :
    ∃ others : Fields,
      (call here settings "validate_file" arguments ⟨graph, true⟩).1 = .success others.written ∧
      others.lookup "file_status" =
        some (.text (Review.validateFile graph path elements language context).status.name) :=
  ⟨_, congrArg Prod.fst (Tools.validate_file_answers graph reads), rfl⟩

/-- A file that was indexed without failures validates as unchanged, if it contained functions and
classes of its own context only. -/
theorem indexed_text_unchanged (steps : List Runs.Step) (now : Int) (faults : List Fault)
    {arguments : Arguments} {fields : WrittenFields}
    (accepted : Tool.indexFile.accepts arguments = true)
    (free : CollisionFree ((Runs.run steps).nodes.map Node.identity ++
      Tools.callIdentities here settings arguments))
    (own : Tools.FileContainsOwn here settings arguments (Runs.run steps))
    (success : (call here settings "index_file" arguments ⟨Runs.run steps, true⟩).1 =
      .success fields) :
    ∃ others : Fields,
      (call { here with now := now, faults := faults } settings "validate_file" arguments
        ⟨(call here settings "index_file" arguments ⟨Runs.run steps, true⟩).2.graph, true⟩).1 =
          .success others.written ∧
      others.lookup "file_status" = some (.text "unchanged") := by
  have wellFormed : WellFormed (Runs.run steps) :=
    Runs.run_invariant empty_well_formed fun step _ _ kept => Runs.step_well_formed step kept
  obtain ⟨path, elements, language, context, last, reads, stored, wellFormed', placed, extended⟩ :=
    Tools.indexed_by_call wellFormed accepted success
  have derived := reads.identities
  have held : Indexing.ContainsOwn last path context := by
    refine extended.contains_own free wellFormed wellFormed' ?_ (own _ _ reads.filed reads.settled)
    exact derived ▸ List.mem_cons_self
  obtain ⟨filed, same⟩ := Indexing.file_unchanged free wellFormed'
    (fun node mem => extended.identities (List.mem_map_of_mem mem))
    (derived ▸ List.subset_append_right _ _) placed held
  obtain ⟨others, answered, status⟩ := validation_answers (reads.later now faults) last
  have counts := Indexing.countOf_alike same
  rw [stored]
  refine ⟨others, answered, ?_⟩
  rw [status, Review.FileReport.status, filed, Review.FileReport.modified, Review.FileReport.new,
    counts, counts]
  rfl

/-- What a command line indexes, the tool indexes too when it is given the path in its normal form
and the text with line feeds for its line ends: both leave the same graph, and the command fails
where the tool answers with an error. Without failures the tool then finds the file unchanged, as
long as it contained functions and classes of its own context only. -/
theorem command_indexes_as_tool (steps : List Runs.Step) (now : Int) (faults : List Fault)
    {line : List String} {console : Console} {settings : Settings} {words : Words}
    {word text : String}
    (asked : IndexesFile line console settings words word text (Runs.run steps)) :
    let arguments := fileArguments (Path.ofText word).text (Text.lineFeeds text) words
    let answered := call console.here settings "index_file" arguments
      ⟨Runs.run steps, true⟩
    let outcome := execute line console
    outcome.host = (console.saved settings answered.2.graph).host ∧
      outcome.host.tree.find? (databaseFile settings) = some (.database answered.2.graph) ∧
      (answered.1.isError = true → outcome.exitCode = 1) ∧
      (answered.1.isError = false → ∃ report : Indexing.Report,
        answered.1 = .success report.fields.written (Tools.statusOf report) ∧
        (words.has "--json" = true → outcome.exitCode = 0 ∧ outcome.lines =
          reportLines report console)) ∧
      (CollisionFree ((Runs.run steps).nodes.map Node.identity ++
          Tools.callIdentities console.here settings arguments) →
        Tools.FileContainsOwn console.here settings arguments (Runs.run steps) →
        ∀ fields : WrittenFields, answered.1 = .success fields →
          ∃ others : Fields,
            (call { console.here with now := now, faults := faults } settings "validate_file"
              arguments ⟨answered.2.graph, true⟩).1 = .success others.written ∧
            others.lookup "file_status" = some (.text "unchanged")) := by
  intro arguments answered outcome
  have applies : answered = _ := tool_applies (Path.text_filled word)
  have saved : outcome.host = (console.saved settings answered.2.graph).host := by
    rw [applies]
    refine (execute_saves asked).trans ?_
    rcases fileWork console.here settings words (Path.ofText word).text
      (Text.lineFeeds text) ⟨Runs.run steps, true⟩ with ⟨error | report, store⟩ <;> rfl
  refine ⟨saved, ?_, ?_, ?_, ?_⟩
  · rw [saved]
    exact Tree.find_write _ _ _
  · intro failed
    rcases worked : fileWork console.here settings words (Path.ofText word).text
      (Text.lineFeeds text) ⟨Runs.run steps, true⟩ with ⟨error | report, store⟩
    · exact execute_fails asked worked
    · rw [applies, worked] at failed
      cases failed
  · intro result
    rcases worked : fileWork console.here settings words (Path.ofText word).text
      (Text.lineFeeds text) ⟨Runs.run steps, true⟩ with ⟨error | report, store⟩
    · rw [applies, worked] at result
      cases result
    · refine ⟨report, ?_, execute_reports asked worked⟩
      rw [applies, worked]
      exact file_answer_fields (file_work_path worked)
  · exact fun free own fields success =>
      indexed_text_unchanged steps now faults file_arguments_accepted free own success

/-! One file, in a place where nothing else is. -/

variable {line : List String} {word text : String} {graph : Graph}

def oneFile (path text : String) (kept : Option Graph) : Console where
  host := { directory := "/work", home := "/home"
            tree := { entries := (Path.ofText path, .bytes text.toUTF8.toList) ::
              (kept.map fun graph => (Path.ofText "graph/code_graph", .database graph)).toList } }
  here := { now := 1 }

def besideGraph : Settings := ⟨"graph", .text "default", .text "main", "WARNING"⟩

def indexLine (word : String) : List String := ["--db-path", "graph", "index", "--json", word]

def jsonWords (word : String) : Words := { options := [("--json", "")], positionals := [word] }

theorem one_file_settings (text : String) (kept : Option Graph) (globals : Words)
    (config : globals.value? "--config" = none)
    (graph : globals.value? "--db-path" = some "graph")
    (level : globals.value? "--log-level" = none) :
    (loadSettings globals (oneFile "a.ts" text kept)).1 = .ok besideGraph := by
  have file : Settings.fileLayer (oneFile "a.ts" text kept).host none = .ok [] := by
    cases kept <;> rfl
  have environment : Settings.completedEnvironment (oneFile "a.ts" text kept).host {} =
      .ok [] := by
    cases kept <;> rfl
  have layered : Settings.ofLayer (oneFile "a.ts" text kept).host "/home"
      [(.text "db_path", .text "graph")] = .ok besideGraph := rfl
  have loaded : Settings.load (oneFile "a.ts" text kept).host none none
      [("db_path", .text "graph"), ("log_level", .null)] = .ok besideGraph := by
    rw [Settings.load, file, except_ok_bind, Option.getD_none, environment, except_ok_bind]
    exact layered
  rw [loadSettings, config]
  dsimp only
  rw [pure_bind, action_bind (get_apply _), graph, level]
  dsimp only
  rw [loaded]
  rfl

theorem one_file_asked (word text : String) (kept : Option Graph)
    (named : word ∈ ["a.ts", "./a.ts"]) :
    IndexesFile (indexLine word) (oneFile "a.ts" text kept) besideGraph (jsonWords word) word text
      (kept.getD .empty) := by
  simp only [List.mem_cons, List.not_mem_nil, or_false] at named
  rcases named with rfl | rfl <;> exact
    { parsed := ⟨_, _, rfl, rfl, one_file_settings text kept _ rfl rfl rfl, rfl⟩
      single := rfl
      filled := by decide
      shows := by cases kept <;> rfl
      opened := by cases kept <;> rfl }

/-- The file is named in a way that is not its normal form, and its lines end in carriage returns:
the tool that is given the normal form and line feeds finds it unchanged. -/
theorem one_file_unchanged :
    let outcome := execute (indexLine "./a.ts") (oneFile "a.ts" "class K\r\n{}" none)
    let arguments := fileArguments "a.ts" "class K\n{}" (jsonWords "./a.ts")
    outcome.exitCode = 0 ∧ ∃ (graph : Graph) (others : Fields),
      outcome.host.tree.find? (databaseFile besideGraph) = some (.database graph) ∧
      (call { now := 2 } besideGraph "validate_file" arguments ⟨graph, true⟩).1 =
        .success others.written ∧
      others.lookup "file_status" = some (.text "unchanged") := by
  intro outcome arguments
  have asked := one_file_asked "./a.ts" "class K\r\n{}" none (by decide)
  have told := command_indexes_as_tool [] 2 [] asked
  have path : (Path.ofText "./a.ts").text = "a.ts" := by decide
  have text : Text.lineFeeds "class K\r\n{}" = "class K\n{}" := by decide
  rw [path, text] at told
  obtain ⟨-, stored, -, reported, validated⟩ := told
  have clean : Indexing.isSuccess (fileWork { now := 1 } besideGraph (jsonWords "./a.ts") "a.ts"
      "class K\n{}" ⟨Runs.run [], true⟩).1 = true := by
    decide +kernel
  have free : CollisionFree ((Runs.run []).nodes.map Node.identity ++
      Tools.callIdentities { now := 1 } besideGraph arguments) := by
    decide +kernel
  have own : Tools.FileContainsOwn { now := 1 } besideGraph arguments (Runs.run []) :=
    fun _ _ _ _ _ _ _ mem => nomatch mem
  obtain ⟨fields, success⟩ := answers_success (by decide) clean
  obtain ⟨report, -, shown⟩ := reported (congrArg Answer.isError success)
  obtain ⟨others, unchanged, status⟩ := validated free own fields success
  exact ⟨(shown (by decide)).1, _, others, stored, unchanged, status⟩

/-- The command leaves the graph that the tool leaves for the very path and text of the file. -/
def LeavesSame (line : List String) (console : Console) (settings : Settings) (words : Words)
    (word text : String) (graph : Graph) : Prop :=
  (execute line console).host.tree.find? (databaseFile settings) =
    some (.database (call console.here settings "index_file"
      (fileArguments word text words) ⟨graph, true⟩).2.graph)

theorem leaves_same_iff (asked : IndexesFile line console settings words word text graph) :
    LeavesSame line console settings words word text graph ↔
      (fileWork console.here settings words (Path.ofText word).text
        (Text.lineFeeds text) ⟨graph, true⟩).2.graph =
      (call console.here settings "index_file" (fileArguments word text words)
        ⟨graph, true⟩).2.graph := by
  rw [LeavesSame, execute_saves asked]
  refine (Eq.congr_left (Tree.find_write _ _ _)).trans ?_
  simp

theorem leaves_same_normal (asked : IndexesFile line console settings words word text graph)
    (normal : (Path.ofText word).text = word) (plain : '\r' ∉ text.toList) :
    LeavesSame line console settings words word text graph := by
  refine (leaves_same_iff asked).mpr ?_
  rw [normal, Text.line_feeds_self plain, tool_applies asked.filled]
  rcases fileWork console.here settings words word text ⟨graph, true⟩ with
    ⟨error | report, store⟩ <;> rfl

/-- The graph is not the same for every path, not even when the text has line feeds only, nor for
every text, not even when the path is in its normal form. And when both are so, a file indexed
without failures may still not be unchanged: a link by bare id could have made it contain a namesake
from another context. -/
theorem front_ends_differ :
    (∃ line console settings words word text steps,
      IndexesFile line console settings words word text (Runs.run steps) ∧ '\r' ∉ text.toList ∧
        ¬ LeavesSame line console settings words word text (Runs.run steps)) ∧
    (∃ line console settings words word text steps,
      IndexesFile line console settings words word text (Runs.run steps) ∧
        (Path.ofText word).text = word ∧
        ¬ LeavesSame line console settings words word text (Runs.run steps)) ∧
    (∃ line console settings words word text steps, ∃ (fields : WrittenFields) (others : Fields),
      let arguments := fileArguments word text words
      let answered := call console.here settings "index_file" arguments ⟨Runs.run steps, true⟩
      IndexesFile line console settings words word text (Runs.run steps) ∧
        (Path.ofText word).text = word ∧ '\r' ∉ text.toList ∧ answered.1 = .success fields ∧
        (call console.here settings "validate_file" arguments ⟨answered.2.graph, true⟩).1 =
          .success others.written ∧ others.lookup "file_status" = some (.text "modified")) := by
  refine ⟨?_, ?_, ?_⟩
  · have asked := one_file_asked "./a.ts" "" none (by decide)
    refine ⟨_, _, _, _, _, _, [], asked, by decide, fun same => ?_⟩
    have keys := congrArg (·.nodes.map Node.key) ((leaves_same_iff asked).mp same)
    revert keys
    decide +kernel
  · have asked := one_file_asked "a.ts" "class K\r\n{}" none (by decide)
    refine ⟨_, _, _, _, _, _, [], asked, by decide, fun same => ?_⟩
    have bodies := congrArg (·.nodes.map Node.attributes) ((leaves_same_iff asked).mp same)
    revert bodies
    decide +kernel
  · have asked := one_file_asked "a.ts" "class K{}" (some (Runs.run Tools.borrowing)) (by decide)
    have reads : Reads { now := 1 } besideGraph
        (fileArguments "a.ts" "class K{}" (jsonWords "a.ts")) (.text "a.ts")
        (Source.parseElements "class K{}" "a.ts") (.text "typescript") "default:main" :=
      file_arguments_read (by decide) rfl
    obtain ⟨fields, last, answered, modified⟩ := Tools.borrower_indexed reads
    obtain ⟨others, validated, status⟩ := validation_answers reads last
    rw [modified] at status
    refine ⟨_, _, _, _, _, _, Tools.borrowing, fields, others, asked, by decide, by decide,
      congrArg Prod.fst answered, ?_, status⟩
    have here : (oneFile "a.ts" "class K{}" (some (Runs.run Tools.borrowing))).here =
      { now := 1 } := rfl
    rw [here, answered]
    exact validated

end CodeAtlas.Command
