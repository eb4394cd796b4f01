import CodeAtlas.Proofs.Review.Relations
import CodeAtlas.Proofs.Tools.Calls
import CodeAtlas.Settings.Load

/-! Errors that no tool foresees. A tool has words of its own for what it foresees; whatever else
goes wrong is caught at the very end, where nothing is known about it. Arguments that conform to a
tool's schema, a manifest that its reader can go through, and lists that only the tools have stored
leave nothing for that place to catch. -/
namespace CodeAtlas.Tools

open CodeAtlas.Graph

variable {here : Conditions} {settings : Settings} {arguments : Arguments} {store : Store}
  {tool : Tool} {name : String} {error : Error} {α : Type}

/-! Errors below the tools. -/

theorem required_error {parameters : List (String × Bool)}
    (h : Contexts.require name parameters = .error error) : error.isForeseen = true := by
  unfold Contexts.require at h
  split_ifs at h
  obtain rfl := Except.error.inj h
  rfl

theorem analysis_name_error (h : Review.AnalysisType.ofName name = .error error) :
    error.isForeseen = true := by
  unfold Review.AnalysisType.ofName at h
  split at h
  · cases h
  · obtain rfl := Except.error.inj h
    rfl

def Printable (here : Conditions) (value : Json) : Prop :=
  ∀ place, ∃ text, here.print place value = .ok text

theorem printable_text (here : Conditions) (text : String) : Printable here (.text text) :=
  fun _ => ⟨text, rfl⟩

def Searchable (value : Json) : Prop := ∃ found, Scope.hasSeparator value = .ok found

theorem scope_error {project branch : Json} (searched : Searchable project)
    (named : Printable here project) (grown : Printable here branch)
    (h : Scope.key here project branch = .error error) : error.isForeseen = true := by
  have effective (value : Json) (printable : Printable here value) (default : String) :
      Printable here (Scope.effective value default) := by
    unfold Scope.effective
    split_ifs
    · exact printable
    · exact printable_text here default
  obtain ⟨found, holds⟩ :
      Searchable (Scope.effective project BranchContext.defaultProject) := by
    unfold Scope.effective
    split_ifs
    · exact searched
    · exact ⟨_, rfl⟩
  obtain ⟨shown, told⟩ := effective project named BranchContext.defaultProject .message
  obtain ⟨start, begun⟩ := effective project named BranchContext.defaultProject .scope
  obtain ⟨ending, ended⟩ := effective branch grown BranchContext.defaultBranch .scope
  unfold Scope.key at h
  dsimp only at h
  rw [holds, except_ok_bind, told, begun, ended] at h
  cases found with
  | true =>
    obtain rfl := Except.error.inj h
    rfl
  | false => cases h

/-- Access that keeps the stored lists readable and fails in foreseen ways only. -/
def Orderly (store : Store) (work : Access α) : Prop :=
  ListsReadable (work store).2.graph ∧
    ∀ error, (work store).1 = .error error → error.isForeseen = true

section Access

variable (readable : ListsReadable store.graph)

include readable

theorem orderly_throw (foreseen : error.isForeseen = true) :
    Orderly store (throw error : Access α) := by
  refine ⟨readable, fun other failed => ?_⟩
  obtain rfl := Except.error.inj failed
  exact foreseen

theorem orderly_settle {β : Type} {given : Except Error β} {next : β → Access α}
    (foreseen : ∀ error, given = .error error → error.isForeseen = true)
    (rest : ∀ value, given = .ok value → Orderly store (next value)) :
    Orderly store (do let value ← given; next value) := by
  cases given with
  | error error => exact orderly_throw readable (foreseen error rfl)
  | ok value => exact rest value rfl

theorem orderly_use {work : Session α} (keeps : SessionMoves KeepsLists work)
    (foreseen : ∀ error, (work store.graph).1 = .error error → error.isForeseen = true) :
    Orderly store (use work) := by
  obtain ⟨graph, isOpen⟩ := store
  cases isOpen with
  | false => exact orderly_throw readable rfl
  | true =>
    rw [Orderly, use_open]
    exact ⟨keeps graph readable, foreseen⟩

theorem orderly_query {read : Graph → Except Error α}
    (foreseen : ∀ error, read store.graph = .error error → error.isForeseen = true) :
    Orderly store (use (query read)) :=
  orderly_use readable (keeps_lists_chains.session_query read) foreseen

theorem orderly_index_elements (elements : Source.Elements) (path language context : String) :
    Orderly store (use (Indexing.indexElements here elements path language context)) := by
  refine orderly_use readable ((Indexing.sessions_keep_lists here).elements _ _ _ _)
    fun error failed => ?_
  rw [Indexing.index_elements_apply] at failed
  cases put : upsert here (.file path context) [] store.graph with
  | error refused =>
    rw [put] at failed
    obtain rfl := Except.error.inj failed
    rw [upsert_error put]
    rfl
  | ok pair =>
    rw [put] at failed
    cases failed

theorem orderly_index_functions (functions : List Indexing.LooseFunction)
    (language context : String) :
    Orderly store (use (Indexing.indexFunctions here functions language context)) := by
  refine orderly_use readable ((Indexing.sessions_keep_lists here).functions _ _ _)
    fun error failed => ?_
  rw [Indexing.index_functions_apply] at failed
  cases failed

theorem orderly_index_names (names : List Library.Name) (context path : String) :
    Orderly store (use (Indexing.indexNames here names context path)) := by
  refine orderly_use readable ((Indexing.sessions_keep_lists here).names _ _ _)
    fun error failed => ?_
  rw [Indexing.index_names_from_refused failed]
  rfl

theorem orderly_perform_in (action : Contexts.Action) (context : String) :
    Orderly store (Contexts.performIn action context) := by
  cases action with
  | create => exact orderly_query readable fun _ failed => by cases failed
  | delete | clear =>
    refine orderly_use readable (keeps_lists_chains.session_commit ?_) fun error failed => ?_
    · rintro graph removed after done
      obtain ⟨-, rfl⟩ := Prod.mk.inj (Except.ok.inj done)
      exact without_keeps_lists graph context
    · rw [commit_apply, remove_apply] at failed
      cases failed

theorem orderly_analyze (analysis : String) {context : Except Error String}
    (foreseen : ∀ error, context = .error error → error.isForeseen = true)
    (element : Option String) :
    Orderly store (Review.analyzeNamed analysis context element) := by
  refine orderly_settle readable (fun _ => analysis_name_error) fun analysis _ =>
    orderly_settle readable foreseen fun context _ =>
      orderly_query readable fun error failed => ?_
  obtain ⟨report, answered⟩ := Review.analysis_answers readable context analysis element
  rw [answered] at failed
  cases failed

end Access

/-! Arguments that conform to a schema. -/

/-- The defaults of some settings can stand in the string of a context. -/
structure Serves (here : Conditions) (settings : Settings) : Prop where
  searchable : Searchable settings.defaultProject
  project : Printable here settings.defaultProject
  branch : Printable here settings.defaultBranch

theorem scope_key_error (accepted : tool.accepts arguments = true)
    (project : tool.TakesText "project") (branch : tool.TakesText "branch")
    (serves : Serves here settings) (h : scopeKey here settings arguments = .error error) :
    error.isForeseen = true := by
  refine scope_error ?_ ?_ ?_ h
  · cases given : arguments.given? "project" with
    | none => exact serves.searchable
    | some value =>
      obtain ⟨text, rfl, -⟩ := given_text accepted project given
      exact ⟨_, rfl⟩
  · cases given : arguments.given? "project" with
    | none => exact serves.project
    | some value =>
      obtain ⟨text, rfl, -⟩ := given_text accepted project given
      exact printable_text here text
  · cases given : arguments.given? "branch" with
    | none => exact serves.branch
    | some value =>
      obtain ⟨text, rfl, -⟩ := given_text accepted branch given
      exact printable_text here text

theorem scope_error_texts {project branch : String}
    (h : Scope.key here (.text project) (.text branch) = .error error) :
    error.isForeseen = true :=
  scope_error ⟨_, rfl⟩ (printable_text here project) (printable_text here branch) h

theorem given_action (accepted : Tool.manageContexts.accepts arguments = true) :
    ∃ action ∈ contextActions, arguments.get "action" = .text action := by
  obtain ⟨action, asked⟩ : ∃ text, arguments.get "action" = .text text :=
    required_text accepted (by decide)
  have conforms := List.all_eq_true.mp accepted _ List.mem_cons_self
  dsimp only at conforms
  rw [Arguments.get] at asked
  cases found : arguments.lookup "action" with
  | none =>
    rw [found] at asked
    cases asked
  | some value =>
    rw [found] at conforms asked
    obtain rfl : value = .text action := asked
    refine ⟨action, List.contains_iff_mem.mp conforms, ?_⟩
    rw [Arguments.get, found]
    rfl

theorem taken_text (accepted : tool.accepts arguments = true) (takes : tool.TakesText name)
    (given : (arguments.get name).isGiven = true) : ∃ text, arguments.get name = .text text := by
  rw [Arguments.get] at given ⊢
  cases found : arguments.lookup name with
  | none =>
    rw [found] at given
    cases given
  | some value => exact accepted_text accepted takes found

/-! Work of the tools. -/

def Tool.demands : Tool → List String
  | indexFile | validateFile => ["file_path and content are required"]
  | indexFunctions => ["At least one function is required"]
  | indexDependencies => ["package_json is required"]
  | _ => []

/-- Work that keeps the stored lists readable and has a result, a demand of its tool, or an error
that is foreseen. -/
def Handled (tool : Tool) (store : Store) (work : Work Answer) : Prop :=
  ListsReadable (work store).2.graph ∧
    match (work store).1 with
    | .ok answer => ∃ fields status, answer = .success fields status
    | .error (.said message) => message ∈ tool.demands
    | .error (.failed error) => error.isForeseen = true

section Work

variable (readable : ListsReadable store.graph)

include readable

theorem handled_refuse {message : String} (demanded : message ∈ tool.demands) :
    Handled tool store (refuse message) := ⟨readable, demanded⟩

theorem handled_throw (foreseen : error.isForeseen = true) :
    Handled tool store (throw (.failed error)) := ⟨readable, foreseen⟩

theorem handled_settle {given : Except Error α} {next : α → Work Answer}
    (foreseen : ∀ error, given = .error error → error.isForeseen = true)
    (rest : ∀ value, given = .ok value → Handled tool store (next value)) :
    Handled tool store (ofExcept given >>= next) := by
  rw [Handled, work_bind_apply]
  cases given with
  | error error => exact ⟨readable, foreseen error rfl⟩
  | ok value => exact rest value rfl

omit readable in
theorem handled_settled {given : Except Error α} {value : α} {next : α → Work Answer}
    (settled : given = .ok value) (rest : Handled tool store (next value)) :
    Handled tool store (ofExcept given >>= next) := by
  rw [settled]
  exact rest

omit readable in
theorem handled_answered {work : Access α} {repeated : α → List Json} {fields : α → Fields}
    {status : α → String} (orderly : Orderly store work)
    (printed : ∀ value, ∃ texts, (repeated value).mapM (here.print .answer) = .ok texts) :
    Handled tool store (do
      let value ← below work
      answered here (repeated value) (fields value) (status value)) := by
  obtain ⟨kept, foreseen⟩ := orderly
  rw [Handled, below_bind_apply]
  rcases done : work store with ⟨error | value, after⟩
  · rw [done] at kept foreseen
    exact ⟨kept, foreseen error rfl⟩
  · rw [done] at kept
    obtain ⟨texts, shown⟩ := printed value
    dsimp only
    rw [answered_apply, shown]
    exact ⟨kept, _, _, rfl⟩

omit readable in
theorem handled_worded {work : Access α} {word : α → Answer} (orderly : Orderly store work)
    (success : ∀ value, ∃ fields status, word value = .success fields status) :
    Handled tool store (do return word (← below work)) := by
  obtain ⟨kept, foreseen⟩ := orderly
  rw [Handled, below_bind_apply]
  rcases done : work store with ⟨error | value, after⟩
  · rw [done] at kept foreseen
    exact ⟨kept, foreseen error rfl⟩
  · rw [done] at kept
    exact ⟨kept, success value⟩

omit readable in
theorem texts_shown (here : Conditions) (texts : List String) :
    ∃ shown, (texts.map Json.text).mapM (here.print .answer) = .ok shown :=
  ⟨texts, texts_printed here .answer texts⟩

theorem handled_index_file (accepted : Tool.indexFile.accepts arguments = true)
    (serves : Serves here settings) :
    Handled .indexFile store (indexFile here settings arguments) := by
  obtain ⟨content, text⟩ : ∃ text, arguments.get "content" = .text text :=
    required_text accepted (by decide)
  unfold indexFile
  rw [text]
  cases filed : arguments.given? "file_path" with
  | none => exact handled_refuse readable List.mem_cons_self
  | some value =>
    obtain ⟨path, rfl, filled⟩ := given_text accepted (by decide) filed
    obtain ⟨extension, dialect, -⟩ := dialect_given accepted (by decide) filled
    obtain ⟨language, spoken⟩ := language_text accepted (by decide) extension
    dsimp only
    rw [dialect, parse_code_texts]
    refine handled_settled spoken <| handled_settle readable
      (fun _ => scope_key_error accepted (by decide) (by decide) serves) fun context _ => ?_
    rw [elements_of_texts]
    exact handled_answered (orderly_index_elements readable _ path language context)
      fun _ => texts_shown here [path]

theorem handled_index_functions (accepted : Tool.indexFunctions.accepts arguments = true)
    (serves : Serves here settings) :
    Handled .indexFunctions store (indexFunctions here settings arguments) := by
  unfold indexFunctions
  cases given : arguments.given? "functions" with
  | none => exact handled_refuse readable List.mem_cons_self
  | some value =>
    obtain ⟨items, rfl, shaped⟩ := given_functions accepted given
    obtain ⟨functions, read⟩ := entries_of_shaped shaped
    obtain ⟨language, spoken⟩ := default_text accepted "language" (by decide) "typescript"
    refine handled_settled read <| handled_settle readable
      (fun _ => scope_key_error accepted (by decide) (by decide) serves) fun context _ => ?_
    dsimp only
    rw [spoken, Handled, answered_entries]
    exact handled_worded (orderly_index_functions readable functions language context)
      fun _ => ⟨_, _, rfl⟩

theorem handled_reading (texts : List String) {read : Graph → Except Error α} {fields : α → Fields}
    (reads : ∃ value, read store.graph = .ok value) :
    Handled tool store (do
      let value ← below (use (query read))
      answered here (texts.map .text) (fields value)) := by
  obtain ⟨value, done⟩ := reads
  refine handled_answered (orderly_query readable fun _ failed => ?_) fun _ =>
    texts_shown here texts
  rw [done] at failed
  cases failed

theorem handled_validate_code (accepted : Tool.validateCode.accepts arguments = true)
    (serves : Serves here settings) :
    Handled .validateCode store (validateCode here settings arguments) := by
  obtain ⟨code, text⟩ : ∃ text, arguments.get "code" = .text text :=
    required_text accepted (by decide)
  obtain ⟨extension, dialect⟩ := default_text accepted "file_extension" (by decide) "ts"
  obtain ⟨language, spoken⟩ := language_text accepted (by decide) extension
  unfold validateCode
  rw [text]
  dsimp only
  rw [dialect]
  refine handled_settled spoken <| handled_settled (parse_code_texts _ _) <| handled_settle readable
    (fun _ => scope_key_error accepted (by decide) (by decide) serves) fun context _ => ?_
  refine handled_reading readable [] ?_
  unfold languageText
  split_ifs <;> exact ⟨_, rfl⟩

theorem handled_validate_file (accepted : Tool.validateFile.accepts arguments = true)
    (serves : Serves here settings) :
    Handled .validateFile store (validateFile here settings arguments) := by
  obtain ⟨content, text⟩ : ∃ text, arguments.get "content" = .text text :=
    required_text accepted (by decide)
  unfold validateFile
  rw [text]
  cases filed : arguments.given? "file_path" with
  | none => exact handled_refuse readable List.mem_cons_self
  | some value =>
    obtain ⟨path, rfl, filled⟩ := given_text accepted (by decide) filed
    obtain ⟨extension, dialect, -⟩ := dialect_given accepted (by decide) filled
    obtain ⟨language, spoken⟩ := language_text accepted (by decide) extension
    dsimp only
    rw [dialect]
    refine handled_settled spoken <| handled_settled (parse_code_texts _ _) <|
      handled_settle readable
        (fun _ => scope_key_error accepted (by decide) (by decide) serves) fun context _ => ?_
    exact handled_settled (rfl : here.print .key (.text path) = .ok path) <|
      handled_reading readable [path] ⟨_, rfl⟩

theorem handled_check_code_quality (accepted : Tool.checkCodeQuality.accepts arguments = true)
    (serves : Serves here settings) :
    Handled .checkCodeQuality store (checkCodeQuality here settings arguments) := by
  obtain ⟨code, text⟩ : ∃ text, arguments.get "code" = .text text :=
    required_text accepted (by decide)
  obtain ⟨extension, dialect⟩ := default_text accepted "file_extension" (by decide) "ts"
  obtain ⟨language, spoken⟩ := language_text accepted (by decide) extension
  unfold checkCodeQuality
  rw [text]
  dsimp only
  rw [dialect]
  refine handled_settled spoken <| handled_settled (parse_code_texts _ _) <| handled_settle readable
    (fun _ => scope_key_error accepted (by decide) (by decide) serves) fun context _ => ?_
  exact handled_reading readable [language] ⟨_, rfl⟩

theorem handled_analyze_relationships
    (accepted : Tool.analyzeRelationships.accepts arguments = true)
    (serves : Serves here settings) :
    Handled .analyzeRelationships store (analyzeRelationships here settings arguments) := by
  obtain ⟨name, asked⟩ := default_text accepted "analysis_type" (by decide)
    Review.AnalysisType.all.name
  unfold analyzeRelationships
  dsimp only
  rw [asked]
  refine handled_settled (rfl : here.print .message (.text name) = .ok name) ?_
  exact handled_answered (orderly_analyze readable name
    (fun _ => scope_key_error accepted (by decide) (by decide) serves) _)
    fun _ => texts_shown here []

def Arguments.legible (here : Conditions) (arguments : Arguments) : Bool :=
  match arguments.get "package_json" with
  | .text manifest => (Library.readDependencies here.stack manifest).isOk
  | _ => true

omit readable in
theorem legible_manifest {manifest : String} (legible : arguments.legible here = true)
    (given : arguments.given? "package_json" = some (.text manifest)) :
    ∃ names, Library.readDependencies here.stack manifest = .ok names := by
  rw [Arguments.legible, get_of_given given] at legible
  cases read : Library.readDependencies here.stack manifest with
  | error error =>
    simp only [read] at legible
    cases legible
  | ok names => exact ⟨names, rfl⟩

theorem handled_index_dependencies
    (accepted : Tool.indexDependencies.accepts arguments = true)
    (serves : Serves here settings) (legible : arguments.legible here = true) :
    Handled .indexDependencies store (indexDependencies here settings arguments) := by
  unfold indexDependencies
  cases given : arguments.given? "package_json" with
  | none => exact handled_refuse readable List.mem_cons_self
  | some value =>
    obtain ⟨manifest, rfl, -⟩ := given_text accepted (by decide) given
    obtain ⟨names, read⟩ := legible_manifest legible given
    obtain ⟨path, placed⟩ := default_text accepted "project_path" (by decide) "unknown"
    refine handled_settle readable
      (fun _ => scope_key_error accepted (by decide) (by decide) serves) fun context _ => ?_
    refine handled_settled (rfl : textOf (.text manifest) = .ok manifest) <|
      handled_settled read ?_
    rw [placed]
    exact handled_worded (orderly_index_names readable names context path)
      fun report => ⟨report.fields, _, rfl⟩

omit readable in
theorem given_of_required {parameters : List (String × Bool)} {given : Unit}
    (required : Contexts.require name parameters = .ok given) :
    ∀ parameter ∈ parameters, parameter.2 = true := by
  unfold Contexts.require at required
  split_ifs at required with none
  intro parameter mem
  rw [Contexts.missing, List.isEmpty_iff, List.map_eq_nil_iff, List.filter_eq_nil_iff] at none
  simpa using none parameter mem

theorem handled_act_on_context (accepted : Tool.manageContexts.accepts arguments = true)
    (action : Contexts.Action) :
    Handled .manageContexts store (actOnContext here action arguments) := by
  unfold actOnContext
  dsimp only
  refine handled_settle readable (fun _ => required_error) fun given required => ?_
  have all := given_of_required required
  obtain ⟨project, named⟩ : ∃ text, arguments.get "project" = .text text :=
    taken_text accepted (by decide) (all _ List.mem_cons_self)
  obtain ⟨branch, grown⟩ : ∃ text, arguments.get "branch" = .text text :=
    taken_text accepted (by decide) (all _ (List.mem_cons_of_mem _ List.mem_cons_self))
  rw [named, grown]
  refine handled_settle readable (fun _ => scope_error_texts) fun context _ => ?_
  exact handled_answered (orderly_perform_in readable action context) fun _ => texts_shown here []

theorem handled_list_branches (accepted : Tool.manageContexts.accepts arguments = true) :
    Handled .manageContexts store (listBranches here arguments) := by
  unfold listBranches
  dsimp only
  refine handled_settle readable (fun _ => required_error) fun given required => ?_
  obtain ⟨project, named⟩ : ∃ text, arguments.get "project" = .text text :=
    taken_text accepted (by decide) (given_of_required required _ List.mem_cons_self)
  rw [named]
  exact handled_settled (rfl : here.print .scope (.text project) = .ok project) <|
    handled_reading readable [project] ⟨_, rfl⟩

theorem handled_compare_branches (accepted : Tool.manageContexts.accepts arguments = true) :
    Handled .manageContexts store (compareBranches here arguments) := by
  unfold compareBranches
  split
  next project source target named begun ended =>
    obtain ⟨project, rfl, -⟩ := given_text accepted (by decide) named
    obtain ⟨source, rfl, -⟩ := given_text accepted (by decide) begun
    obtain ⟨target, rfl, -⟩ := given_text accepted (by decide) ended
    refine handled_settle readable (fun _ => scope_error_texts) fun _ _ =>
      handled_settle readable (fun _ => scope_error_texts) fun _ _ => ?_
    exact handled_reading readable [project, source, target] ⟨_, rfl⟩
  next => exact handled_throw readable rfl

theorem handled_manage_contexts (accepted : Tool.manageContexts.accepts arguments = true) :
    Handled .manageContexts store (manageContexts here arguments) := by
  obtain ⟨action, mem, asked⟩ := given_action accepted
  unfold manageContexts
  rw [asked]
  simp only [contextActions, List.mem_cons, List.not_mem_nil, or_false] at mem
  rcases mem with rfl | rfl | rfl | rfl | rfl | rfl
  · exact handled_reading readable [] ⟨_, rfl⟩
  · exact handled_list_branches readable accepted
  · exact handled_act_on_context readable accepted .create
  · exact handled_act_on_context readable accepted .delete
  · exact handled_act_on_context readable accepted .clear
  · exact handled_compare_branches readable accepted

theorem handled_work (tool : Tool) (accepted : tool.accepts arguments = true)
    (serves : Serves here settings) (legible : arguments.legible here = true) :
    Handled tool store (tool.work here settings arguments) := by
  cases tool with
  | indexFile => exact handled_index_file readable accepted serves
  | indexFunctions => exact handled_index_functions readable accepted serves
  | validateCode => exact handled_validate_code readable accepted serves
  | validateFile => exact handled_validate_file readable accepted serves
  | checkCodeQuality => exact handled_check_code_quality readable accepted serves
  | manageContexts => exact handled_manage_contexts readable accepted
  | analyzeRelationships => exact handled_analyze_relationships readable accepted serves
  | indexDependencies => exact handled_index_dependencies readable accepted serves legible

end Work

/-! Answers. -/

/-- A result, or one of the texts in which a tool refuses: what it demands, or what it was to do and
why it could not. -/
def InOwnWords (tool : Tool) (arguments : Arguments) (answer : Answer) : Prop :=
  (∃ fields status, answer = .success fields status) ∨
  (∃ message ∈ tool.demands, answer = .failure message) ∨
  ∃ error : Error, error.isForeseen = true ∧
    answer = .failure s!"Failed to {tool.purpose arguments}: {error.message}"

theorem answer_in_own_words (readable : ListsReadable store.graph)
    (accepted : tool.accepts arguments = true) (serves : Serves here settings)
    (legible : arguments.legible here = true) :
    ListsReadable (tool.answer here settings arguments store).2.graph ∧
      InOwnWords tool arguments (tool.answer here settings arguments store).1 := by
  have work : Handled tool store (tool.work here settings arguments) :=
    handled_work readable tool accepted serves legible
  obtain ⟨kept, handled⟩ := work
  unfold Tool.answer
  rcases done : tool.work here settings arguments store with ⟨(message | error) | answer, after⟩ <;>
    rw [done] at kept handled
  · exact ⟨kept, .inr (.inl ⟨message, handled, rfl⟩)⟩
  · have worded : tool.failureText arguments error =
        s!"Failed to {tool.purpose arguments}: {error.message}" := if_pos handled
    exact ⟨kept, .inr (.inr ⟨error, handled, congrArg Answer.failure worded⟩)⟩
  · exact ⟨kept, .inl handled⟩

/-- Settings as they are loaded, from whatever files, environment and overrides. -/
def IsLoaded (settings : Settings) : Prop :=
  ∃ host file directory overrides, Settings.load host file directory overrides = .ok settings

/-- A default project was searched for the separator before, so it can be searched again. -/
theorem searched_project {host : Host} {value : Yaml} {project : Json}
    (named : Settings.projectOf host value = .ok project) : Searchable project := by
  obtain ⟨refused, asked, named⟩ := except_bind named
  cases refused with
  | true =>
    obtain ⟨_, -, named⟩ := except_bind named
    cases named
  | false =>
    obtain rfl := Except.ok.inj named
    unfold Settings.isNoProject at asked
    split_ifs at asked
    · cases value with
      | text | list | mapping | set | ordered => exact ⟨_, rfl⟩
      | _ => cases asked
    · cases asked

theorem loaded_searchable (loaded : IsLoaded settings) : Searchable settings.defaultProject := by
  obtain ⟨host, file, directory, overrides, loaded⟩ := loaded
  obtain ⟨fromFile, -, loaded⟩ := except_bind loaded
  obtain ⟨environment, -, loaded⟩ := except_bind loaded
  obtain ⟨_, -, loaded⟩ := except_bind loaded
  obtain ⟨path, -, loaded⟩ := except_bind loaded
  obtain ⟨level, -, loaded⟩ := except_bind loaded
  obtain ⟨project, named, loaded⟩ := except_bind loaded
  obtain ⟨branch, -, loaded⟩ := except_bind loaded
  obtain rfl := Except.ok.inj loaded
  exact searched_project named

/-! Requests, one after the other. -/

/-- A call as it comes in: who serves it and when, what the store refuses then, and whether it is
open. The manifest of a call is taken to stay within what its reader can go through, and the
defaults of the settings within what can be printed, as all texts do. -/
structure Request where
  here : Conditions
  settings : Settings
  loaded : IsLoaded settings
  project : Printable here settings.defaultProject
  branch : Printable here settings.defaultBranch
  isOpen : Bool := true
  name : String
  arguments : Arguments
  legible : arguments.legible here = true

theorem Request.serves (request : Request) : Serves request.here request.settings :=
  ⟨loaded_searchable request.loaded, request.project, request.branch⟩

def Request.serve (request : Request) (graph : Graph) : Answer × Store :=
  callChecked request.here request.settings request.name request.arguments ⟨graph, request.isOpen⟩

def served (requests : List Request) : Graph :=
  requests.foldl (fun graph request => (request.serve graph).2.graph) .empty

theorem request_keeps_lists (request : Request) (graph : Graph) :
    KeepsLists graph (request.serve graph).2.graph := by
  intro readable
  unfold Request.serve callChecked
  cases Tool.ofName? request.name with
  | none => exact readable
  | some tool =>
    dsimp only
    split_ifs with accepted
    · exact (answer_in_own_words readable accepted request.serves
        request.legible).1
    · exact readable

theorem served_lists_readable (requests : List Request) : ListsReadable (served requests) := by
  refine List.foldlRecOn requests _ (motive := ListsReadable) ?_ ?_
  · simp [ListsReadable, Graph.empty]
  · exact fun graph readable request _ => request_keeps_lists request graph readable

/-- What a tool says in its own words is not what is said when nothing is known. -/
theorem own_words_known {answer : Answer} (own : InOwnWords tool arguments answer) :
    answer ≠ .failure "Tool execution failed" := by
  rintro rfl
  rcases own with ⟨fields, status, same⟩ | ⟨message, demanded, same⟩ | ⟨error, -, same⟩
  · cases congrArg Answer.isError same
  · have texts : "Tool execution failed" = message := congrArg Answer.text same
    subst texts
    cases tool <;> simp [Tool.demands] at demanded
  · have texts := congrArg (fun answer : Answer => answer.text.toList.head?) same
    simp only [Answer.failure, String.toList_append, List.head?_append] at texts
    have initials : some 'T' = some 'F' := texts
    cases initials

/-- Behind the schema check a tool always answers in its own words: after any requests, under any
faults and with the store open or closed, arguments that conform to its schema give a result or one
of the tool's own texts, and nothing is left for the place where unforeseen errors are caught. -/
theorem accepted_in_own_words (requests : List Request) (request : Request) (tool : Tool)
    (called : Tool.ofName? request.name = some tool)
    (accepted : tool.accepts request.arguments = true) :
    let answer := (request.serve (served requests)).1
    InOwnWords tool request.arguments answer ∧ answer ≠ .failure "Tool execution failed" := by
  have own : InOwnWords tool request.arguments (request.serve (served requests)).1 := by
    unfold Request.serve callChecked
    rw [called]
    dsimp only
    rw [if_pos accepted]
    exact (answer_in_own_words (served_lists_readable requests) accepted
      request.serves request.legible).2
  exact ⟨own, own_words_known own⟩

def defaultRequest (here : Conditions) (name : String) (arguments : Arguments)
    (legible : arguments.legible here = true := by decide) : Request where
  here := here
  settings := ⟨"/home/.mcp-code-validator/graph", .text "default", .text "main", "WARNING"⟩
  loaded := ⟨{ directory := "/work", home := "/home" }, none, none, [], rfl⟩
  project := printable_text here "default"
  branch := printable_text here "main"
  name := name
  arguments := arguments
  legible := legible

/-- After a file with an import was indexed, and while the store refuses everything that is new,
another one is answered in the words of the tool; so is the analysis of the imports. -/
theorem refused_in_own_words :
    let before := [defaultRequest { now := 1 } "index_file"
      [("file_path", .text "a.ts"), ("content", .text "import { b } from 'm';")]]
    let index := defaultRequest { now := 2, faults := [.create .file none] } "index_file"
      [("file_path", .text "b.ts"), ("content", .text ""), ("extra", .null)]
    let analyze :=
      defaultRequest { now := 3 } "analyze_relationships" [("analysis_type", .text "imports")]
    InOwnWords .indexFile index.arguments (index.serve (served before)).1 ∧
      (index.serve (served before)).1.isError = true ∧
      InOwnWords .analyzeRelationships analyze.arguments (analyze.serve (served before)).1 ∧
      (analyze.serve (served before)).1.isError = false := by
  intro before index analyze
  have indexed := accepted_in_own_words before index .indexFile (by decide) (by decide)
  have analyzed :=
    accepted_in_own_words before analyze .analyzeRelationships (by decide) (by decide)
  obtain ⟨refused, listed⟩ : (index.serve (served before)).1.isError = true ∧
      (analyze.serve (served before)).1.isError = false := by
    decide +kernel
  exact ⟨indexed.1, refused, analyzed.1, listed⟩

end CodeAtlas.Tools
