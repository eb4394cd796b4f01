import CodeAtlas.Proofs.Indexing.Libraries
import CodeAtlas.Proofs.Tools.Calls

/-! What an error answer leaves behind. A tool settles its arguments before it touches the store,
and what most tools then do is all or nothing. The tools that index are not: they write one thing
after the other, and what they need only later on may be missing then. -/
namespace CodeAtlas.Tools

open CodeAtlas.Graph
open CodeAtlas.Indexing (FunctionEntry Report)
open CodeAtlas.Source (Elements)

variable {α : Type} {here : Conditions} {settings : Settings} {arguments : Arguments}
  {store : Store} {tool : Tool} {spoiled : Graph → Prop}

/-- A tool's work answers with a success, or it leaves the store as it was, or it leaves a graph
that is spoiled in a known way. -/
def Sound (spoiled : Graph → Prop) (store : Store) (work : Work Answer) : Prop :=
  match work store with
  | (.ok answer, _) => answer.isError = false
  | (.error _, after) => after = store ∨ spoiled after.graph

def FailsClean (spoiled : Graph → Prop) (store : Store) (work : Access α) : Prop :=
  ∀ error after, work store = (.error error, after) → after = store ∨ spoiled after.graph

/-! Access below the tools. -/

theorem fails_clean_use {work : Session α}
    (clean : ∀ error after, work store.graph = (.error error, after) →
      after = store.graph ∨ spoiled after) : FailsClean spoiled store (use work) := by
  intro error after failed
  obtain ⟨graph, isOpen⟩ := store
  cases isOpen with
  | false => exact .inl (Prod.mk.inj failed).2.symm
  | true =>
    rw [use_open] at failed
    obtain ⟨reason, rfl⟩ := Prod.mk.inj failed
    exact (clean error _ (Prod.ext reason rfl)).imp_left (congrArg (Store.mk · true))

theorem fails_clean_query (read : Graph → Except Error α) :
    FailsClean spoiled store (use (query read)) :=
  fails_clean_use fun _ _ failed => .inl (Prod.mk.inj failed).2.symm

theorem query_keeps {read : Graph → Except Error α} {answer : Except Error α} {after : Store}
    (done : use (query read) store = (answer, after)) : after = store := by
  obtain ⟨graph, isOpen⟩ := store
  cases isOpen <;> exact (Prod.mk.inj done).2.symm

theorem fails_clean_perform (action : Contexts.Action) (context : String) :
    FailsClean spoiled store (Contexts.performIn action context) := by
  cases action with
  | create => exact fails_clean_query fun graph => .ok (graph.nodesOf context).length
  | delete | clear =>
    have kept : FailsClean spoiled store (use (commit (removeContext context))) :=
      fails_clean_use fun error after failed => by
        rw [commit_apply, remove_apply] at failed
        cases (Prod.mk.inj failed).1
    exact kept

/-! Work of the tools. -/

theorem sound_refuse (message : String) : Sound spoiled store (refuse message) := .inl rfl

theorem sound_throw (error : Error) : Sound spoiled store (throw (.failed error)) := .inl rfl

theorem sound_settle {given : Except Error α} {next : α → Work Answer}
    (rest : ∀ value, given = .ok value → Sound spoiled store (next value)) :
    Sound spoiled store (ofExcept given >>= next) := by
  rw [Sound, settled_bind_apply]
  cases given with
  | error error => exact .inl rfl
  | ok value => exact rest value rfl

theorem Sound.congr {work other : Work Answer} (same : work store = other store)
    (sound : Sound spoiled store other) : Sound spoiled store work := by
  rwa [Sound, same]

theorem Sound.mono {spoiled' : Graph → Prop} {work : Work Answer} (h : Sound spoiled store work)
    (weaker : ∀ after, spoiled after → spoiled' after) : Sound spoiled' store work := by
  unfold Sound at h ⊢
  split at h
  · exact h
  · exact h.imp_right (weaker _)

theorem sound_answered {work : Access α} (repeated : α → List Json) {fields : α → Fields}
    {status : α → String} (clean : FailsClean spoiled store work)
    (unprintable : ∀ value after error, work store = (.ok value, after) →
      (repeated value).mapM (here.print .answer) = .error error →
        after = store ∨ spoiled after.graph) :
    Sound spoiled store (do
      let value ← below work
      answered here (repeated value) (fields value) (status value)) := by
  rw [Sound, below_bind_apply]
  rcases done : work store with ⟨error | value, after⟩
  · exact clean error after done
  · dsimp only
    rw [answered_apply]
    cases printed : (repeated value).mapM (here.print .answer) with
    | error error => exact unprintable value after error done printed
    | ok texts => rfl

theorem sound_worded {work : Access α} {word : α → Answer} (clean : FailsClean spoiled store work)
    (success : ∀ value, (word value).isError = false) :
    Sound spoiled store (do return word (← below work)) := by
  rw [Sound, below_bind_apply]
  rcases done : work store with ⟨error | value, after⟩
  · exact clean error after done
  · exact success value

theorem sound_reading {read : Graph → Except Error α} {repeated : α → List Json}
    {fields : α → Fields} {status : α → String} :
    Sound spoiled store (do
      let value ← below (use (query read))
      answered here (repeated value) (fields value) (status value)) :=
  sound_answered repeated (fails_clean_query read) fun _ _ _ done _ => .inl (query_keeps done)

theorem sound_validate_code : Sound spoiled store (validateCode here settings arguments) := by
  unfold validateCode
  split
  · exact sound_refuse _
  · exact sound_settle fun _ _ => sound_settle fun _ _ => sound_settle fun _ _ => sound_reading

theorem sound_validate_file : Sound spoiled store (validateFile here settings arguments) := by
  unfold validateFile
  split
  · exact sound_refuse _
  · exact sound_refuse _
  · exact sound_settle fun _ _ => sound_settle fun _ _ => sound_settle fun _ _ =>
      sound_settle fun _ _ => sound_reading

theorem sound_check_code_quality :
    Sound spoiled store (checkCodeQuality here settings arguments) := by
  unfold checkCodeQuality
  split
  · exact sound_refuse _
  · exact sound_settle fun _ _ => sound_settle fun _ _ => sound_settle fun _ _ => sound_reading

theorem sound_analyze_relationships :
    Sound spoiled store (analyzeRelationships here settings arguments) := by
  unfold analyzeRelationships
  refine sound_settle fun name _ => sound_answered (fun _ => []) ?_ nofun
  intro error after failed
  rw [Review.analyzeNamed, Runs.settle_apply] at failed
  cases named : Review.AnalysisType.ofName name with
  | error error =>
    rw [named] at failed
    exact .inl (Prod.mk.inj failed).2.symm
  | ok analysis =>
    rw [named] at failed
    dsimp only at failed
    rw [Runs.settle_apply] at failed
    cases settled : scopeKey here settings arguments with
    | error error =>
      rw [settled] at failed
      exact .inl (Prod.mk.inj failed).2.symm
    | ok context =>
      rw [settled] at failed
      exact .inl (query_keeps failed)

theorem sound_act_on_context (action : Contexts.Action) :
    Sound spoiled store (actOnContext here action arguments) :=
  sound_settle fun _ _ => sound_settle fun context _ =>
    sound_answered (fun _ => []) (fails_clean_perform action context) nofun

theorem sound_manage_contexts : Sound spoiled store (manageContexts here arguments) := by
  unfold manageContexts
  split
  · exact sound_reading
  · exact sound_settle fun _ _ => sound_settle fun _ _ => sound_reading
  · exact sound_act_on_context _
  · exact sound_act_on_context _
  · exact sound_act_on_context _
  · unfold compareBranches
    split
    · exact sound_settle fun _ _ => sound_settle fun _ _ => sound_reading
    · exact sound_throw _
  · exact sound_settle fun _ _ => sound_refuse _

/-! The tools that may stop halfway. -/

/-- The node of a known library is refused after another library was indexed: what is left is what
indexing the names before it leaves. -/
def StopsBetween (here : Conditions) (settings : Settings) (arguments : Arguments)
    (graph after : Graph) : Prop :=
  ∃ names path context cell front name api,
    Declares here settings arguments names path context ∧
    Cell.ofJson (here.tooDeep .attribute) .library "project_path" path = .ok cell ∧
    Indexing.StoppedAt here names context (cell.text?.getD "") graph front name api after ∧
    ∃ earlier ∈ front, Library.find? earlier ≠ none

/-- How a tool that answers with an error can leave the graph changed. -/
inductive StopsHalfway (here : Conditions) (settings : Settings) (arguments : Arguments)
    (graph after : Graph) : Tool → Prop where
  /-- A file is given up in the middle. -/
  | file {path language : Json} {elements : Elements} {context : String}
    (reads : Reads here settings arguments path elements language context)
    (stops : Indexing.FileStops here elements path language context graph after) :
    StopsHalfway here settings arguments graph after .indexFile
  /-- A file is indexed, and its path cannot be printed in the answer. -/
  | fileAnswer {path language : Json} {elements : Elements} {context : String} {report : Report}
    {error : Error} (reads : Reads here settings arguments path elements language context)
    (indexed : Indexing.indexElementsOf here elements path language context graph =
      (.ok report, after))
    (unprintable : here.print .answer path = .error error) :
    StopsHalfway here settings arguments graph after .indexFile
  /-- Loose functions are given up in the middle. -/
  | functions {entries : List FunctionEntry} {language : Json} {context : String}
    (lists : Lists here settings arguments entries language context)
    (stops : Indexing.EntriesStop here entries language context graph after) :
    StopsHalfway here settings arguments graph after .indexFunctions
  /-- Loose functions are indexed, and the name of a failure cannot be printed in the answer. -/
  | functionsAnswer {entries : List FunctionEntry} {language : Json} {context : String}
    {report : Report} {names : List Json} {error : Error}
    (lists : Lists here settings arguments entries language context)
    (indexed : Indexing.indexEntries here entries language context graph =
      (.ok (report, names), after))
    (unprintable : names.mapM (here.print .answer) = .error error) :
    StopsHalfway here settings arguments graph after .indexFunctions
  | libraries (stops : StopsBetween here settings arguments graph after) :
    StopsHalfway here settings arguments graph after .indexDependencies

theorem sound_index_file :
    Sound (StopsHalfway here settings arguments store.graph · .indexFile) store
      (indexFile here settings arguments) := by
  rcases index_file_cases here settings arguments store with
    ⟨refusal, refused⟩ | ⟨path, elements, language, context, reads, done⟩
  · rw [Sound, refused]
    exact .inl rfl
  · refine Sound.congr done (sound_answered (fun _ => [path])
      (fails_clean_use fun error after failed => ?_) ?_)
    · exact (Indexing.index_elements_of_error failed).imp_right (.file reads)
    · intro report after error indexed unprintable
      refine .inr (.fileAnswer reads (used_ok indexed) (printed_alone unprintable))

theorem sound_index_functions :
    Sound (StopsHalfway here settings arguments store.graph · .indexFunctions) store
      (indexFunctions here settings arguments) := by
  rcases index_functions_cases here settings arguments store with
    ⟨refusal, refused⟩ | ⟨entries, language, context, lists, done⟩
  · rw [Sound, refused]
    exact .inl rfl
  · refine Sound.congr done (sound_answered Prod.snd
      (fails_clean_use fun error after failed => ?_) ?_)
    · rcases Indexing.index_entries_cases here lists.given language context store.graph with
        ⟨_, -, indexed⟩ | ⟨other, left, stops, stopped⟩
      · rw [indexed] at failed
        cases (Prod.mk.inj failed).1
      · rw [stopped] at failed
        obtain rfl := (Prod.mk.inj failed).2
        exact .inr (.functions lists stops)
    · intro indexed after error done unprintable
      exact .inr (.functionsAnswer lists (used_ok done) unprintable)

theorem sound_index_dependencies :
    Sound (StopsHalfway here settings arguments store.graph · .indexDependencies) store
      (indexDependencies here settings arguments) := by
  rcases index_dependencies_cases here settings arguments store with
    ⟨refusal, refused⟩ | ⟨names, path, context, declares, done⟩
  · rw [Sound, refused]
    exact .inl rfl
  · refine Sound.congr done (sound_worded (fails_clean_use fun error after failed => ?_)
      fun _ => rfl)
    refine (Indexing.index_names_for_error failed).imp_right ?_
    rintro ⟨cell, front, name, api, stored, stopped, known⟩
    exact .libraries ⟨names, path, context, cell, front, name, api, declares, stored, stopped,
      known⟩

theorem sound_work (tool : Tool) :
    Sound (StopsHalfway here settings arguments store.graph · tool) store
      (tool.work here settings arguments) := by
  cases tool with
  | indexFile => exact sound_index_file
  | indexFunctions => exact sound_index_functions
  | validateCode => exact sound_validate_code
  | validateFile => exact sound_validate_file
  | checkCodeQuality => exact sound_check_code_quality
  | manageContexts => exact sound_manage_contexts
  | analyzeRelationships => exact sound_analyze_relationships
  | indexDependencies => exact sound_index_dependencies

/-! Behind the schema. -/

theorem sound_index_file_accepted (accepted : Tool.indexFile.accepts arguments = true) :
    Sound spoiled store (indexFile here settings arguments) := by
  rcases index_file_accepted accepted here settings store with
    ⟨refusal, refused⟩ | ⟨path, elements, language, context, -, done⟩
  · rw [Sound, refused]
    exact .inl rfl
  · refine Sound.congr done (sound_worded (fails_clean_use fun error after failed => .inl ?_)
      fun _ => rfl)
    rw [Indexing.index_elements_apply] at failed
    cases put : upsert here (.file path context) [] store.graph with
    | error refused =>
      rw [put] at failed
      exact (Prod.mk.inj failed).2.symm
    | ok pair =>
      rw [put] at failed
      cases (Prod.mk.inj failed).1

theorem sound_index_functions_accepted (accepted : Tool.indexFunctions.accepts arguments = true) :
    Sound spoiled store (indexFunctions here settings arguments) := by
  rcases index_functions_accepted accepted here settings store with
    ⟨refusal, refused⟩ | ⟨functions, language, context, -, done⟩
  · rw [Sound, refused]
    exact .inl rfl
  · refine Sound.congr done (sound_worded (fails_clean_use fun error after failed => ?_)
      fun _ => rfl)
    rw [Indexing.index_functions_apply] at failed
    cases (Prod.mk.inj failed).1

theorem sound_accepted (tool : Tool) (accepted : tool.accepts arguments = true) :
    Sound (fun after => tool = .indexDependencies ∧
        StopsBetween here settings arguments store.graph after) store
      (tool.work here settings arguments) := by
  cases tool with
  | indexFile => exact sound_index_file_accepted accepted
  | indexFunctions => exact sound_index_functions_accepted accepted
  | validateCode => exact sound_validate_code
  | validateFile => exact sound_validate_file
  | checkCodeQuality => exact sound_check_code_quality
  | manageContexts => exact sound_manage_contexts
  | analyzeRelationships => exact sound_analyze_relationships
  | indexDependencies =>
    refine sound_index_dependencies.mono fun after stops => ?_
    cases stops with
    | libraries stops => exact ⟨rfl, stops⟩

/-! Answers. -/

theorem Sound.answer {after : Store} {answer : Answer}
    (sound : Sound spoiled store (tool.work here settings arguments))
    (answered : tool.answer here settings arguments store = (answer, after))
    (isError : answer.isError = true) : after = store ∨ spoiled after.graph := by
  unfold Tool.answer at answered
  unfold Sound at sound
  rcases done : tool.work here settings arguments store with ⟨(message | error) | success, left⟩
  · rw [done] at answered sound
    exact (Prod.mk.inj answered).2 ▸ sound
  · rw [done] at answered sound
    exact (Prod.mk.inj answered).2 ▸ sound
  · rw [done] at answered sound
    obtain ⟨rfl, -⟩ := Prod.mk.inj answered
    simp [sound] at isError

/-- An error answer leaves the store as it was, unless a tool that indexes was stopped halfway.
Behind the schema check that is only where libraries are indexed before the next one is refused. -/
theorem error_leaves_store (here : Conditions) (settings : Settings) (name : String)
    (arguments : Arguments) (store : Store) (answer : Answer) (after : Store) :
    (call here settings name arguments store = (answer, after) → answer.isError = true →
      after = store ∨ ∃ tool, Tool.ofName? name = some tool ∧
        StopsHalfway here settings arguments store.graph after.graph tool) ∧
    (callChecked here settings name arguments store = (answer, after) → answer.isError = true →
      after = store ∨ (Tool.ofName? name = some .indexDependencies ∧
        StopsBetween here settings arguments store.graph after.graph)) := by
  constructor
  · intro called isError
    unfold call at called
    cases named : Tool.ofName? name with
    | none =>
      rw [named] at called
      exact .inl (Prod.mk.inj called).2.symm
    | some tool =>
      rw [named] at called
      exact ((sound_work tool).answer called isError).imp_right fun stops => ⟨tool, rfl, stops⟩
  · intro called isError
    unfold callChecked at called
    cases named : Tool.ofName? name with
    | none =>
      rw [named] at called
      exact .inl (Prod.mk.inj called).2.symm
    | some tool =>
      rw [named] at called
      dsimp only at called
      split_ifs at called with accepted
      · refine ((sound_accepted tool accepted).answer called isError).imp_right ?_
        rintro ⟨rfl, stops⟩
        exact ⟨rfl, stops⟩
      · exact .inl (Prod.mk.inj called).2.symm

def plainSettings : Settings := ⟨"", .text "default", .text "main", "WARNING"⟩

def emptyFile : Arguments := [("file_path", .text "a.ts"), ("content", .text "")]

/-- A file that the store refuses leaves nothing behind. -/
theorem refused_file_leaves_nothing :
    let here : Conditions := { now := 1, faults := [.create .file none] }
    (call here plainSettings "index_file" emptyFile {}).1.isError = true ∧
      (callChecked here plainSettings "index_file" emptyFile {}).2 = {} := by
  intro here
  have error : (callChecked here plainSettings "index_file" emptyFile {}).1.isError = true := by
    decide +kernel
  have named : Tool.ofName? "index_file" = some .indexFile := by decide
  have same : callChecked here plainSettings "index_file" emptyFile =
      call here plainSettings "index_file" emptyFile := by
    rw [callChecked, call, named]
    rfl
  refine ⟨same ▸ error, ?_⟩
  refine ((error_leaves_store here plainSettings "index_file" emptyFile {} _ _).2 rfl
    error).resolve_right ?_
  rintro ⟨known, -⟩
  cases named.symm.trans known

def twoLibraries : Arguments :=
  [("package_json", .text (Json.object [("dependencies",
    .object [("next/router", .text "1"), ("uuid", .text "1")])]).compact)]

/-- The store refuses the second of two libraries: the answer is an error and the first one stays.
-/
theorem first_library_stays :
    ¬ ∀ (here : Conditions) (settings : Settings) (name : String) (arguments : Arguments)
      (store : Store), (callChecked here settings name arguments store).1.isError = true →
        (callChecked here settings name arguments store).2.graph = store.graph := by
  intro unchanged
  have stays : (fun called : Answer × Store =>
      called.1.isError = true ∧ called.2.graph.nodes.length = 4)
      (callChecked { now := 1, faults := [.create .library (some "uuid")] } plainSettings
        "index_dependencies" twoLibraries {}) := by
    decide +kernel
  obtain ⟨error, written⟩ := stays
  rw [unchanged _ _ _ _ _ error] at written
  cases written

end CodeAtlas.Tools
