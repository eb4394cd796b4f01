import CodeAtlas.Proofs.Indexing.Entries
import CodeAtlas.Proofs.Runs
import CodeAtlas.Tools.Server

/-! What a call comes down to. A tool settles its arguments before it touches the store, does one
thing below, and words the answer. Of a tool that indexes, the arguments come down to values, which
are texts when they conform to its schema. -/
namespace CodeAtlas.Tools

open CodeAtlas.Graph
open CodeAtlas.Indexing (FunctionEntry LooseFunction Report)
open CodeAtlas.Source (Elements)

variable {α β : Type} {here : Conditions} {settings : Settings} {arguments : Arguments}
  {store after : Store} {answer : Answer} {tool : Tool} {name : String} {value : Json}

/-! Work. -/

theorem work_bind_apply (work : Work α) (next : α → Work β) (store : Store) :
    (work >>= next) store = match work store with
      | (.ok value, middle) => next value middle
      | (.error refusal, middle) => (.error refusal, middle) := by
  rw [stateful_bind_apply]
  rcases work store with ⟨_ | _, middle⟩ <;> rfl

theorem settled_bind_apply (given : Except Error α) (next : α → Work β) (store : Store) :
    (ofExcept given >>= next) store = match given with
      | .ok value => next value store
      | .error error => (.error (.failed error), store) := by
  cases given <;> rfl

theorem settled_ok_bind (value : α) (next : α → Work β) :
    (ofExcept (.ok value) >>= next) = next value := rfl

theorem below_bind_apply (work : Access α) (next : α → Work β) (store : Store) :
    (below work >>= next) store = match work store with
      | (.ok value, middle) => next value middle
      | (.error error, middle) => (.error (.failed error), middle) := by
  rw [work_bind_apply, below]
  rcases work store with ⟨_ | _, middle⟩ <;> rfl

theorem answered_apply (here : Conditions) (repeated : List Json) (fields : Fields)
    (status : String) (store : Store) :
    answered here repeated fields status store =
      match repeated.mapM (here.print .answer) with
      | .ok _ => (.ok (.success fields.written status), store)
      | .error error => (.error (.failed error), store) := by
  rw [answered, settled_bind_apply]
  cases repeated.mapM (here.print .answer) <;> rfl

theorem printed_alone {place : Place} {value : Json} {error : Error}
    (unprintable : [value].mapM (here.print place) = .error error) :
    here.print place value = .error error := by
  cases printed : here.print place value with
  | error other =>
    rw [List.mapM_cons, printed] at unprintable
    exact congrArg Except.error (Except.error.inj unprintable)
  | ok text =>
    rw [List.mapM_cons, printed] at unprintable
    cases unprintable

theorem texts_printed (here : Conditions) (place : Place) (texts : List String) :
    (texts.map Json.text).mapM (here.print place) = .ok texts := by
  induction texts with
  | nil => rfl
  | cons text texts ih =>
    rw [List.map_cons, List.mapM_cons, ih]
    rfl

theorem answered_texts (here : Conditions) (texts : List String) (fields : Fields)
    (status : String) :
    answered here (texts.map .text) fields status = pure (.success fields.written status) := by
  funext store
  rw [answered_apply, texts_printed]
  rfl

/-! Work that succeeds. -/

theorem used_ok {work : Session α} {result : α}
    (done : use work store = (.ok result, after)) :
    work store.graph = (.ok result, after.graph) := by
  obtain ⟨graph, isOpen⟩ := store
  cases isOpen with
  | false => cases (Prod.mk.inj done).1
  | true =>
    rw [use_open] at done
    obtain ⟨answer, rfl⟩ := Prod.mk.inj done
    exact Prod.ext answer rfl

theorem settled_bind_ok {given : Except Error α} {next : α → Work β} {result : β}
    (done : (ofExcept given >>= next) store = (.ok result, after)) :
    ∃ settled, given = .ok settled ∧ next settled store = (.ok result, after) := by
  cases given with
  | error error => cases (Prod.mk.inj done).1
  | ok settled => exact ⟨settled, rfl, done⟩

theorem access_settled {given : Except Error β} {next : β → Access α} {result : α}
    (done : (do let settled ← given; next settled : Access α) store = (.ok result, after)) :
    ∃ settled, given = .ok settled ∧ next settled store = (.ok result, after) := by
  rw [Runs.settle_apply] at done
  cases given with
  | error error => cases (Prod.mk.inj done).1
  | ok settled => exact ⟨settled, rfl, done⟩

theorem worded_ok {work : Access α} {word : α → Answer}
    (done : (do return word (← below work) : Work Answer) store = (.ok answer, after)) :
    ∃ result, work store = (.ok result, after) ∧ answer = word result := by
  rw [below_bind_apply] at done
  rcases worked : work store with ⟨error | result, middle⟩
  · rw [worked] at done
    cases (Prod.mk.inj done).1
  · rw [worked] at done
    obtain ⟨worded, rfl⟩ := Prod.mk.inj done
    exact ⟨result, rfl, (Except.ok.inj worded).symm⟩

theorem answered_ok {work : Access α} {repeated : α → List Json} {fields : α → Fields}
    {status : α → String} (done : (do
      let result ← below work
      answered here (repeated result) (fields result) (status result) : Work Answer) store =
        (.ok answer, after)) :
    ∃ result, work store = (.ok result, after) ∧
      answer = .success (fields result).written (status result) := by
  rw [below_bind_apply] at done
  rcases worked : work store with ⟨error | result, middle⟩
  · rw [worked] at done
    cases (Prod.mk.inj done).1
  · rw [worked] at done
    dsimp only at done
    rw [answered_apply] at done
    cases printed : (repeated result).mapM (here.print .answer) with
    | error error =>
      rw [printed] at done
      cases (Prod.mk.inj done).1
    | ok texts =>
      rw [printed] at done
      obtain ⟨worded, rfl⟩ := Prod.mk.inj done
      exact ⟨result, rfl, (Except.ok.inj worded).symm⟩

theorem answer_of_work (tool : Tool) {answer : Answer} {after : Store}
    (done : tool.work here settings arguments store = (.ok answer, after)) :
    tool.answer here settings arguments store = (answer, after) := by
  rw [Tool.answer, done]

theorem work_of_answer (tool : Tool)
    (answered : (tool.answer here settings arguments store).1 = answer)
    (result : answer.isError = false) :
    tool.work here settings arguments store =
      (.ok answer, (tool.answer here settings arguments store).2) := by
  rw [Tool.answer] at answered ⊢
  rcases done : tool.work here settings arguments store with ⟨(message | error) | value, after⟩
  · rw [done] at answered
    cases answered.symm ▸ result
  · rw [done] at answered
    cases answered.symm ▸ result
  · rw [done] at answered
    dsimp only at answered ⊢
    rw [answered]

/-! Arguments. -/

theorem lookup_of_given (given : arguments.given? name = some value) :
    arguments.lookup name = some value ∧ value.isGiven = true := by
  rw [Arguments.given?] at given
  split at given
  next found =>
    split_ifs at given with is
    obtain rfl := Option.some.inj given
    exact ⟨found, is⟩
  next => cases given

theorem given_of_lookup (found : arguments.lookup name = some value)
    (given : value.isGiven = true) : arguments.given? name = some value := by
  rw [Arguments.given?, found]
  exact if_pos given

theorem get_of_given (given : arguments.given? name = some value) : arguments.get name = value := by
  rw [Arguments.get, (lookup_of_given given).1]
  rfl

def ArgumentType.isText : ArgumentType → Bool
  | .text | .choice _ => true
  | .flag | .functions => false

def Tool.TakesText (tool : Tool) (name : String) : Prop :=
  ∃ parameter ∈ tool.parameters, parameter.name = name ∧ parameter.type.isText = true

instance (tool : Tool) (name : String) : Decidable (tool.TakesText name) :=
  inferInstanceAs (Decidable (∃ parameter ∈ tool.parameters, _))

theorem text_of_type {type : ArgumentType} (isText : type.isText = true)
    (conforms : type.accepts value = true) : ∃ text, value = .text text := by
  cases type with
  | flag | functions => cases isText
  | text | choice =>
    cases value with
    | text text => exact ⟨text, rfl⟩
    | _ => cases conforms

theorem accepted_text (accepted : tool.accepts arguments = true) (takes : tool.TakesText name)
    (found : arguments.lookup name = some value) : ∃ text, value = .text text := by
  obtain ⟨parameter, mem, rfl, type⟩ := takes
  have conforms := List.all_eq_true.mp accepted parameter mem
  simp only [found] at conforms
  exact text_of_type type conforms

theorem given_text (accepted : tool.accepts arguments = true) (takes : tool.TakesText name)
    (given : arguments.given? name = some value) : ∃ text, value = .text text ∧ text ≠ "" := by
  obtain ⟨found, is⟩ := lookup_of_given given
  obtain ⟨text, rfl⟩ := accepted_text accepted takes found
  exact ⟨text, rfl, by simpa [Json.isGiven] using is⟩

theorem default_text (accepted : tool.accepts arguments = true) (name : String)
    (takes : tool.TakesText name) (default : String) :
    ∃ text, (arguments.given? name).getD (.text default) = .text text := by
  cases given : arguments.given? name with
  | none => exact ⟨default, rfl⟩
  | some value =>
    obtain ⟨text, rfl, -⟩ := given_text accepted takes given
    exact ⟨text, rfl⟩

theorem required_text (accepted : tool.accepts arguments = true)
    (takes : ∃ parameter ∈ tool.parameters, parameter.name = name ∧
      parameter.type.isText = true ∧ parameter.required = true) :
    ∃ text, arguments.get name = .text text := by
  obtain ⟨parameter, mem, rfl, type, required⟩ := takes
  have conforms := List.all_eq_true.mp accepted parameter mem
  cases found : arguments.lookup parameter.name with
  | none =>
    rw [found] at conforms
    simp [required] at conforms
  | some value =>
    obtain ⟨text, rfl⟩ := accepted_text accepted ⟨parameter, mem, rfl, type⟩ found
    exact ⟨text, by rw [Arguments.get, found]; rfl⟩

theorem parse_code_texts (content extension : String) :
    parseCode (.text content) (.text extension) =
      .ok (Source.parseElements content extension) := by
  rw [parseCode, textOf, except_ok_bind]
  split_ifs with blank
  · exact congrArg Except.ok (if_pos blank).symm
  · rfl

/-! Files. -/

/-- What the arguments for a file come down to. -/
structure Reads (here : Conditions) (settings : Settings) (arguments : Arguments) (path : Json)
    (elements : Elements) (language : Json) (context : String) : Prop where
  filed : arguments.given? "file_path" = some path
  content : arguments.get "content" ≠ .null
  spoken : languageOf arguments ((arguments.given? "file_extension").getD path) = .ok language
  parsed : parseCode (arguments.get "content") ((arguments.given? "file_extension").getD path) =
    .ok elements
  settled : scopeKey here settings arguments = .ok context

/-- A file is refused before the store is touched, or what its arguments come down to is indexed. -/
theorem index_file_cases (here : Conditions) (settings : Settings) (arguments : Arguments)
    (store : Store) :
    let work := indexFile here settings arguments store
    (∃ refusal, work = (.error refusal, store)) ∨
    ∃ path elements language context,
      Reads here settings arguments path elements language context ∧
      work = (do
        let report ← below (use (Indexing.indexElementsOf here elements path language context))
        answered here [path] (report.fieldsAs path []) (statusOf report) : Work Answer) store := by
  generalize done : indexFile here settings arguments = work
  unfold indexFile at done
  dsimp only at done ⊢
  split at done
  · subst done
    exact .inl ⟨_, rfl⟩
  · subst done
    exact .inl ⟨_, rfl⟩
  next path filed content =>
    subst done
    rw [settled_bind_apply]
    cases spoken : languageOf arguments ((arguments.given? "file_extension").getD path) with
    | error error => exact .inl ⟨_, rfl⟩
    | ok language =>
      dsimp only
      cases parsed : parseCode (arguments.get "content")
          ((arguments.given? "file_extension").getD path) with
      | error error =>
        dsimp only
        rw [settled_bind_apply]
        cases here.print .message path <;> exact .inl ⟨_, rfl⟩
      | ok elements =>
        dsimp only
        rw [settled_bind_apply]
        cases settled : scopeKey here settings arguments with
        | error error => exact .inl ⟨_, rfl⟩
        | ok context =>
          exact .inr ⟨path, elements, language, context, ⟨filed, content, spoken, parsed, settled⟩,
            rfl⟩

theorem dialect_given (accepted : tool.accepts arguments = true)
    (takes : tool.TakesText "file_extension") {path : String} (filled : path ≠ "") :
    ∃ extension, (arguments.given? "file_extension").getD (.text path) = .text extension ∧
      extension ≠ "" := by
  cases given : arguments.given? "file_extension" with
  | none => exact ⟨path, rfl, filled⟩
  | some value =>
    obtain ⟨extension, rfl, known⟩ := given_text accepted takes given
    exact ⟨extension, rfl, known⟩

theorem language_text (accepted : tool.accepts arguments = true) (takes : tool.TakesText "language")
    (extension : String) : ∃ language, languageOf arguments (.text extension) =
      .ok (.text language) := by
  rw [languageOf]
  cases given : arguments.given? "language" with
  | none => exact ⟨_, rfl⟩
  | some value =>
    obtain ⟨language, rfl, -⟩ := given_text accepted takes given
    exact ⟨language, rfl⟩

theorem Reads.texts {path language : Json} {elements : Elements} {context : String}
    (reads : Reads here settings arguments path elements language context)
    (accepted : Tool.indexFile.accepts arguments = true) :
    ∃ name text, path = .text name ∧ language = .text text := by
  obtain ⟨name, rfl, filled⟩ := given_text accepted (by decide) reads.filed
  obtain ⟨extension, dialect, -⟩ := dialect_given accepted (by decide) filled
  have spoken := reads.spoken
  rw [dialect] at spoken
  obtain ⟨text, known⟩ := language_text accepted (by decide) extension
  exact ⟨name, text, rfl, Except.ok.inj (spoken.symm.trans known)⟩

theorem elements_of_texts (here : Conditions) (elements : Elements)
    (path language context : String) :
    Indexing.indexElementsOf here elements (.text path) (.text language) context =
      Indexing.indexElements here elements path language context :=
  funext (Indexing.index_elements_of_text here elements path language context)

def fileAnswer (path : String) (report : Report) : Answer :=
  .success (report.fieldsAs (.text path) []).written (statusOf report)

theorem text_of_parsed {code extension : Json} {elements : Elements}
    (parsed : parseCode code extension = .ok elements) : ∃ text, code = .text text := by
  cases code with
  | text text => exact ⟨text, rfl⟩
  | _ => cases parsed

theorem index_file_read {path language context : String} {elements : Elements}
    (reads : Reads here settings arguments (.text path) elements (.text language) context) :
    indexFile here settings arguments = (do
      let report ← below (use (Indexing.indexElements here elements path language context))
      return fileAnswer path report) := by
  obtain ⟨content, text⟩ := text_of_parsed reads.parsed
  have parsed := reads.parsed
  rw [text] at parsed
  rw [indexFile, reads.filed, text]
  dsimp only
  rw [reads.spoken, settled_ok_bind, parsed]
  dsimp only
  rw [reads.settled, settled_ok_bind, elements_of_texts]
  rfl

theorem index_file_accepted (accepted : Tool.indexFile.accepts arguments = true) (here : Conditions)
    (settings : Settings) (store : Store) :
    let work := indexFile here settings arguments store
    (∃ refusal, work = (.error refusal, store)) ∨
    ∃ path elements language context,
      Reads here settings arguments (.text path) elements (.text language) context ∧
      work = (do
        let report ← below (use (Indexing.indexElements here elements path language context))
        return fileAnswer path report : Work Answer) store := by
  refine (index_file_cases here settings arguments store).imp_right ?_
  rintro ⟨_, elements, _, context, reads, done⟩
  obtain ⟨path, language, rfl, rfl⟩ := reads.texts accepted
  refine ⟨path, elements, language, context, reads, ?_⟩
  rw [done, elements_of_texts]
  rfl

/-! Loose functions. -/

/-- What the arguments for loose functions come down to. -/
structure Lists (here : Conditions) (settings : Settings) (arguments : Arguments)
    (entries : List FunctionEntry) (language : Json) (context : String) : Prop where
  listed : ∃ items, arguments.given? "functions" = some (.list items) ∧
    items.mapM FunctionEntry.ofJson = .ok entries
  spoken : (arguments.given? "language").getD (.text "typescript") = language
  settled : scopeKey here settings arguments = .ok context

theorem Lists.given {entries : List FunctionEntry} {language : Json} {context : String}
    (lists : Lists here settings arguments entries language context) : entries ≠ [] := by
  obtain ⟨items, given, read⟩ := lists.listed
  rintro rfl
  have count := length_of_mapM_ok read
  obtain rfl := List.length_eq_zero_iff.mp count.symm
  cases (lookup_of_given given).2

theorem index_functions_cases (here : Conditions) (settings : Settings) (arguments : Arguments)
    (store : Store) :
    let work := indexFunctions here settings arguments store
    (∃ refusal, work = (.error refusal, store)) ∨
    ∃ entries language context, Lists here settings arguments entries language context ∧
      work = (do
        let (report, names) ← below (use (Indexing.indexEntries here entries language context))
        answered here names (report.fieldsAs .null names) (statusOf report) : Work Answer)
        store := by
  dsimp only
  rw [indexFunctions]
  cases given : arguments.given? "functions" with
  | none => exact .inl ⟨_, rfl⟩
  | some value =>
    cases value with
    | list items =>
      dsimp only
      rw [settled_bind_apply]
      cases read : items.mapM FunctionEntry.ofJson with
      | error error => exact .inl ⟨_, rfl⟩
      | ok entries =>
        dsimp only
        rw [settled_bind_apply]
        cases settled : scopeKey here settings arguments with
        | error error => exact .inl ⟨_, rfl⟩
        | ok context =>
          exact .inr ⟨entries, _, context, ⟨⟨items, given, read⟩, rfl, settled⟩, rfl⟩
    | _ => exact .inl ⟨_, rfl⟩

theorem entry_of_shaped {item : Json} (shaped : isFunctionEntry item = true) :
    ∃ function : LooseFunction, FunctionEntry.ofJson item = .ok (.ofFunction function) := by
  cases item with
  | object fields =>
    simp only [isFunctionEntry, List.all_cons, List.all_nil, Bool.and_true, Bool.and_eq_true]
      at shaped
    obtain ⟨⟨named, given⟩, nameText, bodyText, pathText⟩ := shaped
    have text {key : String} {value : Json} (found : fields.lookup key = some value)
        (typed : ((fields.lookup key).map isText).getD true = true) :
        ∃ text, value = .text text := by
      rw [found] at typed
      cases value with
      | text text => exact ⟨text, rfl⟩
      | _ => cases typed
    obtain ⟨_, named⟩ := Option.isSome_iff_exists.mp named
    obtain ⟨_, given⟩ := Option.isSome_iff_exists.mp given
    obtain ⟨name, rfl⟩ := text named nameText
    obtain ⟨body, rfl⟩ := text given bodyText
    have path : ∃ path, (fields.lookup "file_path").getD .null = Json.ofText? path := by
      cases placed : fields.lookup "file_path" with
      | none => exact ⟨none, rfl⟩
      | some value =>
        obtain ⟨path, rfl⟩ := text placed pathText
        exact ⟨some path, rfl⟩
    obtain ⟨path, placed⟩ := path
    refine ⟨⟨name, body, path⟩, ?_⟩
    rw [FunctionEntry.ofJson, FunctionEntry.ofFunction, ← placed]
    dsimp only
    rw [named, given]
    rfl
  | _ => cases shaped

theorem entries_of_shaped {items : List Json} (shaped : items.all isFunctionEntry = true) :
    ∃ functions : List LooseFunction,
      items.mapM FunctionEntry.ofJson = .ok (functions.map .ofFunction) := by
  induction items with
  | nil => exact ⟨[], rfl⟩
  | cons item items ih =>
    rw [List.all_cons, Bool.and_eq_true] at shaped
    obtain ⟨function, first⟩ := entry_of_shaped shaped.1
    obtain ⟨functions, rest⟩ := ih shaped.2
    refine ⟨function :: functions, ?_⟩
    rw [List.mapM_cons, first, rest]
    rfl

theorem given_functions (accepted : Tool.indexFunctions.accepts arguments = true)
    (given : arguments.given? "functions" = some value) :
    ∃ items, value = .list items ∧ items.all isFunctionEntry = true := by
  obtain ⟨found, -⟩ := lookup_of_given given
  have conforms := List.all_eq_true.mp accepted _ List.mem_cons_self
  simp only [found] at conforms
  cases value with
  | list items => exact ⟨items, rfl, conforms⟩
  | _ => cases conforms

theorem Lists.texts {entries : List FunctionEntry} {language : Json} {context : String}
    (lists : Lists here settings arguments entries language context)
    (accepted : Tool.indexFunctions.accepts arguments = true) :
    ∃ (functions : List LooseFunction) (text : String),
      entries = functions.map .ofFunction ∧ language = .text text := by
  obtain ⟨items, given, read⟩ := lists.listed
  obtain ⟨_, same, shaped⟩ := given_functions accepted given
  obtain rfl := Json.list.inj same
  obtain ⟨functions, known⟩ := entries_of_shaped shaped
  obtain ⟨text, spoken⟩ := default_text accepted "language" (by decide) "typescript"
  exact ⟨functions, text, Except.ok.inj (read.symm.trans known), lists.spoken.symm.trans spoken⟩

theorem failuresAs_nil (failures : List Relations.Failure) :
    failuresAs [] failures = failures.map Relations.Failure.toJson := by
  cases failures <;> rfl

theorem failuresAs_texts {names : List String} {failures : List Relations.Failure}
    (listed : names <+: failures.map (·.name)) :
    failuresAs (names.map .text) failures = failures.map Relations.Failure.toJson := by
  induction names generalizing failures with
  | nil => exact failuresAs_nil failures
  | cons name names ih =>
    cases failures with
    | nil => simp at listed
    | cons failure failures =>
      obtain ⟨rfl, rest⟩ := List.cons_prefix_cons.mp listed
      exact congrArg (failure.toJson :: ·) (ih rest)

def functionsAnswer (report : Report) : Answer :=
  .success (report.fieldsAs .null []).written (statusOf report)

/-- Entries that are texts are indexed and reported as loose functions. -/
theorem answered_entries (here : Conditions) (functions : List LooseFunction)
    (language context : String) (store : Store) :
    (do
      let (report, names) ← below (use (Indexing.indexEntries here
        (functions.map FunctionEntry.ofFunction) (.text language) context))
      answered here names (report.fieldsAs .null names) (statusOf report) : Work Answer) store =
    (do
      let report ← below (use (Indexing.indexFunctions here functions language context))
      return functionsAnswer report : Work Answer) store := by
  obtain ⟨graph, isOpen⟩ := store
  cases isOpen with
  | false => rfl
  | true =>
    obtain ⟨report, names, last, plain, indexed, listed⟩ :=
      Indexing.index_entries_text here functions language context graph
    rw [below_bind_apply, below_bind_apply, use_open, use_open, plain, indexed]
    dsimp only
    rw [answered_texts, Report.fieldsAs, failuresAs_texts listed]
    rfl

theorem index_functions_accepted (accepted : Tool.indexFunctions.accepts arguments = true)
    (here : Conditions) (settings : Settings) (store : Store) :
    let work := indexFunctions here settings arguments store
    (∃ refusal, work = (.error refusal, store)) ∨
    ∃ functions language context,
      Lists here settings arguments (functions.map .ofFunction) (.text language) context ∧
      work = (do
        let report ← below (use (Indexing.indexFunctions here functions language context))
        return functionsAnswer report : Work Answer) store := by
  refine (index_functions_cases here settings arguments store).imp_right ?_
  rintro ⟨_, _, context, lists, done⟩
  obtain ⟨functions, language, rfl, rfl⟩ := lists.texts accepted
  exact ⟨functions, language, context, lists,
    done.trans (answered_entries here functions language context store)⟩

/-! Libraries. -/

/-- What the arguments for libraries come down to. -/
structure Declares (here : Conditions) (settings : Settings) (arguments : Arguments)
    (names : List Library.Name) (path : Json) (context : String) : Prop where
  manifest : ∃ text, arguments.given? "package_json" = some (.text text) ∧
    Library.readDependencies here.stack text = .ok names
  placed : (arguments.given? "project_path").getD (.text "unknown") = path
  settled : scopeKey here settings arguments = .ok context

theorem index_dependencies_declared {names : List Library.Name} {path : Json}
    (declares : Declares here settings arguments names path context) (store : Store) :
    indexDependencies here settings arguments store = (do
      let report ← below (use (Indexing.indexNamesFor here names context path))
      return .success report.fields : Work Answer) store := by
  obtain ⟨⟨text, given, read⟩, rfl, settled⟩ := declares
  rw [indexDependencies, given]
  dsimp only [textOf]
  rw [settled_bind_apply, settled]
  dsimp only
  rw [settled_bind_apply]
  dsimp only
  rw [settled_bind_apply, read]

theorem index_dependencies_cases (here : Conditions) (settings : Settings) (arguments : Arguments)
    (store : Store) :
    let work := indexDependencies here settings arguments store
    (∃ refusal, work = (.error refusal, store)) ∨
    ∃ names path context, Declares here settings arguments names path context ∧
      work = (do
        let report ← below (use (Indexing.indexNamesFor here names context path))
        return .success report.fields : Work Answer) store := by
  dsimp only
  rw [indexDependencies]
  cases given : arguments.given? "package_json" with
  | none => exact .inl ⟨_, rfl⟩
  | some manifest =>
    dsimp only
    rw [settled_bind_apply]
    cases settled : scopeKey here settings arguments with
    | error error => exact .inl ⟨_, rfl⟩
    | ok context =>
      cases manifest with
      | text text =>
        dsimp only [textOf]
        rw [settled_bind_apply]
        dsimp only
        rw [settled_bind_apply]
        cases read : Library.readDependencies here.stack text with
        | error error => exact .inl ⟨_, rfl⟩
        | ok names => exact .inr ⟨names, _, context, ⟨⟨text, given, read⟩, rfl, settled⟩, rfl⟩
      | _ => exact .inl ⟨_, rfl⟩

end CodeAtlas.Tools
