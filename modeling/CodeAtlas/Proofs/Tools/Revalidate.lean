import CodeAtlas.Proofs.Indexing.Matching
import CodeAtlas.Proofs.Json.Units
import CodeAtlas.Proofs.Tools.Errors

/-! Validating what was just indexed. The tools derive the dialect, the language and the context of
a call on their own; for arguments that conform to the schema they derive the same ones, and so what
one tool has written the others find. -/
namespace CodeAtlas.Tools

open CodeAtlas.Graph
open CodeAtlas.Indexing (Report)
open CodeAtlas.Review (Status)
open CodeAtlas.Source (Elements)

variable {here : Conditions} {settings : Settings} {arguments snippet : Arguments}
  {graph last : Graph} {store : Store} {tool : Tool} {name path language context : String}
  {value : Json} {elements : Elements}

theorem index_file_reads (accepted : Tool.indexFile.accepts arguments = true) {answer : Answer}
    {after : Store} (done : indexFile here settings arguments ⟨graph, true⟩ = (.ok answer, after)) :
    ∃ path elements language context report last,
      Reads here settings arguments (.text path) elements (.text language) context ∧
      Indexing.indexElements here elements path language context graph = (.ok report, last) ∧
      answer = fileAnswer path report ∧ after = ⟨last, true⟩ := by
  rcases index_file_accepted accepted here settings ⟨graph, true⟩ with
    ⟨refusal, refused⟩ | ⟨path, elements, language, context, reads, performed⟩
  · rw [refused] at done
    cases (Prod.mk.inj done).1
  · rw [performed] at done
    obtain ⟨report, indexed, rfl⟩ := worded_ok done
    rw [use_open] at indexed
    obtain ⟨reported, rfl⟩ := Prod.mk.inj indexed
    exact ⟨path, elements, language, context, report, _, reads, Prod.ext reported rfl, rfl, rfl⟩

theorem index_file_answers {report : Report}
    (reads : Reads here settings arguments (.text path) elements (.text language) context)
    (indexed : Indexing.indexElements here elements path language context graph =
      (.ok report, last)) :
    call here settings "index_file" arguments ⟨graph, true⟩ =
      (fileAnswer path report, ⟨last, true⟩) := by
  have worked : indexFile here settings arguments ⟨graph, true⟩ =
      (.ok (fileAnswer path report), ⟨last, true⟩) := by
    rw [index_file_read reads, below_bind_apply, use_open, indexed]
    rfl
  exact answer_of_work .indexFile worked

theorem validate_file_answers (graph : Graph)
    (reads : Reads here settings arguments (.text path) elements (.text language) context) :
    call here settings "validate_file" arguments ⟨graph, true⟩ =
      (.success (fileFields (.text path) (Review.validateFile graph path elements language context)
        (arguments.get "verbose").isGiven).written, ⟨graph, true⟩) := by
  obtain ⟨content, text⟩ := text_of_parsed reads.parsed
  have parsed := reads.parsed
  rw [text] at parsed
  refine answer_of_work .validateFile ?_
  change validateFile here settings arguments ⟨graph, true⟩ = _
  rw [validateFile, reads.filed, text]
  dsimp only
  rw [reads.spoken, parsed, reads.settled]
  rfl

/-- Arguments that ask for the declarations of a file as code, in its dialect, language and
context. -/
structure AsCode (arguments snippet : Arguments) : Prop where
  code : snippet.lookup "code" = arguments.lookup "content"
  dialect : snippet.lookup "file_extension" =
    some ((arguments.given? "file_extension").getD (arguments.get "file_path"))
  same : ∀ name ∈ ["language", "project", "branch"], snippet.lookup name = arguments.lookup name

theorem AsCode.given (asks : AsCode arguments snippet)
    (mem : name ∈ ["language", "project", "branch"]) :
    snippet.given? name = arguments.given? name := by
  rw [Arguments.given?, Arguments.given?, asks.same name mem]

theorem AsCode.extension (asks : AsCode arguments snippet) {file : Json}
    (filed : arguments.given? "file_path" = some file) :
    (snippet.given? "file_extension").getD (.text "ts") =
      (arguments.given? "file_extension").getD file := by
  have given : ((arguments.given? "file_extension").getD file).isGiven = true := by
    cases given : arguments.given? "file_extension" with
    | none => exact (lookup_of_given filed).2
    | some value => exact (lookup_of_given given).2
  have dialect := asks.dialect
  rw [get_of_given filed] at dialect
  rw [given_of_lookup dialect given]
  rfl

theorem AsCode.reads (asks : AsCode arguments snippet) {file : Json} {spoken : Json}
    (reads : Reads here settings arguments file elements spoken context) :
    let extension := (snippet.given? "file_extension").getD (.text "ts")
    languageOf snippet extension = .ok spoken ∧
      parseCode (snippet.get "code") extension = .ok elements ∧
      scopeKey here settings snippet = .ok context := by
  have code : snippet.get "code" = arguments.get "content" := by
    rw [Arguments.get, Arguments.get, asks.code]
  dsimp only
  rw [asks.extension reads.filed, code, languageOf, scopeKey, asks.given (by simp),
    asks.given (by simp), asks.given (by simp)]
  exact ⟨reads.spoken, reads.parsed, reads.settled⟩

theorem snippet_language (here : Conditions) (graph : Graph) (elements : Elements)
    (language context : String) :
    ∃ text, languageText here elements (.text language) = .ok text ∧
      Review.validateSnippet graph elements text context =
        Review.validateSnippet graph elements language context := by
  rw [languageText]
  split_ifs with none
  · simp only [Bool.and_eq_true, List.isEmpty_iff] at none
    exact ⟨"", rfl, by simp [Review.validateSnippet, none]⟩
  · exact ⟨language, rfl, rfl⟩

theorem validate_code_reads (graph : Graph)
    (reads : Reads here settings arguments (.text path) elements (.text language) context)
    (asks : AsCode arguments snippet) :
    let report := Review.validateSnippet graph elements language context
    ∃ fields : Fields,
      validateCode here settings snippet ⟨graph, true⟩ =
        (.ok (.success fields.written), ⟨graph, true⟩) ∧
      fields.lookup "not_found" = some (.nat report.notFound) := by
  obtain ⟨spoken, parsed, settled⟩ := asks.reads reads
  obtain ⟨content, text⟩ := text_of_parsed parsed
  rw [text] at parsed
  rw [validateCode, text]
  dsimp only
  rw [spoken, parsed, settled]
  obtain ⟨text, told, same⟩ := snippet_language here graph elements language context
  rw [settled_ok_bind, settled_ok_bind, settled_ok_bind, told, ← same]
  exact ⟨_, rfl, rfl⟩

/-! Answers. -/

theorem success_text (fields : WrittenFields) (status : String) :
    (Answer.success fields status).text.toList = '{' :: Json.newline 1 ++
      Json.asciiQuoted (Json.units "status") ++ [':', ' '] ++
      (Json.asciiQuoted (Json.units status) ++
        Json.indentedFields 0 (fields.map fun (name, value) => (Json.units name, value))) := by
  simp only [Answer.success, wholeOf, Json.pretty, String.toList_ofList, Json.indented,
    Json.atomText, List.append_assoc, List.cons_append]

theorem field_shown (depth : Nat) {fields : WrittenFields} {value : Json.Units}
    (found : fields.lookup name = some (.text value)) :
    Json.asciiQuoted (Json.units name) ++ [':', ' '] ++ Json.asciiQuoted value <:+:
      Json.indentedFields depth (fields.map fun (name, value) => (Json.units name, value)) := by
  induction fields with
  | nil => cases found
  | cons field rest ih =>
    obtain ⟨known, shown⟩ := field
    rw [List.lookup_cons] at found
    rw [List.map_cons, Json.indentedFields]
    split at found
    next same =>
      obtain rfl := eq_of_beq same
      obtain rfl := Option.some.inj found
      refine ⟨',' :: Json.newline (depth + 1), Json.indentedFields depth (rest.map fun field =>
        (Json.units field.1, field.2)), ?_⟩
      simp [Json.indented, Json.atomText]
    next => exact (ih found).trans (List.suffix_append _ _).isInfix

theorem lookup_written {fields : Fields} (found : fields.lookup name = some value) :
    fields.written.lookup name = some value.written := by
  induction fields with
  | nil => cases found
  | cons field rest ih =>
    obtain ⟨known, shown⟩ := field
    rw [Fields.written, List.map_cons, List.lookup_cons]
    rw [List.lookup_cons] at found
    split at found
    next => exact congrArg (fun value => some value.written) (Option.some.inj found)
    next => exact ih found

theorem success_shows {fields : WrittenFields} {value : Json.Units}
    (found : fields.lookup name = some (.text value)) (status : String) :
    Json.asciiQuoted (Json.units name) ++ [':', ' '] ++ Json.asciiQuoted value <:+:
      (Answer.success fields status).text.toList := by
  rw [success_text]
  refine (field_shown 0 found).trans ?_
  exact (List.suffix_append _ _).isInfix.trans (List.suffix_append _ _).isInfix

theorem partial_no_success {fields other : WrittenFields} :
    Answer.success fields "partial" ≠ Answer.success other := by
  intro same
  have texts := congrArg (fun answer : Answer => answer.text.toList) same
  rw [success_text, success_text] at texts
  have initials : some 'p' = some 's' :=
    congrArg (fun chars : List Char => chars[1]?) (List.append_cancel_left texts)
  cases initials

theorem success_of_answer {report : Report} {fields : WrittenFields}
    (answered : fileAnswer path report = .success fields) : report.success = true := by
  by_contra failed
  rw [fileAnswer, statusOf, if_neg failed] at answered
  exact partial_no_success answered

def callIdentities (here : Conditions) (settings : Settings) (arguments : Arguments) :
    List Identity :=
  let path := arguments.get "file_path"
  let extension := (arguments.given? "file_extension").getD path
  match parseCode (arguments.get "content") extension, languageOf arguments extension,
    scopeKey here settings arguments with
  | .ok elements, .ok language, .ok context =>
    Indexing.fileIdentities elements path.plain language.plain context
  | _, _, _ => []

theorem Reads.identities
    (reads : Reads here settings arguments (.text path) elements (.text language) context) :
    callIdentities here settings arguments =
      Indexing.fileIdentities elements path language context := by
  rw [callIdentities, get_of_given reads.filed]
  rw [reads.parsed, reads.spoken, reads.settled]
  rfl

/-- Whether the file of a call contains functions and classes of the context of the call only. -/
def FileContainsOwn (here : Conditions) (settings : Settings) (arguments : Arguments)
    (graph : Graph) : Prop :=
  ∀ path context, arguments.given? "file_path" = some (.text path) →
    scopeKey here settings arguments = .ok context → Indexing.ContainsOwn graph path context

/-- A call to index a file that succeeds leaves a graph in which all of the file is indexed, and
which has nothing more than the file may derive. -/
theorem indexed_by_call {before : Graph} {fields : WrittenFields} (wellFormed : WellFormed before)
    (accepted : Tool.indexFile.accepts arguments = true)
    (success : (call here settings "index_file" arguments ⟨before, true⟩).1 = .success fields) :
    ∃ path elements language context last,
      Reads here settings arguments (.text path) elements (.text language) context ∧
      (call here settings "index_file" arguments ⟨before, true⟩).2 = ⟨last, true⟩ ∧
      WellFormed last ∧ Indexing.Indexed elements path language context here.now last ∧
      Indexing.Extends (callIdentities here settings arguments) before last := by
  have done := work_of_answer .indexFile success rfl
  obtain ⟨path, elements, language, context, report, last, reads, written, answered, stored⟩ :=
    index_file_reads accepted done
  have clean : Indexing.isSuccess (Indexing.indexElements here elements path language context
      before).1 = true := by
    rw [written]
    exact success_of_answer answered.symm
  obtain ⟨-, _, _, _, _, completed⟩ := Indexing.completed_of_success clean
  have wellFormed' := (well_formed_moves here).indexes.elements elements path language context
    before wellFormed
  have extended : Indexing.Extends (callIdentities here settings arguments) before
      (Indexing.indexElements here elements path language context before).2 :=
    Indexing.elements_extend (reads.identities ▸ List.Subset.refl _) before
  rw [written] at completed wellFormed' extended
  exact ⟨path, elements, language, context, last, reads, stored, wellFormed', completed.indexed,
    extended⟩

theorem Reads.later {file spoken : Json} (now : Int) (faults : List Fault)
    (reads : Reads here settings arguments file elements spoken context) :
    Reads { here with now := now, faults := faults } settings arguments file elements spoken
      context :=
  ⟨reads.filed, reads.content, reads.spoken, reads.parsed, reads.settled⟩

/-- After a call to index a file succeeds, its content has no declaration that is not found, at
whatever time. The same arguments validate the file as unchanged in every part, as long as the file
contained functions and classes of its own context only: a link by bare id could have made it
contain a namesake from another one. -/
theorem indexed_file_validates (steps : List Runs.Step) (here : Conditions) (now : Int)
    (faults : List Fault) (settings : Settings) (arguments snippet : Arguments)
    (accepted : Tool.indexFile.accepts arguments = true) (asks : AsCode arguments snippet)
    (free : CollisionFree ((Runs.run steps).nodes.map Node.identity ++
      callIdentities here settings arguments)) {fields : WrittenFields} :
    let before := Runs.run steps
    let indexed := call here settings "index_file" arguments ⟨before, true⟩
    let later : Conditions := { here with now := now, faults := faults }
    indexed.1 = .success fields →
      (FileContainsOwn here settings arguments before →
        ∃ (total : Nat) (results : List Json) (fields : Fields),
          (call later settings "validate_file" arguments indexed.2).1 = .success fields.written ∧
          fields.lookup "file_status" = some (.text "unchanged") ∧
          fields.lookup "summary" = some (.object [("total", .nat total), ("matching", .nat total),
            ("modified", .nat 0), ("new", .nat 0)]) ∧
          fields.lookup "results" = some (.list results) ∧ results.length = total ∧
          ∀ result ∈ results, result.field? "status" = some (.text "MATCH")) ∧
      ∃ fields : Fields,
        (call later settings "validate_code" snippet indexed.2).1 = .success fields.written ∧
        fields.lookup "not_found" = some (.nat 0) := by
  intro before indexed later success
  have wellFormed : WellFormed before :=
    Runs.run_invariant empty_well_formed fun step _ _ kept => Runs.step_well_formed step kept
  obtain ⟨path, elements, language, context, last, reads, stored, wellFormed', placed, extended⟩ :=
    indexed_by_call wellFormed accepted success
  have derived := reads.identities
  have occur : Indexing.fileIdentities elements path language context ⊆
      before.nodes.map Node.identity ++ callIdentities here settings arguments :=
    derived ▸ List.subset_append_right _ _
  have occurs : ∀ node ∈ last.nodes, node.identity ∈
      before.nodes.map Node.identity ++ callIdentities here settings arguments :=
    fun node mem => extended.identities (List.mem_map_of_mem mem)
  have stored : indexed.2 = ⟨last, true⟩ := stored
  rw [stored]
  constructor
  · intro held
    have own : Indexing.ContainsOwn last path context := by
      refine extended.contains_own free wellFormed wellFormed' ?_
        (held _ _ reads.filed reads.settled)
      exact derived ▸ List.mem_cons_self
    obtain ⟨filed, same⟩ := Indexing.file_unchanged free wellFormed' occurs occur placed own
    have counts := Indexing.countOf_alike same
    have status :
        (Review.validateFile last path elements language context).status = .unchanged := by
      rw [Review.FileReport.status, filed, Review.FileReport.modified, Review.FileReport.new,
        counts, counts]
      rfl
    refine ⟨_, _, _, congrArg Prod.fst (validate_file_answers last (reads.later now faults)), ?_,
      ?_, rfl, List.length_map _, ?_⟩
    · change some (Json.text (Review.validateFile last path elements language context).status.name)
        = _
      rw [status]
      rfl
    · change some (Review.validateFile last path elements language context).summary = _
      rw [Review.FileReport.summary, Review.FileReport.same, Review.FileReport.modified,
        Review.FileReport.new, counts, counts, counts]
      rfl
    · intro result mem
      obtain ⟨finding, inside, rfl⟩ := List.mem_map.mp mem
      exact congrArg (fun status : Status => some (Json.text status.name)) (same finding inside)
  · have found := Indexing.snippet_found free wellFormed' occurs occur placed
    obtain ⟨fields, done, missing⟩ := validate_code_reads last (reads.later now faults) asks
    refine ⟨fields, congrArg Prod.fst (answer_of_work .validateCode done), ?_⟩
    rw [missing, Review.SnippetReport.notFound, Indexing.countOf_alike found]
    rfl

def twiceDeclared : Arguments :=
  [("file_path", .text "a.ts"), ("content", .text "function f(){} function f(x){}")]

def twiceDeclaredCode : Arguments :=
  [("code", .text "function f(){} function f(x){}"), ("file_extension", .text "a.ts")]

/-- The function that is declared twice is found once when the file is validated. -/
theorem twice_declared_validates :
    let indexed := call { now := 1 } plainSettings "index_file" twiceDeclared ⟨Runs.run [], true⟩
    ∃ fields : Fields,
      (call { now := 2 } plainSettings "validate_file" twiceDeclared indexed.2).1 =
        .success fields.written ∧
      fields.lookup "file_status" = some (.text "unchanged") := by
  have reads : Reads { now := 1 } plainSettings twiceDeclared (.text "a.ts")
      (Source.parseElements "function f(){} function f(x){}" "a.ts") (.text "typescript")
      "default:main" :=
    ⟨rfl, nofun, rfl, parse_code_texts _ _, rfl⟩
  have clean : Indexing.isSuccess (Indexing.indexElements { now := 1 }
      (Source.parseElements "function f(){} function f(x){}" "a.ts") "a.ts" "typescript"
      "default:main" (Runs.run [])).1 = true :=
    Indexing.index_elements_faultless rfl ..
  obtain ⟨reported, -⟩ := Indexing.completed_of_success clean
  have answered := index_file_answers reads (Prod.ext reported rfl)
  obtain ⟨unchanged, -⟩ := indexed_file_validates [] { now := 1 } 2 [] plainSettings twiceDeclared
    twiceDeclaredCode (by decide)
    ⟨rfl, rfl, by simp [twiceDeclared, twiceDeclaredCode, List.lookup_cons]⟩ (by decide +kernel)
    (congrArg Prod.fst answered)
  have own : FileContainsOwn { now := 1 } plainSettings twiceDeclared (Runs.run []) :=
    fun _ _ _ _ _ _ _ mem => nomatch mem
  obtain ⟨_, _, fields, validated, status, -⟩ := unchanged own
  exact ⟨fields, validated, status⟩

def borrowing : List Runs.Step :=
  [⟨{ now := 1 }, .upsert ⟨"File", [("path", .text "a.ts")], [], "default:main"⟩⟩,
    ⟨{ now := 1 }, .upsert ⟨"Class", [("name", .text "K"), ("language", .text "typescript")],
      [("body", .text "elsewhere")], "default:one"⟩⟩,
    ⟨{ now := 1 }, .link "CONTAINS" (.byKey "File" [("path", .text "a.ts")])
      (.byId "Class" (Identity.named .classDef "K" "typescript" "default:one").id)
      "default:main" []⟩]

def borrower : Arguments :=
  [("file_path", .text "a.ts"), ("content", .text "class K{}")]

def comparedNamesake : Review.FileReport where
  path := "a.ts"
  context := "default:main"
  fileExists := true
  findings := [Review.classify .classDef "K" "class K{}" "elsewhere"]

theorem namesake_compared :
    Review.validateFile (Indexing.indexElements { now := 1 }
        (Source.parseElements "class K{}" "a.ts") "a.ts" "typescript" "default:main"
        (Runs.run borrowing)).2 "a.ts" (Source.parseElements "class K{}" "a.ts") "typescript"
        "default:main" = comparedNamesake := by
  decide +kernel

theorem borrower_indexed {arguments : Arguments} (reads : Reads { now := 1 } settings arguments
    (.text "a.ts") (Source.parseElements "class K{}" "a.ts") (.text "typescript") "default:main") :
    ∃ (fields : WrittenFields) (last : Graph),
      call { now := 1 } settings "index_file" arguments ⟨Runs.run borrowing, true⟩ =
        (.success fields, ⟨last, true⟩) ∧
      Review.validateFile last "a.ts" (Source.parseElements "class K{}" "a.ts") "typescript"
        "default:main" = comparedNamesake := by
  have compared := namesake_compared
  have clean := Indexing.index_elements_faultless (rfl : ({ now := 1 } : Conditions).faults = [])
    (Source.parseElements "class K{}" "a.ts") "a.ts" "typescript" "default:main"
    (Runs.run borrowing)
  rcases indexed : Indexing.indexElements { now := 1 } (Source.parseElements "class K{}" "a.ts")
    "a.ts" "typescript" "default:main" (Runs.run borrowing) with ⟨error | report, last⟩ <;>
    rw [indexed] at compared clean
  · cases clean
  · have success : report.success = true := clean
    have answered := index_file_answers reads indexed
    rw [fileAnswer, statusOf, if_pos success] at answered
    exact ⟨_, last, answered, compared⟩

/-- Indexing the file succeeds, and still its class compares as modified with a namesake. -/
theorem borrowed_namesake_differs :
    ¬ ∀ (steps : List Runs.Step) (here : Conditions) (settings : Settings)
      (arguments : Arguments) (fields : WrittenFields), Tool.indexFile.accepts arguments = true →
      (call here settings "index_file" arguments ⟨Runs.run steps, true⟩).1 = .success fields →
        ∃ others : Fields, (call here settings "validate_file" arguments
          (call here settings "index_file" arguments ⟨Runs.run steps, true⟩).2).1 =
            .success others.written ∧
          others.lookup "file_status" = some (.text "unchanged") := by
  intro unchanged
  have reads : Reads { now := 1 } plainSettings borrower (.text "a.ts")
      (Source.parseElements "class K{}" "a.ts") (.text "typescript") "default:main" :=
    ⟨rfl, nofun, rfl, parse_code_texts _ _, rfl⟩
  obtain ⟨fields, last, answered, modified⟩ := borrower_indexed reads
  obtain ⟨others, validated, status⟩ := unchanged borrowing { now := 1 } plainSettings borrower
    fields (by decide) (congrArg Prod.fst answered)
  rw [answered, validate_file_answers last reads, modified] at validated
  have shown := success_shows (lookup_written status) "success"
  rw [← validated, success_text] at shown
  revert shown
  decide +kernel

end CodeAtlas.Tools
