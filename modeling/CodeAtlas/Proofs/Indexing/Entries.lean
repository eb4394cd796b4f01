import CodeAtlas.Indexing.Entries
import CodeAtlas.Proofs.Indexing.Itemised

/-! Indexing what may be made of any values. A value is stored by its plain text, and one that has
none is noticed only where the text is needed: what was written before stays. Values that are texts
are indexed as texts are. -/
namespace CodeAtlas.Indexing

open CodeAtlas.Graph
open CodeAtlas.Relations (LanguageForm Relationship infer writeRelationshipAs)
open CodeAtlas.Source (Elements)

variable {here : Conditions} {graph after : Graph} {elements : Elements}
  {entries : List FunctionEntry} {path language : Json} {context : String} {error : Error}

theorem print_text (here : Conditions) (place : Place) (value : String) :
    here.print place (.text value) = .ok value := rfl

theorem print_error {place : Place} {value : Json}
    (refused : here.print place value = .error error) :
    error.isStoreError = false := by
  unfold Conditions.print Json.printed at refused
  split at refused
  · cases refused
  · split_ifs at refused <;> obtain rfl := Except.error.inj refused <;> rfl

/-! Relationships. -/

/-- Where relating stops: at a target that is not known, when no stub can be made for it and those
before are tried. -/
def LacksStub (form : LanguageForm) (here : Conditions) (language context : String)
    (relationships : List Relationship) (graph after : Graph) : Prop :=
  ∃ front relationship back, relationships = front ++ relationship :: back ∧
    after = (tryAll (writeRelationshipAs form here language context) front graph).2 ∧
    Relations.hasNoStub relationship.targetLabel form ∧
    Relations.knownTarget? after relationship.targetLabel relationship.targetName language context
      form = none

theorem write_all_cases (form : LanguageForm) (here : Conditions) (language context : String)
    {relationships : List Relationship}
    (kinds : ∀ relationship ∈ relationships, relationship.kind ∈ Relations.inferredKinds)
    (graph : Graph) :
    let related := tryAll (writeRelationshipAs form here language context) relationships graph
    let work := Relations.writeAllAs form here language context relationships graph
    work = (.ok (outcomeOf related.1), related.2) ∨
      ∃ after, LacksStub form here language context relationships graph after ∧
        work = (.error .tooDeep, after) := by
  refine (batch_cases _ Relations.Outcome.record relationships {} graph).imp (·.2) ?_
  rintro ⟨error, after, ⟨⟨front, relationship, back, split, left, refused⟩, unlisted⟩, stopped⟩
  rcases Relations.relationship_error (kinds relationship (by simp [split])) refused with
    listed | ⟨rfl, lacks, unknown⟩
  · simp [listed] at unlisted
  · exact ⟨after, ⟨front, relationship, back, split, left, lacks, unknown⟩, stopped⟩

/-! Files. -/

/-- How indexing a file is given up halfway. -/
inductive FileStops (here : Conditions) (elements : Elements) (path language : Json)
    (context : String) (graph after : Graph) : Prop where
  /-- The node of the file is there, and the language of its elements cannot be printed. -/
  | language {name : String} {created : Bool} {error : Error}
    (named : here.print .key path = .ok name)
    (put : upsert here (.file name context) [] graph = .ok (created, after))
    (bear : bearLanguage elements = true) (refused : here.print .key language = .error error)
  /-- The elements are tried, and the language of a stub cannot be printed. -/
  | stub {name text : String} {created : Bool} {begun : Graph}
    (named : here.print .key path = .ok name) (printed : here.print .key language = .ok text)
    (put : upsert here (.file name context) [] graph = .ok (created, begun))
    (lacks : LacksStub (formOf here language) here text context
      (infer (spared (tryPlan here elements name text context begun).1 elements))
      (tryPlan here elements name text context begun).2 after)

theorem index_elements_of_apply (here : Conditions) (elements : Elements) (path language : Json)
    (context : String) (graph : Graph) :
    indexElementsOf here elements path language context graph =
      match here.print .key path with
      | .error error => (.error error, graph)
      | .ok name => match here.print .key language with
        | .ok text => indexElementsAs (formOf here language) here elements name text context graph
        | .error error =>
          if bearLanguage elements then
            match upsert here (.file name context) [] graph with
            | .ok (_, begun) => (.error error, begun)
            | .error refused => (.error refused, graph)
          else indexElements here elements name "" context graph := by
  unfold indexElementsOf
  cases here.print .key path with
  | error error => rfl
  | ok name =>
    cases here.print .key language with
    | ok text => rfl
    | error error =>
      cases bearLanguage elements with
      | false => rfl
      | true =>
        change (commit (upsert here (.file name context) []) >>= fun _ => throw error :
          Session Report) graph = _
        rw [session_bind_apply, commit_apply]
        dsimp only
        rw [if_pos rfl]
        cases upsert here (.file name context) [] graph <;> rfl

/-- Indexing the elements of a file under a language in some form: the node of the file is refused,
or the elements are tried and then related, until a stub cannot be made. -/
theorem index_elements_as_cases (form : LanguageForm) (here : Conditions) (elements : Elements)
    (name language context : String) (before : Graph) :
    let work := indexElementsAs form here elements name language context before
    (∃ error, work = (.error error, before)) ∨
    ∃ created begun, upsert here (.file name context) [] before = .ok (created, begun) ∧
      let written := tryPlan here elements name language context begun
      let relationships := infer (spared written.1 elements)
      let related :=
        tryAll (writeRelationshipAs form here language context) relationships written.2
      work = (.ok ((reportOf name context written.1).withRelationships (outcomeOf related.1)),
          related.2) ∨
        ∃ after, LacksStub form here language context relationships written.2 after ∧
          work = (.error .tooDeep, after) := by
  dsimp only
  rw [index_elements_as_apply]
  cases put : upsert here (.file name context) [] before with
  | error error => exact .inl ⟨error, rfl⟩
  | ok pair =>
    obtain ⟨created, begun⟩ := pair
    refine .inr ⟨created, begun, rfl, ?_⟩
    dsimp only
    rcases write_all_cases form here language context (fun _ mem => Relations.infer_kind mem)
      (tryPlan here elements name language context begun).2 with done | ⟨after, lacks, stopped⟩
    · left
      rw [Relations.extractAs, done]
    · refine .inr ⟨after, lacks, ?_⟩
      rw [Relations.extractAs, stopped]

theorem index_elements_of_error
    (failed : indexElementsOf here elements path language context graph = (.error error, after)) :
    after = graph ∨ FileStops here elements path language context graph after := by
  rw [index_elements_of_apply] at failed
  cases named : here.print .key path with
  | error refused =>
    rw [named] at failed
    exact .inl (Prod.mk.inj failed).2.symm
  | ok name =>
    rw [named] at failed
    cases printed : here.print .key language with
    | ok text =>
      rw [printed] at failed
      dsimp only at failed
      rcases index_elements_as_cases (formOf here language) here elements name text context graph
        with ⟨_, done⟩ | ⟨created, begun, put, done | ⟨left, lacks, stopped⟩⟩
      · rw [done] at failed
        exact .inl (Prod.mk.inj failed).2.symm
      · rw [done] at failed
        cases (Prod.mk.inj failed).1
      · rw [stopped] at failed
        obtain rfl := (Prod.mk.inj failed).2
        exact .inr (.stub named printed put lacks)
    | error refused =>
      rw [printed] at failed
      dsimp only at failed
      split_ifs at failed with bear
      · cases put : upsert here (.file name context) [] graph with
        | error other =>
          rw [put] at failed
          exact .inl (Prod.mk.inj failed).2.symm
        | ok pair =>
          rw [put] at failed
          obtain rfl := (Prod.mk.inj failed).2
          exact .inr (.language named put bear printed)
      · rw [index_elements_apply] at failed
        cases put : upsert here (.file name context) [] graph with
        | error other =>
          rw [put] at failed
          exact .inl (Prod.mk.inj failed).2.symm
        | ok pair =>
          rw [put] at failed
          cases (Prod.mk.inj failed).1

theorem index_elements_of_ok {report : Report}
    (done : indexElementsOf here elements path language context graph = (.ok report, after)) :
    ∃ form name text, here.print .key path = .ok name ∧
      indexElementsAs form here elements name text context graph = (.ok report, after) := by
  rw [index_elements_of_apply] at done
  cases named : here.print .key path with
  | error refused =>
    rw [named] at done
    cases (Prod.mk.inj done).1
  | ok name =>
    rw [named] at done
    cases printed : here.print .key language with
    | ok text =>
      rw [printed] at done
      exact ⟨_, name, text, rfl, done⟩
    | error refused =>
      rw [printed] at done
      dsimp only at done
      split_ifs at done
      · cases put : upsert here (.file name context) [] graph <;>
          · rw [put] at done
            cases (Prod.mk.inj done).1
      · exact ⟨_, name, "", rfl, done⟩

/-! Entries. -/

def tryEntries (here : Conditions) (entries : List FunctionEntry) (language : Json)
    (context : String) (graph : Graph) : Results × Graph :=
  tryAll (writeEntry here language context) entries graph

theorem write_entries_cases (here : Conditions) (entries : List FunctionEntry) (language : Json)
    (context : String) (graph : Graph) :
    let tried := tryEntries here entries language context graph
    let work := writeEntries here entries language context graph
    ((∀ failure ∈ failed tried.1, failure.2.isStoreError = true) ∧ work = (.ok tried.1, tried.2)) ∨
      ∃ error after, StopsAt (writeEntry here language context) entries graph error after ∧
        work = (.error error, after) := by
  have listed (results : Results) : ∀ start : Results,
      results.foldl (fun done result => done ++ [(result.1, result.2)]) start =
        start ++ results := by
    induction results with
    | nil => exact fun start => (List.append_nil start).symm
    | cons result results ih =>
      intro start
      rw [List.foldl_cons, ih, List.append_assoc]
      rfl
  have cases := batch_cases (writeEntry here language context)
    (fun (results : Results) entry result => results ++ [(entry, result)]) entries [] graph
  rw [listed, List.nil_append] at cases
  exact cases

theorem language_printed (given : entries ≠ [])
    (itemised : ∀ failure ∈ failed (tryEntries here entries language context graph).1,
      failure.2.isStoreError = true) : ∃ text, here.print .key language = .ok text := by
  cases printed : here.print .key language with
  | ok text => exact ⟨text, rfl⟩
  | error error =>
    cases entries with
    | nil => exact absurd rfl given
    | cons first rest =>
      have refused : ∃ error, writeEntry here language context first graph = .error error ∧
          error.isStoreError = false := by
        cases named : here.print .key first.name with
        | error error =>
          refine ⟨error, ?_, print_error named⟩
          rw [writeEntry, named]
          rfl
        | ok name =>
          refine ⟨error, ?_, print_error printed⟩
          rw [writeEntry, named, printed]
          rfl
      obtain ⟨error, refused, unlisted⟩ := refused
      have listed := itemised (first, error) (by simp [tryEntries, tryAll, refused])
      rw [unlisted] at listed
      cases listed

/-- How indexing entries is given up halfway. -/
inductive EntriesStop (here : Conditions) (entries : List FunctionEntry) (language : Json)
    (context : String) (graph after : Graph) : Prop where
  /-- An entry cannot be written, for another reason than the store. -/
  | entry {error : Error}
    (stops : StopsAt (writeEntry here language context) entries graph error after)
  /-- The entries are tried, and relationships cannot be inferred from them. -/
  | unreadable
    (unread : Results.isReadable (tryEntries here entries language context graph).1 = false)
    (tried : after = (tryEntries here entries language context graph).2)
  /-- The entries are tried, and the language of a stub cannot be printed. -/
  | stub {text : String} (printed : here.print .key language = .ok text)
    (lacks : LacksStub (formOf here language) here text context
      (inferEntries (Results.spared (tryEntries here entries language context graph).1))
      (tryEntries here entries language context graph).2 after)

theorem mem_inferEntries {relationship : Relationship}
    (mem : relationship ∈ inferEntries entries) :
    ∃ entry ∈ entries, relationship ∈ Relations.ofFunction entry.element := by
  obtain ⟨key, -, found⟩ := List.mem_filterMap.mp mem
  obtain ⟨before, after, split, -⟩ := List.lookup_eq_some_iff.mp found
  have keyed : (key, relationship) ∈ before ++ (key, relationship) :: after := by simp
  rw [← split] at keyed
  obtain ⟨entry, given, inner⟩ := List.mem_flatMap.mp keyed
  obtain ⟨other, read, same⟩ := List.mem_map.mp inner
  obtain rfl := (Prod.mk.inj same).2
  exact ⟨entry, given, read⟩

theorem entry_kind {relationship : Relationship} (mem : relationship ∈ inferEntries entries) :
    relationship.kind ∈ Relations.inferredKinds := by
  obtain ⟨entry, -, read⟩ := mem_inferEntries mem
  have alone : relationship ∈ Relations.infer { functions := [entry.element] } :=
    Relations.mem_infer.mpr (.inl ⟨entry.element, List.mem_singleton.mpr rfl, read⟩)
  exact Relations.infer_kind alone

theorem index_entries_apply (here : Conditions) (entries : List FunctionEntry) (language : Json)
    (context : String) (graph : Graph) :
    indexEntries here entries language context graph =
      match writeEntries here entries language context graph with
      | (.error error, after) => (.error error, after)
      | (.ok results, after) =>
        if results.isReadable then match here.print .key language with
          | .error error => (.error error, after)
          | .ok text =>
            match Relations.writeAllAs (formOf here language) here text context
              (inferEntries results.spared) after with
            | (.error error, last) => (.error error, last)
            | (.ok outcome, last) =>
              (.ok ((results.report context).withRelationships outcome, results.failedNames), last)
        else (.error .wrongType, after) := by
  rw [indexEntries, session_bind_apply]
  rcases writeEntries here entries language context graph with ⟨error | results, after⟩
  · rfl
  · dsimp only
    cases results.isReadable with
    | false => rfl
    | true =>
      rw [if_pos rfl, if_pos rfl]
      cases here.print .key language with
      | error error => rfl
      | ok text =>
        dsimp only
        change (Relations.writeAllAs _ here text context _ >>= _ : Session _) after = _
        rw [session_bind_apply]
        rcases Relations.writeAllAs (formOf here language) here text context
          (inferEntries results.spared) after with ⟨_ | _, _⟩ <;> rfl

/-- Entries are tried and then related, or the work is given up halfway. -/
theorem index_entries_cases (here : Conditions) (given : entries ≠ []) (language : Json)
    (context : String) (graph : Graph) :
    let tried := tryEntries here entries language context graph
    let work := indexEntries here entries language context graph
    (∃ text, here.print .key language = .ok text ∧
      let related := tryAll (writeRelationshipAs (formOf here language) here text context)
        (inferEntries (Results.spared tried.1)) tried.2
      work = (.ok ((Results.report tried.1 context).withRelationships (outcomeOf related.1),
        Results.failedNames tried.1), related.2)) ∨
      ∃ error after, EntriesStop here entries language context graph after ∧
        work = (.error error, after) := by
  dsimp only
  rw [index_entries_apply]
  rcases write_entries_cases here entries language context graph with
    ⟨itemised, tried⟩ | ⟨error, after, stops, stopped⟩
  · rw [tried]
    dsimp only
    split_ifs with readable
    · obtain ⟨text, printed⟩ := language_printed given itemised
      rw [printed]
      dsimp only
      rcases write_all_cases (formOf here language) here text context (fun _ => entry_kind)
        (tryEntries here entries language context graph).2 with done | ⟨after, lacks, stopped⟩
      · rw [done]
        exact .inl ⟨text, rfl, rfl⟩
      · rw [stopped]
        exact .inr ⟨_, after, .stub printed lacks, rfl⟩
    · exact .inr ⟨_, _, .unreadable (by simpa using readable) rfl, rfl⟩
  · rw [stopped]
    exact .inr ⟨error, after, .entry stops, rfl⟩

theorem failed_names_given {report : Report} {names : List Json} (given : entries ≠ [])
    (done : indexEntries here entries language context graph = (.ok (report, names), after)) :
    names ⊆ entries.map (·.name) := by
  rcases index_entries_cases here given language context graph with
    ⟨text, -, indexed⟩ | ⟨error, left, -, stopped⟩
  · rw [indexed] at done
    obtain ⟨-, rfl⟩ := Prod.mk.inj (Except.ok.inj (Prod.mk.inj done).1)
    intro name mem
    obtain ⟨⟨entry, _ | _⟩, tried, same⟩ := List.mem_filterMap.mp mem
    · obtain rfl := Option.some.inj same
      have items := items_tryAll (writeEntry here language context) entries graph
      exact List.mem_map_of_mem (items ▸ List.mem_map_of_mem tried)
    · cases same
  · rw [stopped] at done
    cases (Prod.mk.inj done).1

/-! Texts. -/

theorem index_elements_of_text (here : Conditions) (elements : Elements)
    (path language context : String) (graph : Graph) :
    indexElementsOf here elements (.text path) (.text language) context graph =
      indexElements here elements path language context graph :=
  index_elements_of_apply here elements (.text path) (.text language) context graph

theorem write_entry_text (here : Conditions) (language context : String)
    (function : LooseFunction) :
    writeEntry here (.text language) context (.ofFunction function) =
      writeFunction here language context function := by
  obtain ⟨name, body, path⟩ := function
  by_cases loose : path.getD "" = ""
  · have missing : (Json.ofText? path).isGiven = false := by
      cases path with
      | none => rfl
      | some path => simpa [Json.ofText?, Json.isGiven] using loose
    simp only [writeEntry, writeFunction, FunctionEntry.ofFunction, missing, loose]
    rfl
  · cases path with
    | none => exact absurd rfl loose
    | some path =>
      have given : (Json.text path).isGiven = true := by simpa [Json.isGiven] using loose
      simp only [writeEntry, writeFunction, FunctionEntry.ofFunction, Json.ofText?, given,
        if_neg loose]
      rfl

section Functions

variable {written : List (LooseFunction × Except Error Unit)} {functions : List LooseFunction}

def entered (written : List (LooseFunction × Except Error Unit)) : Results :=
  written.map (Prod.map FunctionEntry.ofFunction fun result => result)

theorem try_entries_text (here : Conditions) (functions : List LooseFunction)
    (language context : String) (graph : Graph) :
    tryEntries here (functions.map .ofFunction) (.text language) context graph =
      (entered (tryAll (writeFunction here language context) functions graph).1,
        (tryAll (writeFunction here language context) functions graph).2) := by
  have same : writeEntry here (.text language) context ∘ FunctionEntry.ofFunction =
      writeFunction here language context := funext (write_entry_text here language context)
  rw [tryEntries, tryAll_map, same]
  rfl

theorem failed_names_text (written : List (LooseFunction × Except Error Unit)) :
    Results.failedNames (entered written) =
      (failed written).map fun failure => .text failure.1.name := by
  induction written with
  | nil => rfl
  | cons item written ih =>
    obtain ⟨function, _ | _⟩ := item
    · exact congrArg (Json.text function.name :: ·) ih
    · exact ih

theorem report_text (written : List (LooseFunction × Except Error Unit)) (context : String) :
    Results.report (entered written) context = looseReportOf context written := by
  rw [Results.report, entered, List.foldl_map]
  rfl

theorem spared_text (written : List (LooseFunction × Except Error Unit)) (context : String) :
    Results.spared (entered written) =
      (writtenFunctions (looseReportOf context written) (written.map Prod.fst)).map
        .ofFunction := by
  have hits (function : LooseFunction) :
      ((Results.failedNames (entered written)).map nameKey?).contains
          (nameKey? (FunctionEntry.ofFunction function).name) =
        (looseReportOf context written).hasFailed .function function.name := by
    rw [failed_names_text, looseReportOf, record_results (fun _ => .function) LooseFunction.name,
      Bool.eq_iff_iff]
    simp [Report.hasFailed, FunctionEntry.ofFunction, nameKey?]
  have items : (entered written).map Prod.fst = (written.map Prod.fst).map .ofFunction := by
    simp [entered, Function.comp_def]
  simp only [Results.spared, items, writtenFunctions, List.filter_map, Function.comp_def, hits]

theorem readable_text (written : List (LooseFunction × Except Error Unit)) :
    Results.isReadable (entered written) = true := by
  rw [Results.isReadable, Bool.and_eq_true, spared_text written ""]
  constructor
  · simp [entered, FunctionEntry.ofFunction, nameKey?]
  · simp [FunctionEntry.ofFunction, Json.text?]

def sourceKey (relationship : Relationship) : Option NameKey × Relationship :=
  (some (.text relationship.sourceName), { relationship with sourceName := "" })

theorem sourceKey_injective : Function.Injective sourceKey := by
  rintro ⟨type, sourceLabel, sourceName, targetLabel, targetName⟩ ⟨_, _, _, _, _⟩ same
  simp only [sourceKey, Prod.mk.injEq, Option.some.injEq, NameKey.text.injEq, Relationship.mk.injEq,
    true_and] at same
  obtain ⟨rfl, rfl, rfl, rfl, rfl⟩ := same
  rfl

theorem infer_entries_text (functions : List LooseFunction) :
    inferEntries (functions.map .ofFunction) = infer (looseElements functions) := by
  have keyed : ((functions.map FunctionEntry.ofFunction).flatMap fun entry =>
      (Relations.ofFunction entry.element).map fun relationship =>
        ((nameKey? entry.name, { relationship with sourceName := "" }), relationship)) =
      ((looseElements functions).functions.flatMap Relations.ofFunction).map
        fun relationship => (sourceKey relationship, relationship) := by
    rw [looseElements, List.flatMap_map, List.flatMap_map, List.map_flatMap]
    refine List.flatMap_congr fun function _ => List.map_congr_left fun relationship mem => ?_
    obtain ⟨-, name, -⟩ := Relations.of_function_shape mem
    rw [sourceKey, name]
    rfl
  have alone : infer (looseElements functions) =
      distinct ((looseElements functions).functions.flatMap Relations.ofFunction) := by
    simp [infer, looseElements]
  rw [alone, ← distinct_by_key sourceKey_injective]
  simp only [inferEntries]
  rw [keyed, List.map_map]
  rfl

/-- Indexing entries that are functions of texts is indexing the functions; the names of the
failures are those of the first failures of the report. -/
theorem index_entries_text (here : Conditions) (functions : List LooseFunction)
    (language context : String) (graph : Graph) : ∃ report names last,
    indexFunctions here functions language context graph = (.ok report, last) ∧
      indexEntries here (functions.map .ofFunction) (.text language) context graph =
        (.ok (report, names.map .text), last) ∧
      names <+: report.failures.map (·.name) := by
  let written := tryAll (writeFunction here language context) functions graph
  have items : written.1.map Prod.fst = functions := items_tryAll _ functions graph
  have tried : writeEntries here (functions.map .ofFunction) (.text language) context graph =
      (.ok (entered written.1), written.2) := by
    have cases :=
      write_entries_cases here (functions.map .ofFunction) (.text language) context graph
    rw [try_entries_text] at cases
    refine (cases.resolve_right ?_).2
    rintro ⟨error, after, ⟨⟨front, entry, back, split, -, refused⟩, unlisted⟩, -⟩
    have mem : entry ∈ functions.map FunctionEntry.ofFunction := by simp [split]
    obtain ⟨function, -, rfl⟩ := List.mem_map.mp mem
    rw [write_entry_text] at refused
    rw [function_error refused] at unlisted
    cases unlisted
  refine ⟨_, (failed written.1).map (·.1.name), _,
    index_functions_apply here functions language context graph, ?_, ?_⟩
  · rw [index_entries_apply, tried]
    dsimp only
    rw [readable_text, if_pos rfl, print_text, report_text, spared_text written.1 context, items,
      infer_entries_text, failed_names_text, List.map_map]
    dsimp only
    have related : Relations.writeAllAs (formOf here (.text language)) here language context
        (infer (looseElements (writtenFunctions (looseReportOf context written.1) functions)))
        written.2 = _ := extract_apply _ _
    rw [related]
    rfl
  · rw [looseReportOf, record_results (fun _ => .function) LooseFunction.name]
    simp only [Report.withRelationships, List.nil_append, List.map_append, List.map_map,
      Function.comp_def]
    exact List.prefix_append _ _

end Functions

end CodeAtlas.Indexing
