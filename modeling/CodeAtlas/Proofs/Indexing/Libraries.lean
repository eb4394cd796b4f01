import CodeAtlas.Proofs.Batch
import CodeAtlas.Proofs.Indexing.Plan

/-! Where indexing dependencies stops. A member that cannot be written is itemised, but the node of
a library is written outside of any batch: its refusal ends the whole, and the libraries before it
stay. -/
namespace CodeAtlas.Indexing

open CodeAtlas.Graph
open CodeAtlas.Library (Api Name)
open CodeAtlas.Relations (Failure)

variable {here : Conditions} {graph after : Graph} {context projectPath : String} {error : Error}

def writeLibrary (here : Conditions) (api : Api) (context projectPath : String) : Write Bool :=
  upsert here ⟨.library, [api.name], context⟩
    [("version", .text api.version), ("project_path", .text projectPath)]

def tryMembers (here : Conditions) (api : Api) (context : String) :
    Graph → List ((Label × String) × Except Error Unit) × Graph :=
  tryAll (fun member => writeMember here ⟨.library, [api.name], context⟩ member.1 member.2)
    (members api)

def memberFailure (refused : (Label × String) × Error) : Failure :=
  ⟨.node refused.1.1, refused.1.2, refused.2.message⟩

theorem record_members (results : List ((Label × String) × Except Error Unit))
    (start : LibraryReport) :
    results.foldl (fun report item => report.record item.1.1 item.1.2 item.2) start =
      { start with
        members := start.members + (succeeded results).length
        failures := start.failures ++ (failed results).map memberFailure } := by
  induction results generalizing start with
  | nil => simp [succeeded, failed]
  | cons item results ih =>
    obtain ⟨⟨label, member⟩, error | ⟨⟩⟩ := item
    · rw [List.foldl_cons, ih]
      simp [LibraryReport.record, memberFailure]
    · rw [List.foldl_cons, ih]
      simp [LibraryReport.record, Nat.add_assoc, Nat.add_comm]

theorem index_library_apply (here : Conditions) (api : Api) (context projectPath : String)
    (graph : Graph) : indexLibrary here api context projectPath graph =
      match writeLibrary here api context projectPath graph with
      | .error error => (.error error, graph)
      | .ok (_, begun) =>
        (.ok { library := api.name
               members := (succeeded (tryMembers here api context begun).1).length
               failures := (failed (tryMembers here api context begun).1).map memberFailure },
          (tryMembers here api context begun).2) := by
  rw [indexLibrary, session_bind_apply, commit_apply, writeLibrary]
  cases upsert here ⟨.library, [api.name], context⟩
      [("version", .text api.version), ("project_path", .text projectPath)] graph with
  | error error => rfl
  | ok pair =>
    have itemised : ∀ member ∈ members api, ∀ graph error,
        writeMember here ⟨.library, [api.name], context⟩ member.1 member.2 graph = .error error →
          error.isStoreError := fun _ mem _ _ refused => member_error rfl mem refused
    have batch := batch_apply (fun (report : LibraryReport) (member : Label × String) result =>
      report.record member.1 member.2 result) itemised { library := api.name } pair.2
    rw [record_members, Nat.zero_add, List.nil_append] at batch
    exact batch

theorem index_library_cases (here : Conditions) (api : Api) (context projectPath : String)
    (graph : Graph) :
    (∃ error, writeLibrary here api context projectPath graph = .error error ∧
      indexLibrary here api context projectPath graph = (.error error, graph)) ∨
    ∃ report after, indexLibrary here api context projectPath graph = (.ok report, after) := by
  rw [index_library_apply]
  cases writeLibrary here api context projectPath graph with
  | error error => exact .inl ⟨error, rfl, rfl⟩
  | ok pair => exact .inr ⟨_, _, rfl⟩

theorem members_length (api : Api) : (members api).length = api.memberCount := by
  simp only [members, List.length_append, List.length_map, Library.Api.memberCount]
  omega

theorem library_accounts {api : Api} {report : LibraryReport}
    (done : indexLibrary here api context projectPath graph = (.ok report, after)) :
    report.members + report.failures.length = api.memberCount := by
  rw [index_library_apply] at done
  cases put : writeLibrary here api context projectPath graph with
  | error error =>
    rw [put] at done
    cases (Prod.mk.inj done).1
  | ok pair =>
    rw [put] at done
    obtain rfl := Except.ok.inj (Prod.mk.inj done).1
    dsimp only
    rw [List.length_map, succeeded_add_failed, tryMembers, length_tryAll, members_length]

/-- Indexes the known libraries among some names, going on with a report. -/
def indexNamesFrom (here : Conditions) (context projectPath : String) (names : List Name)
    (report : DependencyReport) : Session DependencyReport :=
  names.foldlM (fun report name => do
    match Library.find? name with
    | none => return report.leaveOut name
    | some api => return report.add name (← indexLibrary here api context projectPath)) report

theorem index_names_from_cons (here : Conditions) (context projectPath : String) (name : Name)
    (names : List Name) (report : DependencyReport) (graph : Graph) :
    indexNamesFrom here context projectPath (name :: names) report graph =
      match Library.find? name with
      | none => indexNamesFrom here context projectPath names (report.leaveOut name) graph
      | some api => match indexLibrary here api context projectPath graph with
        | (.error error, after) => (.error error, after)
        | (.ok library, middle) =>
          indexNamesFrom here context projectPath names (report.add name library) middle := by
  rw [indexNamesFrom, List.foldlM_cons, session_bind_apply]
  cases Library.find? name with
  | none => rfl
  | some api =>
    dsimp only
    rw [session_bind_apply]
    rcases indexLibrary here api context projectPath graph with ⟨_ | _, _⟩ <;> rfl

/-- Among some names the node of a known library is refused, when those before it are indexed. -/
structure StoppedAt (here : Conditions) (names : List Name) (context projectPath : String)
    (graph : Graph) (front : List Name) (name : Name) (api : Api) (after : Graph) : Prop where
  reached : ∃ back, names = front ++ name :: back
  known : Library.find? name = some api
  before : ∀ report, ∃ done, indexNamesFrom here context projectPath front report graph =
    (.ok done, after)
  refused : ∃ error, writeLibrary here api context projectPath after = .error error
  untouched : (∀ earlier ∈ front, Library.find? earlier = none) → after = graph

theorem StoppedAt.cons {names front : List Name} {name last : Name} {api : Api} {middle : Graph}
    (stopped : StoppedAt here names context projectPath middle front last api after)
    (passed : ∀ rest report, ∃ next,
      indexNamesFrom here context projectPath (name :: rest) report graph =
        indexNamesFrom here context projectPath rest next middle)
    (same : Library.find? name = none → middle = graph) :
    StoppedAt here (name :: names) context projectPath graph (name :: front) last api after where
  reached := by
    obtain ⟨back, split⟩ := stopped.reached
    exact ⟨back, by rw [split]; rfl⟩
  known := stopped.known
  before report := by
    obtain ⟨next, first⟩ := passed front report
    rw [first]
    exact stopped.before next
  refused := stopped.refused
  untouched unknown := by
    rw [stopped.untouched fun earlier mem => unknown earlier (List.mem_cons_of_mem _ mem)]
    exact same (unknown name List.mem_cons_self)

theorem index_names_from_error {names : List Name} {report : DependencyReport}
    (h : indexNamesFrom here context projectPath names report graph = (.error error, after)) :
    ∃ front name api,
      StoppedAt here names context projectPath graph front name api after := by
  induction names generalizing report graph with
  | nil => cases h
  | cons name names ih =>
    rw [index_names_from_cons] at h
    cases found : Library.find? name with
    | none =>
      rw [found] at h
      obtain ⟨front, last, api, stopped⟩ := ih h
      refine ⟨name :: front, last, api, stopped.cons (fun rest report => ?_) fun _ => rfl⟩
      exact ⟨report.leaveOut name, by rw [index_names_from_cons, found]⟩
    | some api =>
      rw [found] at h
      dsimp only at h
      rcases index_library_cases here api context projectPath graph with
        ⟨refused, put, failed⟩ | ⟨library, middle, indexed⟩
      · rw [failed] at h
        obtain ⟨-, rfl⟩ := Prod.mk.inj h
        exact ⟨[], name, api, ⟨names, rfl⟩, found, fun report => ⟨report, rfl⟩, ⟨refused, put⟩,
          fun _ => rfl⟩
      · rw [indexed] at h
        obtain ⟨front, last, api', stopped⟩ := ih h
        refine ⟨name :: front, last, api', stopped.cons (fun rest report => ?_) fun unknown => ?_⟩
        · refine ⟨report.add name library, ?_⟩
          rw [index_names_from_cons, found]
          dsimp only
          rw [indexed]
        · rw [unknown] at found
          cases found

/-- Indexing dependencies fails only where the node of a known library is refused. What is left then
is what indexing the names before it leaves. -/
theorem index_names_error {names : List Name}
    (h : indexNames here names context projectPath graph = (.error error, after)) :
    ∃ front name api,
      StoppedAt here names context projectPath graph front name api after :=
  index_names_from_error h

theorem index_names_for_error {names : List Name} {path : Json}
    (h : indexNamesFor here names context path graph = (.error error, after)) :
    after = graph ∨ ∃ cell front name api,
      Cell.ofJson (here.tooDeep .attribute) .library "project_path" path = .ok cell ∧
      StoppedAt here names context (cell.text?.getD "") graph front name api after ∧
      ∃ earlier ∈ front, Library.find? earlier ≠ none := by
  unfold indexNamesFor at h
  cases stored : Cell.ofJson (here.tooDeep .attribute) .library "project_path" path with
  | ok cell =>
    rw [stored] at h
    obtain ⟨front, name, api, stopped⟩ := index_names_error h
    by_cases unknown : ∀ earlier ∈ front, Library.find? earlier = none
    · exact .inl (stopped.untouched unknown)
    · exact .inr ⟨cell, front, name, api, rfl, stopped, by simpa using unknown⟩
  | error refused =>
    rw [stored] at h
    dsimp only at h
    split_ifs at h with known
    · exact .inl (Prod.mk.inj h).2.symm
    · obtain ⟨front, name, api, stopped⟩ := index_names_error h
      refine .inl (stopped.untouched fun earlier mem => ?_)
      obtain ⟨back, rfl⟩ := stopped.reached
      simp only [List.any_eq_true, not_exists, not_and, Bool.not_eq_true,
        Option.isSome_eq_false_iff, Option.isNone_iff_eq_none] at known
      exact known earlier (List.mem_append_left _ mem)

theorem index_names_from_refused {names : List Name} {report : DependencyReport}
    (h : (indexNamesFrom here context projectPath names report graph).1 = .error error) :
    error = Conditions.refusal := by
  induction names generalizing report graph with
  | nil => cases h
  | cons name names ih =>
    rw [index_names_from_cons] at h
    cases found : Library.find? name with
    | none =>
      rw [found] at h
      exact ih h
    | some api =>
      rw [found] at h
      dsimp only at h
      rcases index_library_cases here api context projectPath graph with
        ⟨refused, put, failed⟩ | ⟨library, middle, indexed⟩
      · rw [failed] at h
        obtain rfl := Except.error.inj h
        exact upsert_error put
      · rw [indexed] at h
        exact ih h

end CodeAtlas.Indexing
