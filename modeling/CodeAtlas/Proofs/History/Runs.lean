import CodeAtlas.Proofs.History.Courses
import CodeAtlas.Proofs.History.Tracking

/-! Every run tracks its own history: each operation adds its events and no others. -/
namespace CodeAtlas.Runs

open CodeAtlas.Graph
open CodeAtlas.Indexing
open CodeAtlas.Relations (Relationship writeRelationship)
open CodeAtlas.Source (Elements)

variable {here : Conditions} {known : List Identity} {history : List Event} {graph after : Graph}
  {path language context : String} {α β : Type}

/-! The writes of one element. -/

theorem tracks_planned (free : CollisionFree known) {elements : Elements} {planned : PlannedWrite}
    (mem : planned ∈ plan elements language context) (occurs : planned.identity ∈ known)
    (file : Identity.file path context ∈ known) (h : Tracks known history graph)
    (filed : .file path context ∈ recent context history)
    (done : writeElement here (.file path context) planned graph = .ok ((), after)) :
    Tracks known (history ++ planEvents path planned) after := by
  have fits := plan_fits mem
  have confined := ((isolated_element fits free occurs file).keeps h.confined done).2.1
  obtain ⟨created, middle, put, linked⟩ := write_bind done
  by_cases label : planned.identity.label ∈ compared
  · obtain ⟨-, edge, properties, body, attributes⟩ := plan_named mem label
    rw [attributes] at put
    rw [edge, properties, fits.context] at linked
    have middling := tracks_element free h occurs fits.proper label put
    have filed : .file path context ∈
        recent context (history ++ [.element planned.identity body]) :=
      (mem_recent_concat Event.noConfusion).mpr (.inr filed)
    have last := lastBody?_self history planned.identity body
    have written := tracks_held free middling occurs label fits.context file filed last linked
    rw [planEvents, if_pos label, attributes]
    simpa [List.append_assoc, Cell.text?] using written
  · rw [planEvents, if_neg label, List.append_nil]
    have quiet := quiet_upsert free occurs (List.not_mem_cons_of_ne_of_not_mem
      (not_file_of_fits fits) label) put
    refine h.quiet confined (quiet.trans (quiet_link (fun _ other mem' label' id => ?_) linked))
    obtain rfl := free.eq_of_id mem' occurs id
    exact label label'

theorem tracks_loose (free : CollisionFree known) {function : LooseFunction}
    (occur : looseIdentities language context function ⊆ known) (h : Tracks known history graph)
    (done : writeFunction here language context function graph = .ok ((), after)) :
    Tracks known (history ++ looseEvents language context function) after := by
  have mem : Identity.named .function function.name language context ∈ known :=
    occur List.mem_cons_self
  have label : Label.function ∈ compared := by decide
  obtain ⟨created, middle, put, rest⟩ := write_bind done
  have middling := tracks_element free h mem rfl label put
  by_cases loose : function.path.getD "" = ""
  · rw [if_pos loose] at rest
    obtain ⟨-, rfl⟩ := write_pure rest
    simpa [looseEvents, loose] using middling
  · rw [if_neg loose] at rest
    have file : Identity.file (function.path.getD "") context ∈ known :=
      occur (by simp [looseIdentities, loose])
    obtain ⟨created', middle', put', linked⟩ := write_bind rest
    have filed := tracks_file free middling file put'
    have last : lastBody? (history ++ [.element (.named .function function.name language context)
        function.body] ++ [.file (function.path.getD "") context])
        (.named .function function.name language context) = some function.body := by
      rw [lastBody?_concat_of_none Event.noConfusion rfl, lastBody?_self]
    have written := tracks_held free filed mem label rfl file
      ((mem_recent_concat Event.noConfusion).mpr (.inl rfl)) last linked
    simpa [looseEvents, loose, List.append_assoc] using written

/-! Relationships and libraries are quiet. -/

theorem quiet_relationship {relationship : Relationship}
    (kind : relationship.kind ∈ Relations.inferredKinds) {created : Bool}
    (h : writeRelationship here language context relationship graph = .ok (created, after)) :
    Quiet known graph after := by
  have kinds : relationship.targetLabel ≠ .file ∧ relationship.type ≠ .contains := by
    simp only [Relationship.kind, Relations.inferredKinds, List.mem_cons, Prod.mk.injEq,
      List.not_mem_nil, or_false] at kind
    rcases kind with ⟨type, -, target⟩ | ⟨type, -, target⟩ | ⟨type, -, target⟩ |
      ⟨type, -, target⟩ <;> simp [type, target]
  obtain ⟨⟨target, fresh⟩, middle, resolved, h⟩ := write_bind h
  obtain ⟨_, joined, linked, h⟩ := write_bind h
  obtain ⟨-, rfl⟩ := write_pure h
  have quiet : Quiet known graph middle := by
    rcases Relations.resolve_cases resolved with ⟨_, -, -, -, rfl⟩ | ⟨-, -, -, _, ensured⟩
    · exact Quiet.refl known _
    · refine quiet_ensure ?_ ensured
      rw [Relations.label_elementIdentity]
      exact kinds.1
  exact quiet.trans (quiet_link (fun type => absurd type kinds.2) linked)

theorem tracks_extract (free : CollisionFree known) {elements : Elements}
    (occur : Relations.endIdentities elements language context ⊆ known)
    (h : Tracks known history graph) :
    Tracks known history (tryRelated here elements language context graph).2 := by
  have tried := tried_tryAll (writeRelationship here language context)
    (Relations.infer elements) graph
  have items := items_tryAll (writeRelationship here language context)
    (Relations.infer elements) graph
  refine tried.invariant (P := fun graph => Tracks known history graph) h ?_
  intro relationship mem graph created after h done
  rw [items] at mem
  have kind := Relations.infer_kind mem
  have ends : ∀ identity ∈ [relationship.source language context,
      relationship.target language context], identity ∈ known :=
    fun identity at_end => occur (List.mem_flatMap.mpr ⟨relationship, mem, at_end⟩)
  have isolated : Isolated known context (writeRelationship here language context relationship)
      fun _ => True :=
    Relations.isolated_relationship kind free (ends _ (by simp)) (ends _ (by simp))
  exact h.quiet (isolated.keeps h.confined done).2.1 (quiet_relationship kind done)

/-- A change of a confined graph that no event tells of. -/
def StaysQuiet (known : List Identity) (before after : Graph) : Prop :=
  Confined known before → Confined known after ∧ Quiet known before after

theorem stays_quiet_chains (known : List Identity) : Chains (StaysQuiet known) where
  refl graph confined := ⟨confined, Quiet.refl known graph⟩
  trans first second confined := by
    obtain ⟨middling, quiet⟩ := first confined
    obtain ⟨confined, quiet'⟩ := second middling
    exact ⟨confined, quiet.trans quiet'⟩

theorem quiet_library (free : CollisionFree known) {api : Library.Api} {projectPath : String}
    (occur : libraryIdentities api context ⊆ known) :
    SessionMoves (StaysQuiet known) (indexLibrary here api context projectPath) := by
  have chains := stays_quiet_chains known
  have library : PlacedIn known context ⟨.library, [api.name], context⟩ :=
    ⟨occur List.mem_cons_self, rfl⟩
  refine chains.session_bind (chains.session_commit ?_) fun _ => chains.attempts ?_ _
  · intro graph created after done confined
    exact ⟨((isolated_upsert library free rfl _).keeps confined done).2.1,
      quiet_upsert free library.occurs (by simp [compared]) done⟩
  · rintro ⟨label, member⟩ mem graph value after done confined
    have fits := member_fits mem
    have occurs : (⟨label, [member, api.name], context⟩ : Identity) ∈ known :=
      occur (List.mem_cons_of_mem _ (List.mem_map.mpr ⟨_, mem, rfl⟩))
    have isolated : Isolated known context (writeMember here ⟨.library, [api.name], context⟩ label
        member) fun _ => True := isolated_member free fits.1 library.occurs occurs
    refine ⟨(isolated.keeps confined done).2.1, ?_⟩
    obtain ⟨created, middle, put, linked⟩ := write_bind done
    have other : label ∉ .file :: compared := by
      intro label
      simp only [compared, List.mem_cons, List.not_mem_nil, or_false] at label
      rcases label with rfl | rfl | rfl <;> simp [EdgeType.endpoints] at fits
    exact (quiet_upsert free occurs other put).trans
      (quiet_link (fun type => EdgeType.noConfusion type) linked)

theorem quiet_names (free : CollisionFree known) {names : List Library.Name} {projectPath : String}
    (occur : nameIdentities names context ⊆ known) :
    SessionMoves (StaysQuiet known) (indexNames here names context projectPath) := by
  have chains := stays_quiet_chains known
  refine chains.session_foldlM (fun report name mem => ?_) _
  have named : ∀ api, Library.find? name = some api → libraryIdentities api context ⊆ known :=
    fun api found identity inside => occur (List.mem_flatMap.mpr ⟨name, mem, by rwa [found]⟩)
  cases found : Library.find? name with
  | none => exact chains.session_pure _
  | some api => exact chains.session_map (quiet_library free (named api found)) _

/-! Batches, operations and runs. -/

theorem tracks_batch {write : α → Write β} {eventsOf : α → List Event} {P : List Event → Prop}
    {results : List (α × Except Error β)} {last : Graph} (tried : Tried write graph results last)
    (step : ∀ item ∈ results.map Prod.fst, ∀ {history graph value next}, P history →
      Tracks known history graph → write item graph = .ok (value, next) →
      P (history ++ eventsOf item) ∧ Tracks known (history ++ eventsOf item) next)
    (start : P history) (h : Tracks known history graph) :
    Tracks known (history ++ (succeeded results).flatMap eventsOf) last := by
  induction tried generalizing history with
  | done graph => simpa [succeeded] using h
  | succeeded attempted rest ih =>
    obtain ⟨start, h⟩ := step _ (by simp) start h attempted
    have tail := ih (fun item mem => step item (List.mem_cons_of_mem _ mem)) start h
    simpa [List.append_assoc] using tail
  | failed attempted rest ih =>
    have tail := ih (fun item mem => step item (List.mem_cons_of_mem _ mem)) start h
    simpa using tail

theorem filed_append {more : List Event} (filed : .file path context ∈ recent context history)
    (kept : ∀ event ∈ more, event ≠ .emptied context) :
    .file path context ∈ recent context (history ++ more) := by
  rw [recent_append kept]
  exact List.mem_append_right _ filed

theorem plan_events_kept {planned : PlannedWrite} :
    ∀ event ∈ planEvents path planned, event ≠ .emptied context := by
  intro event mem
  unfold planEvents at mem
  split_ifs at mem
  · simp only [List.mem_cons, List.not_mem_nil, or_false] at mem
    rcases mem with rfl | rfl <;> exact Event.noConfusion
  · cases mem

theorem tracks_elements (free : CollisionFree known) {elements : Elements}
    (occur : fileIdentities elements path language context ⊆ known)
    (h : Tracks known history graph) :
    Tracks known (history ++ fileEvents here elements path language context graph)
      (indexElements here elements path language context graph).2 := by
  have file : Identity.file path context ∈ known := occur (by simp [fileIdentities])
  rw [index_elements_apply, fileEvents]
  cases put : upsert here (.file path context) [] graph with
  | error error => simpa using h
  | ok pair =>
    obtain ⟨created, begun⟩ := pair
    dsimp only
    have planned := items_tryAll (writeElement here (.file path context))
      (plan elements language context) begun
    have filed := tracks_file free h file put
    have written := tracks_batch
      (P := fun history => .file path context ∈ recent context history)
      (tried_tryAll (writeElement here (.file path context)) (plan elements language context) begun)
      (fun write mem {_ _ _ _} start h done => by
        rw [planned] at mem
        have occurs : write.identity ∈ known :=
          occur (List.mem_append_left _ (List.mem_cons_of_mem _ (List.mem_map_of_mem mem)))
        exact ⟨filed_append start plan_events_kept,
          tracks_planned free mem occurs file h start done⟩)
      ((mem_recent_concat Event.noConfusion).mpr (.inl rfl)) filed
    rw [List.append_assoc] at written
    refine tracks_extract free (fun identity mem => occur ?_) written
    refine List.mem_append_right _ (Relations.end_identities_mono ?_ ?_ mem) <;>
      exact List.filter_subset_self _

theorem tracks_functions (free : CollisionFree known) {functions : List LooseFunction}
    (occur : functionIdentities functions language context ⊆ known)
    (h : Tracks known history graph) :
    Tracks known (history ++ functionEvents here functions language context graph)
      (indexFunctions here functions language context graph).2 := by
  rw [index_functions_apply]
  have items := items_tryAll (writeFunction here language context) functions graph
  have written := tracks_batch (P := fun _ => True)
    (tried_tryAll (writeFunction here language context) functions graph)
    (fun function mem {_ _ _ _} _ h done => by
      rw [items] at mem
      refine ⟨trivial, tracks_loose free (fun identity inside => occur ?_) h done⟩
      exact List.mem_append_left _ (List.mem_flatMap.mpr ⟨function, mem, inside⟩))
    trivial h
  refine tracks_extract free (fun identity mem => occur ?_) written
  refine List.mem_append_right _ (Relations.end_identities_mono ?_ ?_ mem)
  · exact List.map_subset _ (List.filter_subset_self _)
  · exact List.Subset.refl _

theorem Tracks.stays (h : Tracks known history graph) (quiet : StaysQuiet known graph after) :
    Tracks known history after :=
  h.quiet (quiet h.confined).1 (quiet h.confined).2

theorem Tracks.nothing (h : Tracks known history graph) : Tracks known (history ++ []) graph := by
  simpa using h

theorem tracks_course (free : CollisionFree known) {course : Course}
    (occur : course.identities ⊆ known) (h : Tracks known history graph) :
    Tracks known (history ++ course.events here graph) (course.after here graph) := by
  cases course with
  | unchanged => exact h.nothing
  | elements found path language context => exact tracks_elements free occur h
  | functions loose language context => exact tracks_functions free occur h
  | library api context projectPath => exact (h.stays (quiet_library free occur graph)).nothing
  | names given context projectPath => exact (h.stays (quiet_names free occur graph)).nothing
  | extract found language context => exact (tracks_extract free occur h).nothing
  | emptied context => exact tracks_emptied free h context

theorem tracks_operation (free : CollisionFree known) {operation : Operation}
    (contextual : operation.IsContextual) (occur : operation.identities here ⊆ known)
    (h : Tracks known history graph) :
    Tracks known (history ++ operation.events here graph) (operation.on here graph).2 := by
  obtain ⟨course, follows⟩ := operation_course contextual here graph
  rw [follows.events, follows.after]
  exact tracks_course free (List.Subset.trans follows.identities occur) h

/-- What holds of no history and the empty graph, and is kept by each operation and its events,
holds of a run and its events. -/
theorem history_invariant {P : List Event → Graph → Prop} {steps : List Step} (start : P [] .empty)
    (kept : ∀ step ∈ steps, ∀ past graph, P past graph →
      P (past ++ step.operation.events step.here graph) (step.after graph)) :
    P (events steps) (run steps) := by
  have kept : ∀ past graph, P past graph → P (past ++ eventsFrom graph steps)
      (steps.foldl (fun graph step => step.after graph) graph) := by
    induction steps with
    | nil =>
      intro past graph h
      simpa [eventsFrom] using h
    | cons step steps ih =>
      intro past graph h
      have next := kept step List.mem_cons_self past graph h
      have rest := ih (fun other mem => kept other (List.mem_cons_of_mem _ mem)) _ _ next
      rw [List.append_assoc] at rest
      exact rest
  exact kept [] .empty start

/-- A graph keeps track of the run that led to it. -/
theorem run_tracks (free : CollisionFree known) {steps : List Step}
    (contextual : ∀ step ∈ steps, step.operation.IsContextual) (occur : identities steps ⊆ known) :
    Tracks known (events steps) (run steps) := by
  refine history_invariant (empty_tracks known) fun step mem past graph h => ?_
  refine tracks_operation free (contextual step mem) (fun identity inside => occur ?_) h
  exact List.mem_flatMap.mpr ⟨step, mem, inside⟩

end CodeAtlas.Runs
