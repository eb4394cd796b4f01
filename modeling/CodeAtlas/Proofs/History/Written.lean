import CodeAtlas.Proofs.History.Runs
import CodeAtlas.Proofs.Stubs.Defined

/-! Where written functions and classes come from. A node that is no stub was none before, or the
history says that it was written: references, libraries and reads define nothing. -/
namespace CodeAtlas.Runs

open CodeAtlas.Graph
open CodeAtlas.Indexing
open CodeAtlas.Relations (Relationship infer writeRelationship)
open CodeAtlas.Source (Elements)

def Event.written? : Event → Option Identity
  | .element identity _ => some identity
  | _ => none

def wrote (events : List Event) : List Identity := events.filterMap Event.written?

/-- Functions and classes that are defined after were so before, or are among some. -/
def Introduces (written : List Identity) (before after : Graph) : Prop :=
  ∀ label ∈ compared, ∀ id, Defined after label id →
    Defined before label id ∨ ∃ identity ∈ written, identity.label = label ∧ identity.id = id

variable {here : Conditions} {graph middle after last : Graph} {written more : List Identity}
  {identity : Identity} {given : Attributes} {path language context : String} {α β : Type}

theorem mem_wrote {events : List Event} :
    identity ∈ wrote events ↔ ∃ body, .element identity body ∈ events := by
  constructor
  · intro written
    obtain ⟨event, mem, is⟩ := List.mem_filterMap.mp written
    cases event with
    | element known body =>
      obtain rfl := Option.some.inj is
      exact ⟨body, mem⟩
    | _ => cases is
  · rintro ⟨body, mem⟩
    exact List.mem_filterMap.mpr ⟨_, mem, rfl⟩

theorem Introduces.append (h : Introduces written graph middle)
    (rest : Introduces more middle after) : Introduces (written ++ more) graph after := by
  intro label compared id defined
  rcases rest label compared id defined with defined | ⟨identity, mem, is⟩
  · rcases h label compared id defined with defined | ⟨identity, mem, is⟩
    · exact .inl defined
    · exact .inr ⟨identity, List.mem_append_left _ mem, is⟩
  · exact .inr ⟨identity, List.mem_append_right _ mem, is⟩

theorem Introduces.mono (h : Introduces written graph after)
    (within : ∀ identity ∈ written, identity.label ∈ compared → identity ∈ more) :
    Introduces more graph after := by
  intro label labelled id defined
  rcases h label labelled id defined with defined | ⟨identity, mem, is⟩
  · exact .inl defined
  · exact .inr ⟨identity, within identity mem (is.1 ▸ labelled), is⟩

theorem introduces_chains : Chains (Introduces []) where
  refl _ _ _ _ defined := .inl defined
  trans first second := first.append second

theorem introduces_nothing (nodes : after.nodes ⊆ graph.nodes) : Introduces [] graph after :=
  fun _ _ _ defined => .inl (defined.of_nodes nodes)

/-! Single writes. -/

theorem introduces_upsert {created : Bool}
    (h : upsert here identity given graph = .ok (created, after)) :
    Introduces [identity] graph after := by
  rintro label - id ⟨node, mem, rfl, rfl, defined⟩
  rcases upsert_cases h with ⟨-, -, -, rfl⟩ | ⟨old, found, -, -, rfl⟩
  · rcases List.mem_append.mp mem with mem | mem
    · exact .inl ⟨node, mem, rfl, rfl, defined⟩
    · obtain rfl := List.mem_singleton.mp mem
      exact .inr ⟨identity, List.mem_singleton_self _, rfl, rfl⟩
  · obtain ⟨-, labels, ids⟩ := node?_eq_some found
    rcases mem_setNode mem with rfl | ⟨mem, -⟩
    · exact .inr ⟨identity, List.mem_singleton_self _, labels.symm, ids.symm⟩
    · exact .inl ⟨node, mem, rfl, rfl, defined⟩

theorem introduces_other {created : Bool} (other : identity.label ∉ compared)
    (h : upsert here identity given graph = .ok (created, after)) : Introduces [] graph after := by
  refine (introduces_upsert h).mono fun written mem labelled => ?_
  obtain rfl := List.mem_singleton.mp mem
  exact absurd labelled other

theorem introduces_ensure {created : Bool}
    (h : ensureNode here identity graph = .ok (created, after)) : Introduces [] graph after := by
  rcases ensure_cases h with ⟨-, -, rfl⟩ | ⟨-, -, -, rfl⟩
  · exact introduces_chains.refl after
  · rintro label - id ⟨node, mem, rfl, rfl, defined⟩
    rcases List.mem_append.mp mem with mem | mem
    · exact .inl ⟨node, mem, rfl, rfl, defined⟩
    · obtain rfl := List.mem_singleton.mp mem
      cases defined

theorem introduces_link {type : EdgeType} {source target : Endpoint} {properties : Properties}
    {value : Unit}
    (h : link here type source target context properties graph = .ok (value, after)) :
    Introduces [] graph after := by
  obtain ⟨-, -, -, rfl⟩ := link_cases h
  refine introduces_nothing ?_
  rw [nodes_joined]
  exact List.Subset.refl _

theorem introduces_element {file : Identity} {planned : PlannedWrite}
    (h : writeElement here file planned graph = .ok ((), after)) :
    Introduces [planned.identity] graph after := by
  obtain ⟨created, middle, put, linked⟩ := write_bind h
  exact (introduces_upsert put).append (introduces_link linked)

theorem introduces_loose {function : LooseFunction}
    (h : writeFunction here language context function graph = .ok ((), after)) :
    Introduces [.named .function function.name language context] graph after := by
  obtain ⟨created, middle, put, rest⟩ := write_bind h
  have filed : Introduces [] middle after := by
    by_cases loose : function.path.getD "" = ""
    · rw [if_pos loose] at rest
      obtain ⟨-, rfl⟩ := write_pure rest
      exact introduces_chains.refl after
    · rw [if_neg loose] at rest
      obtain ⟨created', middle', put', linked⟩ := write_bind rest
      have other : (Identity.file (function.path.getD "") context).label ∉ compared := by
        simp [Identity.file, compared]
      exact introduces_chains.trans (introduces_other other put') (introduces_link linked)
  exact (introduces_upsert put).append filed

theorem introduces_relationship (language context : String) (relationship : Relationship) :
    WriteMoves (Introduces []) (writeRelationship here language context relationship) := by
  intro graph created after h
  obtain ⟨⟨target, fresh⟩, middle, resolved, h⟩ := write_bind h
  obtain ⟨_, joined, linked, h⟩ := write_bind h
  obtain ⟨-, rfl⟩ := write_pure h
  have found : Introduces [] graph middle := by
    rcases Relations.resolve_cases resolved with ⟨_, -, -, -, rfl⟩ | ⟨-, -, -, _, ensured⟩
    · exact introduces_chains.refl middle
    · exact introduces_ensure ensured
  exact introduces_chains.trans found (introduces_link linked)

/-! Sessions. -/

theorem introduces_extract (elements : Elements) (language context : String) :
    SessionMoves (Introduces []) (Relations.extract here elements language context) :=
  introduces_chains.attempts
    (fun relationship _ => introduces_relationship language context relationship) _

theorem introduces_related (here : Conditions) (elements : Elements) (language context : String)
    (graph : Graph) :
    Introduces [] graph (tryRelated here elements language context graph).2 := by
  have nothing : SessionMoves (Introduces []) (Relations.extract here elements language context) :=
    introduces_extract elements language context
  have moved := nothing graph
  rwa [extract_apply] at moved

theorem introduces_library (api : Library.Api) (context projectPath : String) :
    SessionMoves (Introduces []) (indexLibrary here api context projectPath) := by
  refine introduces_chains.session_bind (introduces_chains.session_commit ?_) fun _ =>
    introduces_chains.attempts ?_ _
  · exact fun graph created after done => introduces_other (by simp [compared]) done
  · rintro ⟨label, member⟩ mem graph value after done
    have fits := member_fits mem
    have other : label ∉ compared := by
      intro label
      simp only [compared, List.mem_cons, List.not_mem_nil, or_false] at label
      rcases label with rfl | rfl <;> simp [EdgeType.endpoints] at fits
    obtain ⟨created, middle, put, linked⟩ := write_bind done
    exact introduces_chains.trans (introduces_other other put) (introduces_link linked)

theorem introduces_names (names : List Library.Name) (context projectPath : String) :
    SessionMoves (Introduces []) (indexNames here names context projectPath) := by
  refine introduces_chains.session_foldlM (fun report name _ => ?_) _
  split
  · exact introduces_chains.session_pure _
  · exact introduces_chains.session_map (introduces_library _ context projectPath) _

theorem introduces_batch {write : α → Write β} (identityOf : α → Identity)
    {results : List (α × Except Error β)} (tried : Tried write graph results last)
    (each : ∀ item ∈ results.map Prod.fst, ∀ {graph value next},
      write item graph = .ok (value, next) → Introduces [identityOf item] graph next) :
    Introduces ((succeeded results).map identityOf) graph last := by
  have introduced := tried.accumulate
    (P := fun done last => Introduces (done.map identityOf) graph last)
    (fun item mem {done _ _ _} held write => by
      rw [List.map_append]
      exact held.append (each item mem write))
    [] (introduces_chains.refl graph)
  rwa [List.nil_append] at introduced

theorem planned_event {planned : PlannedWrite} (path : String)
    (labelled : planned.identity.label ∈ compared) :
    ∃ body, .element planned.identity body ∈ planEvents path planned := by
  rw [planEvents, if_pos labelled]
  exact ⟨_, List.mem_cons_self⟩

theorem introduces_elements (elements : Elements) (path language context : String)
    (graph : Graph) :
    Introduces (wrote (fileEvents here elements path language context graph)) graph
      (indexElements here elements path language context graph).2 := by
  rw [index_elements_apply, fileEvents]
  cases put : upsert here (.file path context) [] graph with
  | error error => exact introduces_chains.refl graph
  | ok pair =>
    have filed : Introduces [] graph pair.2 :=
      introduces_other (by simp [Identity.file, compared]) put
    have batch : Introduces _ pair.2 (tryPlan here elements path language context pair.2).2 :=
      introduces_batch PlannedWrite.identity (tried_tryAll _ _ _)
        fun _ _ _ _ _ done => introduces_element done
    have nothing := introduces_related here
      (spared (tryPlan here elements path language context pair.2).1 elements) language context
      (tryPlan here elements path language context pair.2).2
    have all := (filed.append batch).append nothing
    refine all.mono fun identity inside labelled => mem_wrote.mpr ?_
    rw [List.append_nil, List.nil_append] at inside
    obtain ⟨planned, mem, rfl⟩ := List.mem_map.mp inside
    obtain ⟨body, event⟩ := planned_event path labelled
    exact ⟨body, List.mem_cons_of_mem _ (List.mem_flatMap.mpr ⟨planned, mem, event⟩)⟩

theorem introduces_functions (functions : List LooseFunction) (language context : String)
    (graph : Graph) :
    Introduces (wrote (functionEvents here functions language context graph)) graph
      (indexFunctions here functions language context graph).2 := by
  rw [index_functions_apply]
  have batch := introduces_batch
    (fun function : LooseFunction => Identity.named .function function.name language context)
    (tried_tryAll (writeFunction here language context) functions graph)
    fun _ _ _ _ _ done => introduces_loose done
  refine (batch.append (introduces_related here _ language context _)).mono fun identity inside _ =>
    mem_wrote.mpr ?_
  rw [List.append_nil] at inside
  obtain ⟨function, mem, rfl⟩ := List.mem_map.mp inside
  exact ⟨function.body, List.mem_flatMap.mpr ⟨function, mem, List.mem_cons_self⟩⟩

theorem introduces_course (course : Course) (graph : Graph) :
    Introduces (wrote (course.events here graph)) graph (course.after here graph) := by
  cases course with
  | unchanged => exact introduces_chains.refl graph
  | elements found path language context =>
    exact introduces_elements found path language context graph
  | functions loose language context => exact introduces_functions loose language context graph
  | library api context projectPath => exact introduces_library api context projectPath graph
  | names given context projectPath => exact introduces_names given context projectPath graph
  | extract found language context => exact introduces_related here found language context graph
  | emptied context => exact introduces_nothing fun _ mem => (mem_nodes_without.mp mem).1

theorem introduces_operation {operation : Operation} (contextual : operation.IsContextual)
    (graph : Graph) :
    Introduces (wrote (operation.events here graph)) graph (operation.on here graph).2 := by
  obtain ⟨course, follows⟩ := operation_course contextual here graph
  rw [follows.events, follows.after]
  exact introduces_course course graph

end CodeAtlas.Runs
