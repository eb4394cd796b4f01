import CodeAtlas.Proofs.Indexing.Itemised
import CodeAtlas.Proofs.Isolation.Writes

/-! Sessions that stay within a context, and the indexing sessions among them. A session may fail
halfway; what it has written until then stays within the context as well. -/
namespace CodeAtlas.Graph

variable {α β ρ : Type}

structure SessionIsolated (known : List Identity) (context : String) (work : Session α) : Prop where
  keeps : ∀ {graph}, Confined known graph →
    Confined known (work graph).2 ∧ Spares context graph (work graph).2
  agrees : ∀ {graph other}, Confined known graph → Confined known other →
    AgreeOn context graph other →
    (work graph).1 = (work other).1 ∧ AgreeOn context (work graph).2 (work other).2

variable {known : List Identity} {context : String} {post : α → Prop}

theorem session_isolated_pure (value : α) :
    SessionIsolated known context (pure value : Session α) where
  keeps confined := ⟨confined, Spares.refl context _⟩
  agrees _ _ agree := ⟨rfl, agree⟩

theorem SessionIsolated.bind {work : Session α} {next : α → Session β}
    (first : SessionIsolated known context work)
    (rest : ∀ value, SessionIsolated known context (next value)) :
    SessionIsolated known context (work >>= next) where
  keeps {graph} confined := by
    have begun := first.keeps confined
    rw [session_bind_apply]
    rcases done : work graph with ⟨error | value, middle⟩ <;> rw [done] at begun
    · exact begun
    · have ended := (rest value).keeps begun.1
      exact ⟨ended.1, begun.2.trans ended.2⟩
  agrees {graph other} confined confined' agree := by
    have begun := first.keeps confined
    have begun' := first.keeps confined'
    have same := first.agrees confined confined' agree
    rw [session_bind_apply, session_bind_apply]
    rcases done : work graph with ⟨error | value, middle⟩ <;>
      rcases done' : work other with ⟨error' | value', middle'⟩ <;>
      rw [done] at begun <;> rw [done'] at begun' <;> rw [done, done'] at same
    · obtain ⟨⟨⟩, agree⟩ := same
      exact ⟨rfl, agree⟩
    · cases same.1
    · cases same.1
    · obtain ⟨⟨⟩, agree⟩ := same
      exact (rest value).agrees begun.1 begun'.1 agree

theorem SessionIsolated.map {work : Session α} (h : SessionIsolated known context work)
    (f : α → β) :
    SessionIsolated known context (do return f (← work)) :=
  h.bind fun _ => session_isolated_pure _

theorem session_isolated_commit {write : Write α} (h : Isolated known context write post) :
    SessionIsolated known context (commit write) where
  keeps {graph} confined := by
    rw [commit_apply]
    cases done : write graph with
    | error error => exact ⟨confined, Spares.refl context graph⟩
    | ok pair => exact (h.keeps confined done).2
  agrees {graph other} confined confined' agree := by
    have alike := h.agrees confined confined' agree
    rw [commit_apply, commit_apply]
    generalize write graph = outcome, write other = outcome' at alike
    cases alike with
    | refused error => exact ⟨rfl, agree⟩
    | done value agree => exact ⟨rfl, agree⟩

theorem session_isolated_attempt {write : Write α} (h : Isolated known context write post) :
    SessionIsolated known context (attempt write) where
  keeps {graph} confined := by
    rw [attempt]
    cases done : write graph with
    | error error =>
      dsimp only
      split_ifs <;> exact ⟨confined, Spares.refl context graph⟩
    | ok pair => exact (h.keeps confined done).2
  agrees {graph other} confined confined' agree := by
    have alike := h.agrees confined confined' agree
    rw [attempt, attempt]
    generalize write graph = outcome, write other = outcome' at alike
    cases alike with
    | refused error =>
      dsimp only
      split_ifs <;> exact ⟨rfl, agree⟩
    | done value agree => exact ⟨rfl, agree⟩

theorem session_isolated_query {read : Graph → Except Error α}
    (same : ∀ {graph other}, Confined known graph → Confined known other →
      AgreeOn context graph other → read graph = read other) :
    SessionIsolated known context (query read) where
  keeps confined := ⟨confined, Spares.refl context _⟩
  agrees confined confined' agree := ⟨same confined confined' agree, agree⟩

theorem session_isolated_foldlM {f : β → α → Session β} {items : List α}
    (each : ∀ state, ∀ item ∈ items, SessionIsolated known context (f state item)) (state : β) :
    SessionIsolated known context (items.foldlM f state) := by
  induction items generalizing state with
  | nil => exact session_isolated_pure state
  | cons item items ih =>
    rw [List.foldlM_cons]
    exact (each state item List.mem_cons_self).bind fun next =>
      ih (fun state other mem => each state other (List.mem_cons_of_mem _ mem)) next

theorem session_isolated_attempts {write : α → Write β} {record : ρ → α → Except Error β → ρ}
    {items : List α} (each : ∀ item ∈ items, Isolated known context (write item) fun _ => True)
    (start : ρ) :
    SessionIsolated known context (items.foldlM (fun report item => do
      let result ← attempt (write item)
      return record report item result) start) :=
  session_isolated_foldlM (fun _ item mem =>
    (session_isolated_attempt (each item mem)).bind fun _ => session_isolated_pure _) start

end CodeAtlas.Graph

namespace CodeAtlas.Relations

open CodeAtlas.Graph
open CodeAtlas.Source (Elements)

variable {here : Conditions} {known : List Identity} {language context : String}

def endIdentities (elements : Elements) (language context : String) : List Identity :=
  (infer elements).flatMap fun relationship =>
    [relationship.source language context, relationship.target language context]

theorem end_identities_mono {some all : Elements} (functions : some.functions ⊆ all.functions)
    (classes : some.classes ⊆ all.classes) :
    endIdentities some language context ⊆ endIdentities all language context :=
  fun _ mem => by
    obtain ⟨relationship, inferred, at_end⟩ := List.mem_flatMap.mp mem
    exact List.mem_flatMap.mpr ⟨relationship, infer_mono functions classes inferred, at_end⟩

/-- A target is a node of the context: one that is there by name, or the stub that is made. -/
theorem isolated_resolve {label : Label} {name : String}
    (placed : elementIdentity label name language context ∈ known) (free : CollisionFree known)
    (proper : (elementIdentity label name language context).Proper) :
    Isolated known context (resolveTarget here label name language context) fun result =>
      ∃ identity, PlacedIn known context identity ∧ result.1 = identity.endpoint := by
  have stub : PlacedIn known context (elementIdentity label name language context) :=
    ⟨placed, context_elementIdentity label name language context⟩
  constructor
  · rintro graph ⟨target, created⟩ after confined h
    rcases resolve_cases h with ⟨node, found, rfl, -, rfl⟩ | ⟨-, -, rfl, _, ensured⟩
    · obtain ⟨mem, rfl, named⟩ := target_node_known found
      refine ⟨⟨node.identity, ⟨confined.occurs node mem, ?_⟩, ?_⟩, confined, Spares.refl context _⟩
      · rcases named with id | ⟨-, inside⟩
        · exact stub.node_inside free confined node mem id
        · exact inside
      · rw [Identity.endpoint, ← confined.wellFormed.named node mem]
        rfl
    · obtain ⟨-, confined, spares⟩ := (isolated_ensure here stub free proper).keeps confined ensured
      exact ⟨⟨_, stub, rfl⟩, confined, spares⟩
  · intro graph other confined confined' agree
    have same : knownTarget? graph label name language context =
        knownTarget? other label name language context := by
      unfold knownTarget? targetNode?
      rw [stub.node? free confined confined' agree, agree.nodes]
    have alike := (isolated_ensure here stub free proper).agrees confined confined' agree
    rw [resolve_apply, resolve_apply, ← same]
    cases knownTarget? graph label name language context with
    | some node => exact .done _ agree
    | none =>
      dsimp only
      generalize ensureNode here _ graph = outcome, ensureNode here _ other = outcome' at alike
      cases alike with
      | refused error => exact .refused error
      | done value agree => exact .done _ agree

theorem isolated_relationship {relationship : Relationship}
    (kind : relationship.kind ∈ inferredKinds) (free : CollisionFree known)
    (source : relationship.source language context ∈ known)
    (target : relationship.target language context ∈ known) :
    Isolated known context (writeRelationship here language context relationship)
      fun _ => True := by
  refine (isolated_resolve target free (target_proper kind language context)).bind ?_
  rintro ⟨_, created⟩ ⟨identity, placed, rfl⟩
  refine (isolated_link ⟨source, context_elementIdentity _ _ _ _⟩ placed free _ _).bind ?_
  exact fun _ _ => (isolated_pure created).mono fun _ _ => trivial

theorem isolated_extract {elements : Elements} (free : CollisionFree known)
    (occur : endIdentities elements language context ⊆ known) :
    SessionIsolated known context (extract here elements language context) := by
  refine session_isolated_attempts (fun relationship mem => ?_) _
  have ends : ∀ identity ∈ [relationship.source language context,
      relationship.target language context], identity ∈ known :=
    fun identity at_end => occur (List.mem_flatMap.mpr ⟨relationship, mem, at_end⟩)
  exact isolated_relationship (infer_kind mem) free (ends _ (by simp)) (ends _ (by simp))

end CodeAtlas.Relations

namespace CodeAtlas.Indexing

open CodeAtlas.Graph
open CodeAtlas.Library (Api)
open CodeAtlas.Source (Elements)

variable {here : Conditions} {known : List Identity} {path language context : String}

def fileIdentities (elements : Elements) (path language context : String) : List Identity :=
  .file path context :: (plan elements language context).map (·.identity)
    ++ Relations.endIdentities elements language context

def looseIdentities (language context : String) (function : LooseFunction) : List Identity :=
  .named .function function.name language context ::
    if function.path.getD "" = "" then [] else [.file (function.path.getD "") context]

def functionIdentities (functions : List LooseFunction) (language context : String) :
    List Identity :=
  functions.flatMap (looseIdentities language context)
    ++ Relations.endIdentities (looseElements functions) language context

def libraryIdentities (api : Api) (context : String) : List Identity :=
  ⟨.library, [api.name], context⟩ ::
    (members api).map fun (label, member) => ⟨label, [member, api.name], context⟩

def nameIdentities (names : List Library.Name) (context : String) : List Identity :=
  names.flatMap fun name =>
    match Library.find? name with
    | none => []
    | some api => libraryIdentities api context

theorem isolated_element {planned : PlannedWrite} (fits : planned.Fits context)
    (free : CollisionFree known) (occurs : planned.identity ∈ known)
    (file : Identity.file path context ∈ known) :
    Isolated known context (writeElement here (.file path context) planned) fun _ => True := by
  have placed : PlacedIn known context planned.identity := ⟨occurs, fits.context⟩
  refine (isolated_upsert placed free fits.proper _).bind fun _ _ => ?_
  rw [fits.context]
  exact isolated_link ⟨file, rfl⟩ placed free _ _

theorem isolated_function {function : LooseFunction} (free : CollisionFree known)
    (occur : looseIdentities language context function ⊆ known) :
    Isolated known context (writeFunction here language context function) fun _ => True := by
  have placed : PlacedIn known context (.named .function function.name language context) :=
    ⟨occur List.mem_cons_self, rfl⟩
  refine (isolated_upsert placed free rfl _).bind fun _ _ => ?_
  by_cases loose : function.path.getD "" = ""
  · rw [if_pos loose]
    exact (isolated_pure ()).mono fun _ _ => trivial
  · rw [if_neg loose]
    have file : PlacedIn known context (.file (function.path.getD "") context) :=
      ⟨occur (by simp [looseIdentities, loose]), rfl⟩
    exact (isolated_upsert file free rfl _).bind fun _ _ => isolated_link file placed free _ _

theorem isolated_member {name : String} {label : Label} {member : String}
    (free : CollisionFree known) (columns : label.keyColumns.length = 2)
    (library : (⟨.library, [name], context⟩ : Identity) ∈ known)
    (occurs : (⟨label, [member, name], context⟩ : Identity) ∈ known) :
    Isolated known context (writeMember here ⟨.library, [name], context⟩ label member)
      fun _ => True := by
  have placed : PlacedIn known context ⟨label, [member, name], context⟩ := ⟨occurs, rfl⟩
  exact (isolated_upsert placed free columns.symm _).bind fun _ _ =>
    isolated_link ⟨library, rfl⟩ placed free _ _

theorem isolated_elements {elements : Elements} (free : CollisionFree known)
    (occur : fileIdentities elements path language context ⊆ known) :
    SessionIsolated known context (indexElements here elements path language context) := by
  have file : PlacedIn known context (.file path context) := ⟨occur (by simp [fileIdentities]), rfl⟩
  refine (session_isolated_commit (isolated_upsert file free rfl _)).bind fun _ => ?_
  refine SessionIsolated.bind ?_ fun report => ?_
  · refine session_isolated_attempts (fun planned mem => ?_) _
    refine isolated_element (plan_fits mem) free (occur ?_) file.occurs
    exact List.mem_append_left _ (List.mem_cons_of_mem _ (List.mem_map_of_mem mem))
  · refine (Relations.isolated_extract free fun identity mem => occur ?_).map _
    refine List.mem_append_right _ (Relations.end_identities_mono ?_ ?_ mem) <;>
      exact List.filter_subset_self _

theorem isolated_functions {functions : List LooseFunction} (free : CollisionFree known)
    (occur : functionIdentities functions language context ⊆ known) :
    SessionIsolated known context (indexFunctions here functions language context) := by
  refine SessionIsolated.bind ?_ fun report => ?_
  · refine session_isolated_attempts (fun function mem => ?_) _
    refine isolated_function free fun identity inside => occur ?_
    exact List.mem_append_left _ (List.mem_flatMap.mpr ⟨function, mem, inside⟩)
  · refine (Relations.isolated_extract free fun identity mem => occur ?_).map _
    refine List.mem_append_right _ (Relations.end_identities_mono ?_ ?_ mem)
    · exact List.map_subset _ (List.filter_subset_self _)
    · exact List.Subset.refl _

theorem isolated_library {api : Api} {projectPath : String} (free : CollisionFree known)
    (occur : libraryIdentities api context ⊆ known) :
    SessionIsolated known context (indexLibrary here api context projectPath) := by
  have library : PlacedIn known context ⟨.library, [api.name], context⟩ :=
    ⟨occur List.mem_cons_self, rfl⟩
  refine (session_isolated_commit (isolated_upsert library free rfl _)).bind fun _ => ?_
  refine session_isolated_attempts (fun member mem => ?_) _
  refine isolated_member free (member_fits mem).1 library.occurs (occur ?_)
  exact List.mem_cons_of_mem _ (List.mem_map.mpr ⟨member, mem, rfl⟩)

theorem isolated_names {names : List Library.Name} {projectPath : String}
    (free : CollisionFree known)
    (occur : nameIdentities names context ⊆ known) :
    SessionIsolated known context (indexNames here names context projectPath) := by
  refine session_isolated_foldlM (fun report name mem => ?_) _
  have named : ∀ api, Library.find? name = some api → libraryIdentities api context ⊆ known :=
    fun api found identity inside => occur (List.mem_flatMap.mpr ⟨name, mem, by rwa [found]⟩)
  cases found : Library.find? name with
  | none => exact session_isolated_pure _
  | some api => exact (isolated_library free (named api found)).map _

end CodeAtlas.Indexing
