import CodeAtlas.Proofs.Indexing.Libraries
import CodeAtlas.Proofs.Isolation.NonInterference
import CodeAtlas.Proofs.Stubs.Defined

/-! What indexing dependencies accounts for. Every name is either supported, and then a library is
resolved for it, or it is not; every member of a resolved library is counted or itemised, and what
is not itemised is in the graph with its edge. Nodes that are no part of a library in the context
stay as they were. -/
namespace CodeAtlas.Library

variable {name : Name} {api : Api}

/-- The library that a name stands for: its own entry, or the entry of its package where the name is
an unknown path into a package that has no scope. -/
def StandsFor (name : Name) (api : Api) : Prop :=
  api ∈ known ∧ (Json.units api.name = name ∨ (∀ own ∈ known, Json.units own.name ≠ name) ∧
    name.head? ≠ some '@'.toNat.toUInt16 ∧ Json.units api.name = basePackage name)

theorem known_once : (known.map fun api => Json.units api.name).Nodup := by decide +kernel

theorem entry_none_iff : entry? name = none ↔ ∀ own ∈ known, Json.units own.name ≠ name := by
  unfold entry?
  simp

theorem entry_iff : entry? name = some api ↔ api ∈ known ∧ Json.units api.name = name := by
  constructor
  · intro found
    exact ⟨List.mem_of_find?_eq_some found, by simpa using List.find?_some found⟩
  · rintro ⟨mem, rfl⟩
    cases found : entry? (Json.units api.name) with
    | none => exact absurd rfl (entry_none_iff.mp found api mem)
    | some other =>
      have named : Json.units other.name = Json.units api.name := by
        simpa using List.find?_some found
      rw [List.inj_on_of_nodup_map known_once (List.mem_of_find?_eq_some found) mem named]

theorem find_iff : find? name = some api ↔ StandsFor name api := by
  rw [find?, StandsFor]
  cases own : entry? name with
  | some other =>
    obtain ⟨mem, named⟩ := entry_iff.mp own
    rw [Option.some.injEq]
    constructor
    · rintro rfl
      exact ⟨mem, .inl named⟩
    · rintro ⟨mem', named' | ⟨none, -⟩⟩
      · exact Option.some.inj (own.symm.trans (entry_iff.mpr ⟨mem', named'⟩))
      · exact absurd named (none other mem)
  | none =>
    have unknown := entry_none_iff.mp own
    dsimp only
    by_cases begins : name.head? = some '@'.toNat.toUInt16
    · rw [if_pos begins]
      constructor
      · rintro ⟨⟩
      · rintro ⟨mem, named | ⟨-, unscoped, -⟩⟩
        · exact absurd named (unknown api mem)
        · exact absurd begins unscoped
    · rw [if_neg begins, entry_iff]
      constructor
      · rintro ⟨mem, package⟩
        exact ⟨mem, .inr ⟨unknown, begins, package⟩⟩
      · rintro ⟨mem, named | ⟨-, -, package⟩⟩
        · exact absurd named (unknown api mem)
        · exact ⟨mem, package⟩

theorem find_none_iff : find? name = none ↔ ∀ api, ¬ StandsFor name api := by
  rw [Option.eq_none_iff_forall_ne_some]
  exact forall_congr' fun api => not_congr find_iff

end CodeAtlas.Library

namespace CodeAtlas.Indexing

open CodeAtlas.Graph
open CodeAtlas.Library (Api Name StandsFor)
open CodeAtlas.Relations (Failure)
open CodeAtlas.Runs (Operation Step run)

variable {here : Conditions} {graph after last : Graph} {context projectPath : String}
  {known : List Identity} {api : Api} {names : List Name}

/-! One library. -/

def libraryIdentity (api : Api) (context : String) : Identity := ⟨.library, [api.name], context⟩

def memberIdentity (api : Api) (context : String) (member : Label × String) : Identity :=
  ⟨member.1, [member.2, api.name], context⟩

theorem library_identities_eq (api : Api) (context : String) : libraryIdentities api context =
    libraryIdentity api context :: (members api).map (memberIdentity api context) := rfl

def ProvidedIn (context : String) (api : Api) (member : Label × String) (graph : Graph) : Prop :=
  Defined graph member.1 (memberIdentity api context member).id ∧
    (EdgeType.provides, (libraryIdentity api context).id, (memberIdentity api context member).id) ∈
      graph.edges.map Edge.ends

theorem ProvidedIn.endures {member : Label × String} (h : ProvidedIn context api member graph)
    (endures : Endures graph after) : ProvidedIn context api member after :=
  ⟨endures.defined h.1, endures.edges h.2⟩

theorem member_provided {member : Label × String} (mem : member ∈ members api)
    (library : Defined graph .library (libraryIdentity api context).id)
    (done : writeMember here (libraryIdentity api context) member.1 member.2 graph =
      .ok ((), after)) : Endures graph after ∧ ProvidedIn context api member after := by
  have endures : Endures graph after :=
    (endures_moves here).member _ _ _ (member_fits mem).1 _ _ _ done
  have proper : (memberIdentity api context member).Proper := (member_fits mem).1.symm
  obtain ⟨created, middle, put, linked⟩ := write_bind done
  have defined : Defined middle member.1 (memberIdentity api context member).id :=
    upsert_defined put
  have kept : Defined middle .library (libraryIdentity api context).id :=
    ((endures_moves here).upsert _ _ proper _ _ _ put).defined library
  obtain ⟨-, -, -, rfl⟩ := link_cases linked
  refine ⟨endures, (endures_joined _ _ _ _ _).defined defined, mem_ends_joined.mpr (.inr ?_)⟩
  exact ⟨kept.hasNode, defined.hasNode, rfl⟩

/-- What is left once a library is indexed: its node, and each member unless it is itemised. -/
theorem library_supplied {report : LibraryReport}
    (done : indexLibrary here api context projectPath graph = (.ok report, after)) :
    (∀ failure ∈ report.failures, ∃ member ∈ members api,
      failure.kind = .node member.1 ∧ failure.name = member.2) ∧
    Defined after .library (libraryIdentity api context).id ∧
    ∀ member ∈ members api, (∃ failure ∈ report.failures,
      failure.kind = .node member.1 ∧ failure.name = member.2) ∨
        ProvidedIn context api member after := by
  rw [index_library_apply] at done
  cases put : writeLibrary here api context projectPath graph with
  | error error =>
    rw [put] at done
    cases (Prod.mk.inj done).1
  | ok pair =>
    rw [put] at done
    obtain ⟨reported, rfl⟩ := Prod.mk.inj done
    obtain rfl := Except.ok.inj reported
    have tried := tried_tryAll (fun member : Label × String =>
      writeMember here (libraryIdentity api context) member.1 member.2) (members api) pair.2
    have items := items_tryAll (fun member : Label × String =>
      writeMember here (libraryIdentity api context) member.1 member.2) (members api) pair.2
    have library : Defined pair.2 .library (libraryIdentity api context).id := upsert_defined put
    refine ⟨?_, ?_, ?_⟩
    · intro failure mem
      obtain ⟨⟨member, error⟩, refused, rfl⟩ := List.mem_map.mp mem
      refine ⟨member, ?_, rfl, rfl⟩
      rw [← items]
      exact List.mem_map_of_mem (mem_failed.mp refused)
    · refine tried.invariant (P := fun graph => Defined graph .library _) library ?_
      intro member mem graph value next kept written
      rw [items] at mem
      exact (member_provided mem kept written).1.defined kept
    · intro member mem
      rw [← items] at mem
      obtain ⟨⟨_, error | value⟩, attempted, rfl⟩ := List.mem_map.mp mem
      · refine .inl ⟨memberFailure (_, error), ?_, rfl, rfl⟩
        exact List.mem_map_of_mem (mem_failed.mpr attempted)
      · right
        refine tried.result (I := fun graph => Defined graph .library _)
          (P := fun member _ graph => ProvidedIn context api member graph) library ?_ ?_ attempted
        · intro member mem graph value next kept written
          rw [items] at mem
          have provided := member_provided mem kept written
          exact ⟨provided.1.defined kept, provided.2⟩
        · intro member mem graph value next other _ provided written
          rw [items] at mem
          exact provided.endures
            ((endures_moves here).member _ _ _ (member_fits mem).1 _ _ _ written)

/-! Several names. -/

def resolved (names : List Name) : List (Name × Api) :=
  names.filterMap fun name => (Library.find? name).map (name, ·)

def unresolved (names : List Name) : List Name :=
  names.filter fun name => !(Library.find? name).isSome

/-- A report that goes on over some names, of whose libraries there are these reports. -/
def DependencyReport.goesOn (report : DependencyReport) (names : List Name)
    (libraries : List LibraryReport) : DependencyReport :=
  { report with
    indexedLibraries := report.indexedLibraries + libraries.length
    indexedApis := report.indexedApis + (libraries.map LibraryReport.members).sum
    supported := report.supported ++ (resolved names).map Prod.fst
    unsupported := report.unsupported ++ unresolved names
    failures := report.failures ++ libraries.flatMap LibraryReport.failures }

/-- A library was indexed at some time before, and nothing was removed since. -/
def IndexedBefore (here : Conditions) (context projectPath : String) (last : Graph)
    (entry : Name × Api) (library : LibraryReport) : Prop :=
  ∃ start middle, indexLibrary here entry.2 context projectPath start = (.ok library, middle) ∧
    Endures middle last

theorem names_endure {report told : DependencyReport}
    (done : indexNamesFrom here context projectPath names report graph = (.ok told, last)) :
    Endures graph last := by
  have kept : SessionMoves Endures (indexNamesFrom here context projectPath names report) := by
    refine (endures_moves here).session_foldlM (fun report name _ => ?_) report
    split
    · exact (endures_moves here).session_pure _
    · exact (endures_moves here).session_map ((endures_moves here).library _ _ _) _
  have grown := kept graph
  rwa [done] at grown

/-- What indexing some names reports: each library that a name stands for is indexed, in order. -/
theorem names_told {report told : DependencyReport}
    (done : indexNamesFrom here context projectPath names report graph = (.ok told, last)) :
    ∃ libraries, told = report.goesOn names libraries ∧
      List.Forall₂ (IndexedBefore here context projectPath last) (resolved names) libraries := by
  induction names generalizing report graph with
  | nil =>
    obtain rfl := Except.ok.inj (Prod.mk.inj done).1
    exact ⟨[], by simp [DependencyReport.goesOn, resolved, unresolved], .nil⟩
  | cons name names ih =>
    rw [index_names_from_cons] at done
    cases found : Library.find? name with
    | none =>
      rw [found] at done
      obtain ⟨libraries, rfl, indexed⟩ := ih done
      refine ⟨libraries, ?_, by simpa [resolved, found] using indexed⟩
      simp [DependencyReport.goesOn, DependencyReport.leaveOut, resolved, unresolved, found]
    | some api =>
      rw [found] at done
      dsimp only at done
      rcases library : indexLibrary here api context projectPath graph with
        ⟨refused | added, middle⟩
      · rw [library] at done
        cases (Prod.mk.inj done).1
      · rw [library] at done
        have endures : Endures middle last := names_endure done
        obtain ⟨libraries, rfl, indexed⟩ := ih done
        refine ⟨added :: libraries, ?_, ?_⟩
        · simp [DependencyReport.goesOn, DependencyReport.add, resolved, unresolved, found,
            Nat.add_assoc, Nat.add_comm 1]
        · rw [resolved, List.filterMap_cons, found]
          exact .cons ⟨graph, middle, library, endures⟩ indexed

theorem resolved_names (names : List Name) :
    (resolved names).map Prod.fst = names.filter fun name => (Library.find? name).isSome := by
  induction names with
  | nil => rfl
  | cons name names ih =>
    rw [resolved] at ih ⊢
    rw [List.filterMap_cons, List.filter_cons, ← ih]
    cases Library.find? name <;> rfl

theorem resolved_stand_for (names : List Name) :
    List.Forall₂ StandsFor ((resolved names).map Prod.fst) ((resolved names).map Prod.snd) := by
  rw [List.forall₂_map_left_iff, List.forall₂_map_right_iff, List.forall₂_same]
  intro entry mem
  obtain ⟨name, -, kept⟩ := List.mem_filterMap.mp mem
  obtain ⟨api, found, rfl⟩ := Option.map_eq_some_iff.mp kept
  exact Library.find_iff.mp found

theorem identities_of_resolved {entry : Name × Api} (mem : entry ∈ resolved names) :
    libraryIdentities entry.2 context ⊆ nameIdentities names context := by
  intro identity inside
  obtain ⟨name, known, kept⟩ := List.mem_filterMap.mp mem
  obtain ⟨api, found, rfl⟩ := Option.map_eq_some_iff.mp kept
  exact List.mem_flatMap.mpr ⟨name, known, by rwa [found]⟩

theorem libraries_account {entries : List (Name × Api)} {libraries : List LibraryReport}
    (indexed : List.Forall₂ (IndexedBefore here context projectPath last) entries libraries) :
    (libraries.map LibraryReport.members).sum +
        (libraries.flatMap LibraryReport.failures).length =
      ((entries.map Prod.snd).map Api.memberCount).sum := by
  induction indexed with
  | nil => rfl
  | cons first _ ih =>
    obtain ⟨start, middle, done, -⟩ := first
    have counted := library_accounts done
    simp only [List.map_cons, List.sum_cons, List.flatMap_cons, List.length_append]
    omega

def membersOf (names : List Name) : Nat :=
  (names.map fun name => ((Library.find? name).map Api.memberCount).getD 0).sum

theorem members_of_resolved (names : List Name) :
    membersOf names = (((resolved names).map Prod.snd).map Api.memberCount).sum := by
  induction names with
  | nil => rfl
  | cons name names ih =>
    rw [membersOf] at ih ⊢
    rw [List.map_cons, List.sum_cons, ih, resolved, resolved, List.filterMap_cons]
    cases Library.find? name with
    | none => exact Nat.zero_add _
    | some api => rfl

theorem names_account {report told : DependencyReport}
    (done : indexNamesFrom here context projectPath names report graph = (.ok told, last)) :
    told.indexedApis + told.failures.length =
      report.indexedApis + report.failures.length + membersOf names := by
  obtain ⟨libraries, rfl, indexed⟩ := names_told done
  have counted := libraries_account indexed
  rw [members_of_resolved, DependencyReport.goesOn, List.length_append]
  dsimp only
  omega

/-- A report accounts for some names, for which these libraries are found: each name is supported or
not, in order, and each member of the libraries is counted or itemised. -/
structure DependencyReport.Accounts (report : DependencyReport) (names : List Name)
    (apis : List Api) : Prop where
  supported_in_order : report.supported.Sublist names
  unsupported_in_order : report.unsupported.Sublist names
  each_once : names.Nodup ∧ (report.supported ++ report.unsupported).Perm names
  total : report.supported.length + report.unsupported.length = report.total
  indexed_libraries : report.indexedLibraries = report.supported.length
  stand_for : List.Forall₂ StandsFor report.supported apis
  unknown : ∀ name ∈ report.unsupported, ∀ api, ¬ StandsFor name api
  indexed_apis : report.indexedApis + report.failures.length = (apis.map Api.memberCount).sum

theorem report_accounts (once : names.Nodup) {libraries : List LibraryReport}
    (indexed : List.Forall₂ (IndexedBefore here context projectPath last) (resolved names)
      libraries) :
    (DependencyReport.goesOn { context := context, total := names.length } names
      libraries).Accounts names ((resolved names).map Prod.snd) := by
  have supported := resolved_names names
  have divided := List.filter_append_perm (fun name => (Library.find? name).isSome) names
  constructor
  case supported_in_order =>
    rw [DependencyReport.goesOn, List.nil_append, supported]
    exact List.filter_sublist
  case unsupported_in_order => exact List.filter_sublist
  case each_once =>
    refine ⟨once, ?_⟩
    rw [DependencyReport.goesOn, List.nil_append, supported]
    exact divided
  case total =>
    rw [DependencyReport.goesOn, List.nil_append, supported]
    simpa [unresolved] using divided.length_eq
  case indexed_libraries =>
    rw [DependencyReport.goesOn, List.nil_append, List.length_map, indexed.length_eq]
    exact Nat.zero_add _
  case stand_for => exact resolved_stand_for names
  case unknown =>
    intro name mem
    have none := (List.mem_filter.mp mem).2
    exact Library.find_none_iff.mp (by simpa using none)
  case indexed_apis =>
    rw [← libraries_account indexed, DependencyReport.goesOn, List.nil_append]
    exact congrArg (· + _) (Nat.zero_add _)

/-! Graphs of known identities. -/

structure Identified (known : List Identity) (graph : Graph) : Prop where
  wellFormed : WellFormed graph
  occurs : ∀ node ∈ graph.nodes, node.identity ∈ known

theorem Identified.node_of_defined (h : Identified known graph) (free : CollisionFree known)
    {identity : Identity} (mem : identity ∈ known)
    (defined : Defined graph identity.label identity.id) :
    ∃ node ∈ graph.nodes, node.identity = identity ∧ node.isStub = false ∧
      node.id = identity.id := by
  obtain ⟨node, inside, -, id, written⟩ := defined
  have named := h.wellFormed.named node inside
  exact ⟨node, inside, free.eq_of_id (h.occurs node inside) mem (named.symm.trans id), written, id⟩

def RefusedIn (failures : List Failure) (member : Label × String) : Prop :=
  ∃ failure ∈ failures, failure.kind = .node member.1 ∧ failure.name = member.2

/-- The node of a library is there and provides every member that no failure is about; and no
failure is about anything else. -/
structure Supplied (graph : Graph) (context : String) (api : Api) (failures : List Failure) :
    Prop where
  itemises : ∀ failure ∈ failures, ∃ member ∈ members api,
    failure.kind = .node member.1 ∧ failure.name = member.2
  provides : ∃ library ∈ graph.nodes, library.identity = libraryIdentity api context ∧
    library.isStub = false ∧ ∀ member ∈ members api, ¬ RefusedIn failures member →
      ∃ node ∈ graph.nodes, node.identity = memberIdentity api context member ∧
        node.isStub = false ∧ ∃ edge ∈ graph.edges, edge.ends = (.provides, library.id, node.id)

theorem Identified.supplied (h : Identified known last) (free : CollisionFree known)
    (occur : libraryIdentities api context ⊆ known) {name : Name} {library : LibraryReport}
    (indexed : IndexedBefore here context projectPath last (name, api) library) :
    Supplied last context api library.failures := by
  rw [library_identities_eq] at occur
  obtain ⟨start, middle, done, endures⟩ := indexed
  obtain ⟨itemises, defined, members⟩ := library_supplied done
  obtain ⟨own, inside, identity, written, ownId⟩ :=
    h.node_of_defined free (occur List.mem_cons_self) (endures.defined defined)
  refine ⟨itemises, own, inside, identity, written, ?_⟩
  intro member mem silent
  have provided : ProvidedIn context api member last :=
    ((members member mem).resolve_left silent).endures endures
  have known : memberIdentity api context member ∈ known :=
    occur (List.mem_cons_of_mem _ (List.mem_map_of_mem mem))
  obtain ⟨node, inside, identity, written, id⟩ := h.node_of_defined free known provided.1
  obtain ⟨edge, drawn, ends⟩ := List.mem_map.mp provided.2
  exact ⟨node, inside, identity, written, edge, drawn, by rw [ends, ownId, id]⟩

/-! Other nodes. -/

def ofLibraries (context : String) (node : Node) : Bool :=
  node.context = context && [.library, .libraryFunction, .libraryClass, .libraryConstant,
    .libraryHook, .libraryType].contains node.label

/-- A change under which the nodes keep known identities, and only those of libraries in a context
change. -/
def ChangesLibraries (known : List Identity) (context : String) (before after : Graph) : Prop :=
  Identified known before → Identified known after ∧
    after.nodes.filter (fun node => !ofLibraries context node) =
      before.nodes.filter fun node => !ofLibraries context node

theorem changes_libraries_chains (known : List Identity) (context : String) :
    Chains (ChangesLibraries known context) where
  refl graph identified := ⟨identified, rfl⟩
  trans first second identified := by
    obtain ⟨middling, same⟩ := first identified
    obtain ⟨identified, same'⟩ := second middling
    exact ⟨identified, same'.trans same⟩

theorem upsert_changes_libraries (free : CollisionFree known) {identity : Identity}
    (mem : identity ∈ known) (proper : identity.Proper) (given : Attributes)
    (library : ∀ node : Node, node.identity = identity → ofLibraries context node = true) :
    WriteMoves (ChangesLibraries known context) (upsert here identity given) := by
  intro graph created after done identified
  have wellFormed : WellFormed after :=
    (well_formed_moves here).upsert _ _ proper _ _ _ done identified.wellFormed
  rcases upsert_cases done with ⟨absent, -, -, rfl⟩ | ⟨node, found, -, -, rfl⟩
  · have new := library (.created identity given here.now) rfl
    refine ⟨⟨wellFormed, ?_⟩, ?_⟩
    · intro node inside
      rcases List.mem_append.mp inside with inside | inside
      · exact identified.occurs node inside
      · obtain rfl := List.mem_singleton.mp inside
        exact mem
    · rw [nodes_addNode, List.filter_append, List.filter_cons_of_neg (by simp [new])]
      exact List.append_nil _
  · obtain ⟨inside, labels, ids⟩ := node?_eq_some found
    have same : node.identity = identity :=
      free.eq_of_id (identified.occurs node inside) mem
        ((identified.wellFormed.named node inside).symm.trans ids)
    refine ⟨⟨wellFormed, ?_⟩, ?_⟩
    · intro other inside
      rcases mem_setNode inside with rfl | ⟨inside, -⟩
      · exact same ▸ mem
      · exact identified.occurs other inside
    · refine filter_replace_apart fun old inside' hit => ?_
      obtain ⟨labels', ids'⟩ : old.label = identity.label ∧ old.id = identity.id := by
        simpa using hit
      obtain rfl := identified.wellFormed.eq_of_id inside' inside (ids'.trans ids.symm)
      rw [library (old.overwritten given here.now) same, library old same]
      exact ⟨rfl, rfl⟩

theorem link_changes_libraries (type : EdgeType) (source target : Endpoint) (context' : String) :
    WriteMoves (ChangesLibraries known context) (link here type source target context') := by
  intro graph value after done identified
  have wellFormed : WellFormed after :=
    (well_formed_moves here).link _ _ _ _ _ _ _ _ done identified.wellFormed
  obtain ⟨-, -, -, rfl⟩ := link_cases done
  have nodes : (joined here graph type source target context' []).nodes = graph.nodes :=
    nodes_joined type source target context' []
  refine ⟨⟨wellFormed, ?_⟩, ?_⟩
  · rw [nodes]
    exact identified.occurs
  · rw [nodes]

theorem library_changes_libraries (free : CollisionFree known)
    (occur : libraryIdentities api context ⊆ known) :
    SessionMoves (ChangesLibraries known context)
      (indexLibrary here api context projectPath) := by
  have chains := changes_libraries_chains known context
  rw [library_identities_eq] at occur
  refine chains.session_bind (chains.session_commit ?_) fun _ => chains.attempts ?_ _
  · refine upsert_changes_libraries free (occur List.mem_cons_self) rfl _ ?_
    intro node identity
    obtain ⟨labels, -, contexts⟩ := Identity.mk.inj identity
    simp [ofLibraries, labels, contexts]
  · rintro ⟨label, member⟩ mem
    have known : memberIdentity api context (label, member) ∈ known :=
      occur (List.mem_cons_of_mem _ (List.mem_map_of_mem mem))
    have fits := member_fits mem
    refine chains.write_bind (upsert_changes_libraries free known fits.1.symm _ ?_)
      fun _ => link_changes_libraries _ _ _ _
    intro node identity
    obtain ⟨labels, -, contexts⟩ := Identity.mk.inj identity
    have kind := fits.2
    simp only [EdgeType.endpoints, List.mem_cons, Prod.mk.injEq, true_and, List.not_mem_nil,
      or_false] at kind
    simp [ofLibraries, labels, contexts, kind]

theorem names_change_libraries (free : CollisionFree known)
    (occur : nameIdentities names context ⊆ known) :
    SessionMoves (ChangesLibraries known context)
      (indexNames here names context projectPath) := by
  have chains := changes_libraries_chains known context
  refine chains.session_foldlM (fun report name mem => ?_) _
  have named : ∀ api, Library.find? name = some api → libraryIdentities api context ⊆ known :=
    fun api found identity inside => occur (List.mem_flatMap.mpr ⟨name, mem, by rwa [found]⟩)
  cases found : Library.find? name with
  | none => exact chains.session_pure _
  | some api => exact chains.session_map (library_changes_libraries free (named api found)) _

/-! Runs. -/

theorem on_index_dependencies {project branch : Option String} {manifest : String}
    {names : List Name} (settled : contextKey project branch = .ok context)
    (read : Library.readDependencies here.stack manifest = .ok names) (graph : Graph) :
    (Operation.indexDependencies manifest projectPath project branch).on here graph =
      ((indexNames here names context projectPath graph).1.map .dependencies,
        (indexNames here names context projectPath graph).2) := by
  rw [Runs.on_eq_session, Operation.session, settled, except_ok_bind, read]
  change ((do return Runs.Answer.dependencies (← indexNames here names
    context projectPath) : Session Runs.Answer) graph) = _
  rw [session_bind_apply]
  rcases indexNames here names context projectPath graph with ⟨error | report, last⟩ <;> rfl

theorem index_dependencies_answered {project branch : Option String} {manifest : String}
    {graph : Graph} {answer : Runs.Answer}
    (done : ((Operation.indexDependencies manifest projectPath project branch).on here graph).1 =
      .ok answer) :
    ∃ context names, contextKey project branch = .ok context ∧
      Library.readDependencies here.stack manifest = .ok names := by
  rw [Runs.on_eq_session, Operation.session] at done
  cases settled : contextKey project branch with
  | error error =>
    rw [settled] at done
    cases done
  | ok context =>
    cases read : Library.readDependencies here.stack manifest with
    | error error =>
      rw [settled, except_ok_bind, read] at done
      cases done
    | ok names => exact ⟨context, names, rfl, rfl⟩

theorem dependency_names_once (stack : Json.Stack) (manifest : String) :
    (Library.dependencyNames stack manifest).Nodup := by
  unfold Library.dependencyNames
  split
  · exact nodup_distinct _
  · exact List.nodup_nil

/-- Indexing dependencies, when it answers, accounts for each of them and for each member of the
libraries that they stand for. Every one of these libraries is left in its context with all the
members that are not among its failures, and no other node is touched. -/
theorem dependencies_accounted (steps : List Step) (here : Conditions)
    (manifest projectPath : String) (project branch : Option String) (report : DependencyReport) :
    let index : Operation := .indexDependencies manifest projectPath project branch
    let before := run steps
    let after := (index.on here before).2
    (index.on here before).1 = .ok (.dependencies report) →
      contextKey project branch = .ok report.context ∧
      ∃ apis, report.Accounts (Library.dependencyNames here.stack manifest) apis ∧
        (CollisionFree (before.nodes.map Node.identity ++ index.identities here) →
          (∃ failures, report.failures = failures.flatten ∧
            List.Forall₂ (Supplied after report.context) apis failures) ∧
          after.nodes.filter (fun node => !ofLibraries report.context node) =
            before.nodes.filter fun node => !ofLibraries report.context node) := by
  intro index before after done
  obtain ⟨context, names, settled, read⟩ := index_dependencies_answered done
  obtain rfl := Library.dependencies_read read
  let names := Library.dependencyNames here.stack manifest
  have ran : index.on here before = _ := on_index_dependencies settled read before
  have indexed : indexNames here names context projectPath before = (.ok report, after) := by
    rcases told : indexNames here names context projectPath before with ⟨error | other, last⟩
    · rw [ran, told] at done
      cases done
    · rw [ran, told] at done
      have left : after = last := by rw [show after = _ from congrArg Prod.snd ran, told]
      rw [left, Runs.Answer.dependencies.inj (Except.ok.inj done)]
  obtain ⟨libraries, rfl, each⟩ := names_told indexed
  refine ⟨settled, _, report_accounts (dependency_names_once here.stack manifest) each, ?_⟩
  intro free
  have inside : index.context? = some context := Runs.toOption_of_ok settled
  rw [Runs.identities_of_context inside] at free
  let known := before.nodes.map Node.identity ++ nameIdentities names context
  have occur : nameIdentities names context ⊆ known := List.subset_append_right _ _
  have begun : Identified known before := by
    refine ⟨(Runs.run_well_formed steps).1, fun node mem => ?_⟩
    exact List.mem_append_left _ (List.mem_map_of_mem mem)
  have changed : ChangesLibraries known context before
      (indexNames here names context projectPath before).2 :=
    names_change_libraries free occur before
  rw [indexed] at changed
  obtain ⟨identified, others⟩ := changed begun
  refine ⟨⟨libraries.map LibraryReport.failures, List.flatMap_def .., ?_⟩, others⟩
  rw [List.forall₂_map_left_iff, List.forall₂_map_right_iff]
  have named : ∀ entry ∈ resolved names, libraryIdentities entry.2 context ⊆ known :=
    fun entry mem => List.Subset.trans (identities_of_resolved mem) occur
  refine ((List.forall₂_and_left _ _).mpr ⟨named, each⟩).imp ?_
  intro entry library found
  exact identified.supplied free found.1 found.2

example : (Library.find? (Json.units "uuid/v4")).map Api.name = some "uuid" ∧
    Library.find? (Json.units "@next/router") = none := by
  decide +kernel

def routerManifest : String :=
  (Json.object
    [("dependencies", .object [("next/router", .text "14"), ("left-pad", .text "1")]),
      ("devDependencies", .object [("@next/router", .text "14"), ("left-pad", .text "1")])]).compact

def indexRouter : Operation := .indexDependencies routerManifest "web" none none

def withoutTypes : Conditions := { now := 2, faults := [.create .libraryType none] }

def drawn : List Step :=
  [⟨{ now := 1 }, .indexFunctions [⟨"draw", "", none⟩] "typescript" none none⟩]

theorem router_identities :
    (run drawn).nodes.map Node.identity ++ indexRouter.identities withoutTypes =
      [.named .function "draw" "typescript" "default:main",
        ⟨.library, ["next/router"], "default:main"⟩,
        ⟨.libraryFunction, ["useRouter", "next/router"], "default:main"⟩,
        ⟨.libraryFunction, ["withRouter", "next/router"], "default:main"⟩,
        ⟨.libraryType, ["NextRouter", "next/router"], "default:main"⟩] := by
  decide +kernel

theorem router_free :
    CollisionFree ((run drawn).nodes.map Node.identity ++ indexRouter.identities withoutTypes) := by
  rw [router_identities]
  decide +kernel

theorem router_read : Library.readDependencies withoutTypes.stack routerManifest =
    .ok (Library.dependencyNames {} routerManifest) := by
  have known : (Library.readDependencies {} routerManifest).toOption =
    some (Library.dependencyNames {} routerManifest) := by decide +kernel
  exact ok_of_toOption known

theorem router_told : (indexNames withoutTypes (Library.dependencyNames {} routerManifest)
      "default:main" "web" (run drawn)).1.toOption.map
        (fun report => (report.supported, report.unsupported, report.failures)) =
    some ([Json.units "next/router"], [Json.units "left-pad", Json.units "@next/router"],
      [⟨.node .libraryType, "NextRouter", "disk full"⟩]) := by
  decide +kernel

theorem router_members (stands : StandsFor (Json.units "next/router") api) :
    api.name = "next/router" ∧
    members api = [(.libraryFunction, "useRouter"), (.libraryFunction, "withRouter"),
      (.libraryType, "NextRouter")] := by
  have entry : (Library.find? (Json.units "next/router")).map (fun api => (api.name, members api)) =
      some ("next/router", [(.libraryFunction, "useRouter"), (.libraryFunction, "withRouter"),
        (.libraryType, "NextRouter")]) := by
    decide +kernel
  rw [Library.find_iff.mpr stands, Option.map_some, Option.some.injEq, Prod.mk.injEq] at entry
  exact entry

/-- The functions of the router are provided although its type is not. -/
theorem router_accounted : ∃ report,
    (indexRouter.on withoutTypes (run drawn)).1 = .ok (.dependencies report) ∧
      report.supported = [Json.units "next/router"] ∧
      report.unsupported = [Json.units "left-pad", Json.units "@next/router"] ∧
      report.indexedApis + report.failures.length = 3 ∧
      ∃ library ∈ (indexRouter.on withoutTypes (run drawn)).2.nodes,
      ∃ member ∈ (indexRouter.on withoutTypes (run drawn)).2.nodes,
        library.identity = ⟨.library, ["next/router"], "default:main"⟩ ∧
        member.identity = ⟨.libraryFunction, ["useRouter", "next/router"], "default:main"⟩ ∧
        ∃ edge ∈ (indexRouter.on withoutTypes (run drawn)).2.edges,
          edge.ends = (.provides, library.id, member.id) := by
  have settled : contextKey none none = .ok "default:main" := rfl
  have ran : indexRouter.on withoutTypes (run drawn) = _ :=
    on_index_dependencies settled router_read (run drawn)
  obtain ⟨report, indexed, told⟩ := Option.map_eq_some_iff.mp router_told
  have answered : (indexRouter.on withoutTypes (run drawn)).1 = .ok (.dependencies report) := by
    rw [ran, ok_of_toOption indexed]
    rfl
  obtain ⟨context, apis, accounts, left⟩ := dependencies_accounted drawn withoutTypes
    routerManifest "web" none none report answered
  obtain ⟨⟨failures, all, supplied⟩, -⟩ := left router_free
  simp only [Prod.mk.injEq] at told
  obtain ⟨supported, unsupported, refused⟩ := told
  have stand := accounts.stand_for
  rw [supported] at stand
  obtain ⟨api, _, stands, none, rfl⟩ := List.forall₂_cons_left_iff.mp stand
  obtain rfl := List.forall₂_nil_left_iff.mp none
  obtain ⟨name, listed⟩ := router_members stands
  obtain ⟨part, _, supplies, none, rfl⟩ := List.forall₂_cons_left_iff.mp supplied
  obtain rfl := List.forall₂_nil_left_iff.mp none
  rw [List.flatten_singleton, refused] at all
  subst all
  obtain ⟨library, inside, identity, -, provided⟩ := supplies.provides
  have silent : ¬ RefusedIn [⟨.node .libraryType, "NextRouter", "disk full"⟩]
      (.libraryFunction, "useRouter") := by
    rintro ⟨failure, mem, -, name⟩
    obtain rfl := List.mem_singleton.mp mem
    exact absurd name (by decide)
  obtain ⟨member, inside', identity', -, edge⟩ :=
    provided (.libraryFunction, "useRouter") (by simp [listed]) silent
  have main : report.context = "default:main" := Except.ok.inj (context.symm.trans settled)
  have counted : report.indexedApis + report.failures.length = 3 := by
    rw [accounts.indexed_apis, List.map_singleton, List.sum_singleton, ← members_length, listed]
    rfl
  rw [libraryIdentity, name, main] at identity
  rw [memberIdentity, name, main] at identity'
  rw [indexRouter] at answered ⊢
  exact ⟨report, answered, supported, unsupported, counted, library, inside, member, inside',
    identity, identity', edge⟩

end CodeAtlas.Indexing
