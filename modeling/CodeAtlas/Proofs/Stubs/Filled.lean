import CodeAtlas.Proofs.Indexing.Again

/-! Filling stubs. A node that is written for the first time holds something in every column. A stub
holds nothing, and a write over it changes the given columns only. So a filled stub is the node that
a first write makes when all columns are given; else the others stay open. Indexing gives all
columns of what it writes, so that only single upserts leave a written node with an open column. -/
namespace CodeAtlas.Graph

variable {here : Conditions} {graph after : Graph} {identity : Identity} {given : Attributes}
  {column : String} {isTooDeep : Json → Bool}

/-! Columns. -/

def NodeRequest.given? (request : NodeRequest) (isTooDeep : Json → Bool) (label : Label)
    (column : String) : Option Cell :=
  (request.attributes.lookup column).bind fun value =>
    (Cell.ofJson isTooDeep label column value).toOption

theorem lookup_stored {value? : String → Option Json} {stored : String → Json → Except Error Cell}
    {columns : List String}
    (done : (columns.filterMap fun column => (value? column).map fun value => (column, value)).mapM
      (fun (column, value) => return (column, ← stored column value)) = Except.ok given)
    (column : String) : given.lookup column =
      if column ∈ columns then (value? column).bind fun value => (stored column value).toOption
      else none := by
  induction columns generalizing given with
  | nil =>
    obtain rfl := Except.ok.inj done
    rfl
  | cons first columns ih =>
    cases asked : value? first with
    | none =>
      rw [List.filterMap_cons_none (by simp [asked])] at done
      rw [ih done]
      by_cases same : column = first
      · subst same
        simp [asked]
      · simp [same]
    | some value =>
      simp only [List.filterMap_cons, asked, Option.map_some, List.mapM_cons] at done
      obtain ⟨pair, put, done⟩ := except_bind done
      obtain ⟨cell, kept, put⟩ := except_bind put
      obtain ⟨rest, others, done⟩ := except_bind done
      obtain rfl := Except.ok.inj put
      obtain rfl := Except.ok.inj done
      rw [lookup_cons_if, ih others]
      by_cases same : column = first
      · subst same
        simp [asked, kept, Except.toOption]
      · simp [same]

theorem lookup_attributesOf {request : NodeRequest} {label : Label}
    (stored : label.attributesOf isTooDeep request.attributes = .ok given)
    (mem : column ∈ label.attributeColumns) :
    given.lookup column = request.given? isTooDeep label column := by
  rw [lookup_stored stored, if_pos mem, NodeRequest.given?]

theorem lookup_zip_map {β : Type} (value : String → β) {columns : List String}
    (mem : column ∈ columns) :
    (columns.zip (columns.map value)).lookup column = some (value column) := by
  induction columns with
  | nil => cases mem
  | cons first columns ih =>
    rw [List.map_cons, List.zip_cons_cons, lookup_cons_if]
    by_cases same : column = first
    · rw [if_pos same, same]
    · rw [if_neg same]
      exact ih ((List.mem_cons.mp mem).resolve_left same)

theorem attribute_of_columns {node : Node} {value : String → Option Cell}
    (attributes : node.attributes = node.label.attributeColumns.map value)
    (mem : column ∈ node.label.attributeColumns) : node.attribute? column = value column := by
  rw [Node.attribute?, attributes, lookup_zip_map value mem]
  rfl

theorem attributes_filled (identity : Identity) (given : Attributes) (first second : Int) :
    ((Node.stub identity first).overwritten given second).attributes =
      identity.label.attributeColumns.map fun column => given.lookup column := by
  simp only [Node.overwritten, Node.stub]
  apply List.ext_getElem
  · simp
  · intro index h h'
    have inside : index < identity.label.attributeColumns.length := by simpa using h'
    cases found : given.lookup identity.label.attributeColumns[index] <;> simp [found]

theorem mapM_refused {α β : Type} {f : α → Except Error β} {items : List α} {error : Error}
    (refused : items.mapM f = .error error) : ∃ item ∈ items, f item = .error error := by
  induction items with
  | nil => cases refused
  | cons item items ih =>
    rw [List.mapM_cons] at refused
    rcases except_bind_error refused with first | ⟨_, -, rest⟩
    · exact ⟨item, List.mem_cons_self, first⟩
    · rcases except_bind_error rest with others | ⟨_, -, done⟩
      · obtain ⟨other, mem, failed⟩ := ih others
        exact ⟨other, List.mem_cons_of_mem _ mem, failed⟩
      · cases done

theorem attributes_refused {request : NodeRequest} {label : Label} {error : Error}
    (refused : label.attributesOf isTooDeep request.attributes = .error error) :
    ∃ column value, request.attributes.lookup column = some value ∧
      column ∈ label.attributeColumns ∧
      Cell.ofJson isTooDeep label column value = .error error := by
  obtain ⟨⟨column, value⟩, mem, refused⟩ := mapM_refused refused
  obtain ⟨column, known, given⟩ := List.mem_filterMap.mp mem
  obtain ⟨value, asked, given⟩ := Option.map_eq_some_iff.mp given
  obtain ⟨rfl, rfl⟩ := Prod.mk.inj given
  rcases except_bind_error refused with refused | ⟨_, -, refused⟩
  · exact ⟨_, _, asked, known, refused⟩
  · cases refused

/-! Requests. -/

theorem request_ensure_apply {request : NodeRequest}
    (named : request.identity here = .ok identity) :
    request.ensure here graph =
      (ensureNode here identity graph).map fun (_, after) => (identity.id, after) := by
  rw [NodeRequest.ensure, write_bind_apply, write_lift_apply, named]
  change (ensureNode here identity >>= fun _ => pure identity.id : Write String) graph = _
  rw [write_bind_apply]
  cases ensureNode here identity graph <;> rfl

theorem request_upsert_apply {request : NodeRequest}
    (named : request.identity here = .ok identity) :
    request.upsert here graph =
      match identity.label.attributesOf (here.tooDeep .attribute) request.attributes with
      | .error error => .error error
      | .ok given => (upsert here identity given graph).map
        fun (created, after) => ((identity.id, created), after) := by
  rw [NodeRequest.upsert, write_bind_apply, write_lift_apply, named]
  change (liftM (identity.label.attributesOf (here.tooDeep .attribute) request.attributes) >>=
    fun given => do
      let created ← upsert here identity given
      return (identity.id, created) : Write (String × Bool)) graph = _
  rw [write_bind_apply, write_lift_apply]
  cases identity.label.attributesOf (here.tooDeep .attribute) request.attributes with
  | error error => rfl
  | ok given =>
    dsimp only
    change (upsert here identity given >>= fun created => pure (identity.id, created) :
      Write (String × Bool)) graph = _
    rw [write_bind_apply]
    cases upsert here identity given graph <;> rfl

theorem setNode_addNode {node last : Node}
    (absent : graph.node? last.label last.id = none) :
    (graph.addNode last).setNode last.label last.id node = graph.addNode node := by
  refine eq_of_lists ?_ rfl
  change (graph.nodes ++ [last]).map _ = graph.nodes ++ [node]
  rw [List.map_append]
  congr 1
  · refine (List.map_congr_left fun old mem => ?_).trans (List.map_id _)
    have apart : ¬ (old.label = last.label ∧ old.id = last.id) := fun same =>
      node?_eq_none.mp absent old mem same.1 same.2
    rw [if_neg (by simpa using apart), id]
  · simp

/-- A stub that is filled, compared with the node that is made at once: both stand at the end of the
same graph, written and under the same identity. The filled one holds what is given, the other one
also the missing values of all other columns. So they hold the same when all columns are given. -/
structure Filling (request : NodeRequest) (isTooDeep : Json → Bool) (identity : Identity)
    (filled made : Node) : Prop where
  filled_identity : filled.identity = identity ∧ filled.id = identity.id ∧ filled.isStub = false
  made_identity : made.identity = identity ∧ made.id = identity.id ∧ made.isStub = false
  filled_columns : ∀ column ∈ identity.label.attributeColumns,
    filled.attribute? column = request.given? isTooDeep identity.label column
  made_columns : ∀ column ∈ identity.label.attributeColumns, made.attribute? column =
    some ((request.given? isTooDeep identity.label column).getD (.missing identity.label column))
  same_iff : filled.timeless = made.timeless ↔
    ∀ column ∈ identity.label.attributeColumns,
      (request.given? isTooDeep identity.label column).isSome

theorem filling {request : NodeRequest} (first second alone : Int)
    (stored : identity.label.attributesOf isTooDeep request.attributes = .ok given) :
    Filling request isTooDeep identity ((Node.stub identity first).overwritten given second)
      (.created identity given alone) where
  filled_identity := ⟨rfl, rfl, rfl⟩
  made_identity := ⟨rfl, rfl, rfl⟩
  filled_columns column mem := by
    rw [attribute_of_columns (attributes_filled identity _ first second) mem,
      lookup_attributesOf stored mem]
  made_columns column mem := by
    rw [attribute_of_columns rfl mem]
    exact congrArg (fun value => some (Option.getD value _)) (lookup_attributesOf stored mem)
  same_iff := by
    have columns : ((Node.stub identity first).overwritten given second).timeless =
        (Node.created identity given alone).timeless ↔
        identity.label.attributeColumns.map (fun column => given.lookup column) =
          identity.label.attributeColumns.map fun column =>
            some ((given.lookup column).getD (.missing identity.label column)) := by
      rw [← attributes_filled identity given first second]
      constructor
      · exact fun same => congrArg Node.attributes same
      · intro same
        simp only [Node.timeless, Node.overwritten, Node.stub, Node.created] at same ⊢
        rw [same]
    rw [columns, List.map_inj_left]
    apply forall₂_congr
    intro column mem
    rw [lookup_attributesOf stored mem]
    cases request.given? isTooDeep identity.label column <;> simp

/-- Filling a stub is writing the node but for the columns that are not given: they stay open, where
a first write puts their missing values. When a value that is given has no stored form, neither of
the two is done, and why not is the same. -/
theorem stub_filled (request : NodeRequest) (graph : Graph) (first second alone : Int)
    (tooDeep : Place → Json → Bool)
    (named : Identity.ofFields (tooDeep .key) request.label request.key request.context =
      .ok identity)
    (absent : graph.hasNode identity.label identity.id = false) :
    ∃ stubbed, request.ensure { now := first, tooDeep } graph = .ok (identity.id, stubbed) ∧
      ((∃ filled made,
        request.upsert { now := second, tooDeep } stubbed =
          .ok ((identity.id, false), graph.addNode filled) ∧
        request.upsert { now := alone, tooDeep } graph =
          .ok ((identity.id, true), graph.addNode made) ∧
        Filling request (tooDeep .attribute) identity filled made) ∨
      ∃ column value error, request.attributes.lookup column = some value ∧
        column ∈ identity.label.attributeColumns ∧
        Cell.ofJson (tooDeep .attribute) identity.label column value = .error error ∧
        request.upsert { now := second, tooDeep } stubbed = .error error ∧
        request.upsert { now := alone, tooDeep } graph = .error error) := by
  let stub := Node.stub identity first
  have asked : ∀ now, request.identity { now, tooDeep } = .ok identity := fun _ => named
  have none : graph.node? identity.label identity.id = none :=
    Option.isNone_iff_eq_none.mp (Option.isSome_eq_false_iff.mp absent)
  have found : (graph.addNode stub).node? identity.label identity.id = some stub := by
    rw [node?_addNode, none]
    exact if_pos ⟨rfl, rfl⟩
  refine ⟨graph.addNode stub, ?_, ?_⟩
  · rw [request_ensure_apply (asked _), ensure_apply, absent]
    rfl
  cases stored : identity.label.attributesOf (tooDeep .attribute) request.attributes with
  | error error =>
    obtain ⟨column, value, meant, mem, refused⟩ := attributes_refused stored
    refine .inr ⟨column, value, error, meant, mem, refused, ?_, ?_⟩
    · rw [request_upsert_apply (asked _), stored]
    · rw [request_upsert_apply (asked _), stored]
  | ok given =>
    refine .inl ⟨_, _, ?_, ?_, filling first second alone stored⟩
    · rw [request_upsert_apply (asked _), stored]
      dsimp only
      rw [upsert_apply, found]
      change Except.ok ((identity.id, false), (graph.addNode stub).setNode stub.label stub.id _) = _
      rw [setNode_addNode none]
    · rw [request_upsert_apply (asked _), stored]
      dsimp only
      rw [upsert_apply, none]
      rfl

def card : NodeRequest where
  label := "ReactComponent"
  key := [("name", .text "Card"), ("language", .text "typescript")]
  attributes := [("component_type", .text "functional"), ("props", .list [.text "title"])]
  context := "default:main"

def cardIdentity : Identity := .named .component "Card" "typescript" "default:main"

/-- The body of the card stays open when its stub is filled; it is empty when made at once. -/
theorem card_filled :
    card.identity { now := 1 } = .ok cardIdentity ∧
    Graph.empty.hasNode cardIdentity.label cardIdentity.id = false ∧
    ∃ stubbed filled made,
      card.ensure { now := 1 } .empty = .ok (cardIdentity.id, stubbed) ∧
      card.upsert { now := 2 } stubbed =
        .ok ((cardIdentity.id, false), Graph.empty.addNode filled) ∧
      card.upsert { now := 2 } .empty = .ok ((cardIdentity.id, true), Graph.empty.addNode made) ∧
      filled.attribute? "body" = none ∧ made.attribute? "body" = some (.text "") := by
  obtain ⟨stubbed, ensured, ⟨filled, made, put, alone, columns⟩ | ⟨_, _, _, -, -, -, -, refused⟩⟩ :=
    stub_filled card .empty 1 2 2 (fun _ _ => false)
      (rfl : card.identity { now := 1 } = .ok cardIdentity) rfl
  · exact ⟨rfl, rfl, stubbed, filled, made, ensured, put, alone,
      columns.filled_columns "body" (by decide), columns.made_columns "body" (by decide)⟩
  · cases refused

/-- The two cards differ in more than their times, and one that is no stub has an open column. -/
theorem filled_card_stays_open :
    let first : Runs.Step := ⟨{ now := 1 }, .ensureNode card⟩
    let second : Runs.Step := ⟨{ now := 2 }, .upsert card⟩
    ¬ SameContent (Runs.run [first, second]) (Runs.run [second]) ∧
      ∃ node ∈ (Runs.run [first, second]).nodes, node.isStub = false ∧ none ∈ node.attributes := by
  decide +kernel

/-! Open columns. -/

/-- No node that was written has an open column. -/
def Whole (graph : Graph) : Prop :=
  ∀ node ∈ graph.nodes, node.isStub = false → none ∉ node.attributes

def KeepsWhole (before after : Graph) : Prop := Whole before → Whole after

theorem keeps_whole_chains : Chains KeepsWhole where
  refl _ := id
  trans first second := second ∘ first

theorem whole_of_nodes (nodes : after.nodes ⊆ graph.nodes) : KeepsWhole graph after :=
  fun whole node mem => whole node (nodes mem)

theorem Whole.addNode (h : Whole graph) {node : Node}
    (closed : node.isStub = false → none ∉ node.attributes) : Whole (graph.addNode node) := by
  intro other mem
  rcases List.mem_append.mp mem with mem | mem
  · exact h other mem
  · obtain rfl := List.mem_singleton.mp mem
    exact closed

theorem upsert_keeps_whole (covers : Covers given identity.label) :
    WriteMoves KeepsWhole (upsert here identity given) := by
  intro graph created after done whole
  rcases upsert_cases done with ⟨-, -, -, rfl⟩ | ⟨node, found, -, -, rfl⟩
  · exact whole.addNode fun _ => by simp [Node.created]
  · intro other mem
    rcases mem_setNode mem with rfl | ⟨mem, -⟩
    · intro _ inside
      obtain ⟨⟨column, old⟩, pair, nothing⟩ := List.mem_map.mp inside
      have known := (List.of_mem_zip pair).1
      rw [(node?_eq_some found).2.1] at known
      obtain ⟨value, is⟩ := Option.isSome_iff_exists.mp (covers column known)
      simp [is] at nothing
    · exact whole other mem

theorem ensure_keeps_whole (identity : Identity) :
    WriteMoves KeepsWhole (ensureNode here identity) := by
  intro graph created after done whole
  rcases ensure_cases done with ⟨-, -, rfl⟩ | ⟨-, -, -, rfl⟩
  · exact whole
  · exact whole.addNode fun written => by simp [Node.stub] at written

theorem link_keeps_whole (type : EdgeType) (source target : Endpoint) (context : String)
    (properties : Properties) :
    WriteMoves KeepsWhole (link here type source target context properties) := by
  intro graph value after done
  obtain ⟨-, -, -, rfl⟩ := link_cases done
  exact whole_of_nodes (by rw [nodes_joined]; exact List.Subset.refl _)

theorem bare_covers {label : Label} (bare : label.attributeColumns = []) : Covers [] label := by
  intro column mem
  rw [bare] at mem
  cases mem

end CodeAtlas.Graph

namespace CodeAtlas.Indexing

open CodeAtlas.Graph

variable {here : Conditions} {planned : PlannedWrite} {language context : String}

theorem element_keeps_whole {file : Identity}
    (covers : Covers planned.attributes planned.identity.label) :
    WriteMoves KeepsWhole (writeElement here file planned) :=
  keeps_whole_chains.write_bind (upsert_keeps_whole covers) fun _ => link_keeps_whole _ _ _ _ _

theorem function_keeps_whole (function : LooseFunction) :
    WriteMoves KeepsWhole (writeFunction here language context function) := by
  refine keeps_whole_chains.write_bind (upsert_keeps_whole ?_) fun _ => ?_
  · simp [Covers, Identity.named, Label.attributeColumns, List.lookup_cons]
  · by_cases loose : function.path.getD "" = ""
    · rw [if_pos loose]
      exact keeps_whole_chains.write_pure ()
    · rw [if_neg loose]
      exact keeps_whole_chains.write_bind (upsert_keeps_whole (bare_covers rfl)) fun _ =>
        link_keeps_whole _ _ _ _ _

theorem relationship_keeps_whole (relationship : Relations.Relationship) :
    WriteMoves KeepsWhole (Relations.writeRelationship here language context relationship) := by
  refine keeps_whole_chains.write_bind ?_ fun target => ?_
  · rintro graph ⟨target, created⟩ after done
    rcases Relations.resolve_cases done with ⟨_, -, -, -, rfl⟩ | ⟨-, -, -, fresh, ensured⟩
    · exact keeps_whole_chains.refl after
    · exact ensure_keeps_whole _ _ _ _ ensured
  · exact keeps_whole_chains.write_bind (link_keeps_whole _ _ _ _ _) fun _ =>
      keeps_whole_chains.write_pure _

theorem member_keeps_whole {api : Library.Api} {member : Label × String}
    (mem : member ∈ members api) (library : Identity) :
    WriteMoves KeepsWhole (writeMember here library member.1 member.2) := by
  refine keeps_whole_chains.write_bind (upsert_keeps_whole (bare_covers ?_)) fun _ =>
    link_keeps_whole _ _ _ _ _
  simp only [members, List.mem_append, List.mem_map] at mem
  rcases mem with ((((⟨_, -, rfl⟩ | ⟨_, -, rfl⟩) | ⟨_, -, rfl⟩) | ⟨_, -, rfl⟩) | ⟨_, -, rfl⟩) <;>
    rfl

theorem extract_keeps_whole (elements : Source.Elements) (language context : String) :
    SessionMoves KeepsWhole (Relations.extract here elements language context) :=
  keeps_whole_chains.attempts (fun _ _ => relationship_keeps_whole _) _

/-- All of indexing gives all columns. -/
theorem sessions_keep_whole (here : Conditions) : SessionsMove here KeepsWhole :=
  { keeps_whole_chains with
    elements := fun elements path language context => by
      refine keeps_whole_chains.session_bind (keeps_whole_chains.session_commit
        (upsert_keeps_whole (bare_covers rfl))) fun _ =>
          keeps_whole_chains.session_bind ?_ fun report => ?_
      · exact keeps_whole_chains.attempts
          (fun planned mem => element_keeps_whole (plan_covers mem)) _
      · exact keeps_whole_chains.session_bind (extract_keeps_whole _ _ _) fun _ =>
          keeps_whole_chains.session_pure _
    functions := fun functions language context =>
      keeps_whole_chains.session_bind
        (keeps_whole_chains.attempts (fun function _ => function_keeps_whole function) _) fun _ =>
          keeps_whole_chains.session_bind (extract_keeps_whole _ _ _) fun _ =>
            keeps_whole_chains.session_pure _
    library := fun api context projectPath => by
      refine keeps_whole_chains.session_bind (keeps_whole_chains.session_commit
        (upsert_keeps_whole ?_)) fun _ =>
          keeps_whole_chains.attempts (fun pair mem => member_keeps_whole mem _) _
      simp [Covers, Label.attributeColumns, List.lookup_cons] }

end CodeAtlas.Indexing

namespace CodeAtlas.Runs

open CodeAtlas.Graph

theorem indexed_run_whole {steps : List Step}
    (indexing : ∀ step ∈ steps, step.operation.IsIndexing) : Whole (run steps) :=
  run_invariant (by simp [Whole, Graph.empty]) fun step mem graph whole =>
    (Indexing.sessions_keep_whole step.here).operation (indexing step mem)
      (fun _ => whole_of_nodes fun _ inside => (mem_nodes_without.mp inside).1) whole

end CodeAtlas.Runs
