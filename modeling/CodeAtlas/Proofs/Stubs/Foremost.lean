import CodeAtlas.Proofs.History.Courses
import CodeAtlas.Proofs.Stubs.Defined
import CodeAtlas.Proofs.WellFormed

/-! Stubs among their namesakes. References find nodes by name, whatever the language, while a node
is written under its name and its language. So no stub is made next to a node that a reference could
have found, and writing an element fills the stub of its own language; a stub of another language
stays, and is then the oldest node of its name. -/
namespace CodeAtlas.Graph

def Node.Namesake (node other : Node) : Prop :=
  node.label = other.label ∧ node.context = other.context ∧
    node.displayName = other.displayName

instance (node other : Node) : Decidable (node.Namesake other) :=
  inferInstanceAs (Decidable (_ ∧ _ ∧ _))

/-- A reference ends at a stub although a namesake of the stub was written. -/
def Shadowed (graph : Graph) (edge : Edge) : Prop :=
  edge.type ∈ [EdgeType.calls, .instantiates, .inherits] ∧
    ∃ stub ∈ graph.nodes, stub.id = edge.target ∧ stub.isStub = true ∧
      ∃ definition ∈ graph.nodes, definition.isStub = false ∧ definition.Namesake stub

instance (graph : Graph) (edge : Edge) : Decidable (Shadowed graph edge) :=
  inferInstanceAs (Decidable (_ ∧ ∃ stub ∈ graph.nodes, _ ∧ _ ∧ ∃ definition ∈ graph.nodes, _ ∧ _))

def namesakes (graph : Graph) (label : Label) (context name : String) : List Node :=
  (graph.nodesWith label context).filter fun node => node.displayName = name

/-- No stub has an older namesake. Interfaces are left out, since their name identifies them. -/
def Foremost (graph : Graph) : Prop :=
  graph.nodes.Pairwise fun earlier later =>
    later.label ≠ .interface → earlier.Namesake later → later.isStub = false

variable {here : Conditions} {graph : Graph} {node : Node}

theorem empty_foremost : Foremost .empty := List.Pairwise.nil

theorem Foremost.addNode (h : Foremost graph) (first : node.label ≠ .interface →
    node.isStub = true → ∀ other ∈ graph.nodes, ¬ other.Namesake node) :
    Foremost (graph.addNode node) := by
  refine List.pairwise_append.mpr ⟨h, List.pairwise_singleton _ _, ?_⟩
  intro earlier mem later new named same
  obtain rfl := List.mem_singleton.mp new
  by_contra marked
  exact first named (by simpa using marked) earlier mem same

theorem Foremost.setNode (h : Foremost graph) (wf : WellFormed graph) {label : Label} {id : String}
    (found : graph.node? label id = some node) (given : Attributes) (now : Int) :
    Foremost (graph.setNode label id (node.overwritten given now)) := by
  obtain ⟨known, labels, ids⟩ := node?_eq_some found
  have kept : ∀ old ∈ graph.nodes,
      let after := if old.label = label && old.id = id then node.overwritten given now else old
      after.label = old.label ∧ after.context = old.context ∧
        after.displayName = old.displayName ∧ (old.isStub = false → after.isStub = false) := by
    intro old mem
    by_cases hit : old.label = label ∧ old.id = id
    · obtain rfl := wf.eq_of_id mem known (hit.2.trans ids.symm)
      rw [if_pos (by simpa using hit)]
      exact ⟨rfl, rfl, rfl, fun _ => rfl⟩
    · rw [if_neg (by simpa using hit)]
      exact ⟨rfl, rfl, rfl, fun written => written⟩
  refine List.pairwise_map.mpr (h.imp_of_mem ?_)
  intro earlier later mem mem' foremost named same
  obtain ⟨label, context, name, -⟩ := kept earlier mem
  obtain ⟨label', context', name', written⟩ := kept later mem'
  simp only [Node.Namesake, label, context, name, label', context', name'] at same named
  exact written (foremost named same)

theorem foremost_moves (here : Conditions) : IndexMoves here fun before after =>
    WellFormed before ∧ Foremost before → WellFormed after ∧ Foremost after where
  refl _ h := h
  trans first second h := second (first h)
  upsert identity given proper graph created after done h := by
    refine ⟨(well_formed_moves here).upsert identity given proper _ _ _ done h.1, ?_⟩
    rcases upsert_cases done with ⟨-, -, -, rfl⟩ | ⟨node, found, -, -, rfl⟩
    · exact h.2.addNode fun _ marked => by cases marked
    · exact h.2.setNode h.1 found given here.now
  link type source target context properties graph value after done h := by
    refine ⟨(well_formed_moves here).link type source target context properties _ _ _ done h.1, ?_⟩
    obtain ⟨-, -, -, rfl⟩ := link_cases done
    rw [Foremost, nodes_joined]
    exact h.2
  resolve label name language context proper graph result after done h := by
    refine ⟨(well_formed_moves here).resolve_target _ _ _ _ proper _ _ _ done h.1, ?_⟩
    obtain ⟨target, created⟩ := result
    rcases Relations.resolve_cases done with ⟨_, -, -, -, rfl⟩ | ⟨unknown, -, -, _, ensured⟩
    · exact h.2
    rcases ensure_cases ensured with ⟨-, -, rfl⟩ | ⟨-, -, -, rfl⟩
    · exact h.2
    · refine h.2.addNode fun named _ other mem same => ?_
      have stub : (Relations.elementIdentity label name language context).key.headD "" = name := by
        unfold Relations.elementIdentity
        split_ifs <;> rfl
      have labelled := same.1.trans (Relations.label_elementIdentity label name language context)
      have inside :=
        same.2.1.trans (Relations.context_elementIdentity label name language context)
      rw [Node.stub, Relations.label_elementIdentity] at named
      exact Relations.target_unknown named unknown mem labelled inside (same.2.2.trans stub)

theorem Foremost.without (h : Foremost graph) (context : String) :
    Foremost (graph.without context) :=
  h.filter _

theorem mem_namesakes {label : Label} {context name : String} :
    node ∈ namesakes graph label context name ↔ node ∈ graph.nodes ∧ node.label = label ∧
      node.context = context ∧ node.displayName = name := by
  simp [namesakes, mem_nodesWith, and_assoc]

theorem Foremost.head? (h : Foremost graph) (mem : node ∈ graph.nodes) (marked : node.isStub = true)
    (named : node.label ≠ .interface) :
    (namesakes graph node.label node.context node.displayName).head? = some node := by
  have listed : node ∈ namesakes graph node.label node.context node.displayName :=
    mem_namesakes.mpr ⟨mem, rfl, rfl, rfl⟩
  have ordered : (namesakes graph node.label node.context node.displayName).Pairwise _ :=
    (h.filter _).filter _
  cases all : namesakes graph node.label node.context node.displayName with
  | nil => simp [all] at listed
  | cons first rest =>
    -- were another namesake first, the stub behind it would be written
    have oldest : first ∈ namesakes graph node.label node.context node.displayName :=
      all ▸ List.mem_cons_self
    rw [all] at listed ordered
    rcases List.mem_cons.mp listed with rfl | later
    · rfl
    · have written := (List.pairwise_cons.mp ordered).1 node later named (mem_namesakes.mp oldest).2
      simp [written] at marked

/-- A stub and a written namesake differ in their language. -/
theorem WellFormed.namesake_language (h : WellFormed graph) {other : Node}
    (mem : node ∈ graph.nodes) (mem' : other ∈ graph.nodes) (same : other.Namesake node)
    (columns : node.label.keyColumns = ["name", "language"]) (ne : node.isStub ≠ other.isStub) :
    node.language ≠ other.language := by
  intro languages
  have keys : node.key = other.key := by
    rw [key_of_shown columns (h.keyed node mem),
      key_of_shown (same.1 ▸ columns) (h.keyed other mem'), languages, same.2.2]
  have identities : node.identity = other.identity := by
    rw [Node.identity, Node.identity, keys, same.1, same.2.1]
  obtain rfl := h.eq_of_id mem mem'
    ((h.named node mem).trans (identities ▸ (h.named other mem').symm))
  exact ne rfl

end CodeAtlas.Graph

namespace CodeAtlas.Runs

open CodeAtlas.Graph

variable {here : Conditions} {graph : Graph} {operation : Operation} {identity : Identity}
  {body : String}

theorem run_foremost {steps : List Step} (indexing : ∀ step ∈ steps, step.operation.IsIndexing) :
    WellFormed (run steps) ∧ Foremost (run steps) := by
  refine run_invariant (P := fun graph => WellFormed graph ∧ Foremost graph)
    ⟨empty_well_formed, empty_foremost⟩ fun step mem graph h => ?_
  exact (foremost_moves step.here).sessions.operation (indexing step mem)
    (fun context h => ⟨h.1.without context, h.2.without context⟩) h

theorem elements_event_endures {elements : Source.Elements} {path language context : String}
    (h : .element identity body ∈ fileEvents here elements path language context graph) :
    Endures graph (Indexing.indexElements here elements path language context graph).2 ∧
      Defined (Indexing.indexElements here elements path language context graph).2 identity.label
        identity.id := by
  rcases file_event_cases h with event | ⟨created, begun, planned, put, mem, event⟩
  · cases event
  · obtain ⟨rfl, -⟩ := planned_of_event event
    exact Indexing.elements_endure put mem

theorem functions_event_endures {functions : List Indexing.LooseFunction}
    {language context : String}
    (h : .element identity body ∈ functionEvents here functions language context graph) :
    Endures graph (Indexing.indexFunctions here functions language context graph).2 ∧
      Defined (Indexing.indexFunctions here functions language context graph).2 identity.label
        identity.id := by
  obtain ⟨function, mem, event⟩ := List.mem_flatMap.mp h
  rw [loose_of_event event]
  exact Indexing.functions_endure mem

theorem course_event_endures {course : Course}
    (h : .element identity body ∈ course.events here graph) :
    Endures graph (course.after here graph) ∧
      Defined (course.after here graph) identity.label identity.id := by
  cases course with
  | elements => exact elements_event_endures h
  | functions => exact functions_event_endures h
  | unchanged | library | names | extract => cases h
  | emptied => simp [Course.events] at h

theorem element_event_endures (h : .element identity body ∈ operation.events here graph) :
    Endures graph (operation.on here graph).2 ∧
      Defined (operation.on here graph).2 identity.label identity.id := by
  by_cases contextual : operation.IsContextual
  · obtain ⟨course, follows⟩ := operation_course contextual here graph
    rw [follows.events] at h
    rw [follows.after]
    exact course_event_endures h
  · cases operation with
    | upsert | ensureNode | link | transaction => cases h
    | _ => exact absurd trivial contextual

/-- A stub that has a written namesake is of another language and older than it. Writing an element
in the language of its stub fills the stub: every edge that ended there is kept and ends at a
written node. -/
theorem stubs_older_than_namesakes (steps : List Step)
    (indexing : ∀ step ∈ steps, step.operation.IsIndexing) :
    (∀ stub ∈ (run steps).nodes, ∀ definition ∈ (run steps).nodes, stub.label ∈ compared →
      stub.isStub = true → definition.isStub = false → definition.Namesake stub →
        stub.language ≠ definition.language ∧
        (namesakes (run steps) stub.label stub.context stub.displayName).head? = some stub) ∧
    (∀ (here : Conditions) (operation : Operation) (identity : Identity) (body : String),
      .element identity body ∈ operation.events here (run steps) →
        let after := (operation.on here (run steps)).2
        (∃ node ∈ after.nodes, node.label = identity.label ∧ node.id = identity.id ∧
          node.isStub = false) ∧
        (∀ stub ∈ after.nodes, stub.isStub = true → stub.id ≠ identity.id) ∧
        ∀ edge ∈ (run steps).edges, edge.target = identity.id →
          edge.ends ∈ after.edges.map Edge.ends) := by
  obtain ⟨wf, foremost⟩ := run_foremost indexing
  constructor
  · intro stub mem definition mem' labelled marked written same
    have columns : stub.label.keyColumns = ["name", "language"] ∧ stub.label ≠ .interface := by
      simp only [compared, List.mem_cons, List.not_mem_nil, or_false] at labelled
      rcases labelled with labelled | labelled <;> simp [labelled, Label.keyColumns]
    refine ⟨wf.namesake_language mem mem' same columns.1 ?_, foremost.head? mem marked columns.2⟩
    simp [marked, written]
  · intro here operation identity body event after
    obtain ⟨endures, node, mem, label, id, written⟩ := element_event_endures event
    have wf' : WellFormed after := step_well_formed ⟨here, operation⟩ wf
    refine ⟨⟨node, mem, label, id, written⟩, fun stub mem' marked same => ?_, fun edge mem' _ => ?_⟩
    · obtain rfl := wf'.eq_of_id mem' mem (same.trans id.symm)
      simp [written] at marked
    · exact endures.edges (List.mem_map_of_mem mem')

def calledElsewhere : List Step :=
  [⟨{ now := 1 }, .indexElements { functions := [⟨"caller", "{ util(); }"⟩] } "a.ts" "typescript"
      none none⟩,
    ⟨{ now := 2 }, .indexElements { functions := [⟨"util", "{}"⟩] } "b.js" "javascript" none none⟩]

def calledHere : Operation :=
  .indexElements { functions := [⟨"util", "{}"⟩] } "c.ts" "typescript" none none

theorem called_elsewhere_indexing : ∀ step ∈ calledElsewhere, step.operation.IsIndexing := by
  simp [calledElsewhere, Operation.IsIndexing]

theorem called_elsewhere_left :
    (∃ stub ∈ (run calledElsewhere).nodes, ∃ definition ∈ (run calledElsewhere).nodes,
      stub.label ∈ compared ∧ stub.isStub = true ∧ definition.isStub = false ∧
        definition.Namesake stub) ∧
    (∃ edge ∈ (run calledElsewhere).edges, Shadowed (run calledElsewhere) edge) ∧
    .element (.named .function "util" "typescript" "default:main") "{}" ∈
      calledHere.events { now := 3 } (run calledElsewhere) := by
  decide +kernel

/-- The stub and the function differ in their language, and writing the function in the language of
the call fills the stub. -/
theorem call_resolved_here :
    (∃ stub ∈ (run calledElsewhere).nodes, ∃ definition ∈ (run calledElsewhere).nodes,
      definition.Namesake stub ∧ stub.isStub = true ∧ definition.isStub = false ∧
        stub.language ≠ definition.language) ∧
    ∃ node ∈ (calledHere.on { now := 3 } (run calledElsewhere)).2.nodes, node.label = .function ∧
      node.id = (Identity.named .function "util" "typescript" "default:main").id ∧
        node.isStub = false := by
  obtain ⟨older, filled⟩ := stubs_older_than_namesakes calledElsewhere called_elsewhere_indexing
  obtain ⟨⟨stub, mem, definition, mem', label, marked, written, same⟩, -, event⟩ :=
    called_elsewhere_left
  constructor
  · exact ⟨stub, mem, definition, mem', same, marked, written,
      (older stub mem definition mem' label marked written same).1⟩
  · exact (filled { now := 3 } calledHere (.named .function "util" "typescript" "default:main") "{}"
      event).1

/-- The call keeps ending at the stub of its own language. -/
theorem call_shadowed :
    ¬ ∀ steps : List Step, (∀ step ∈ steps, step.operation.IsIndexing) →
      ∀ edge ∈ (run steps).edges, ¬ Shadowed (run steps) edge := by
  intro clear
  obtain ⟨-, ⟨edge, mem, shadowed⟩, -⟩ := called_elsewhere_left
  exact clear calledElsewhere called_elsewhere_indexing edge mem shadowed

end CodeAtlas.Runs
