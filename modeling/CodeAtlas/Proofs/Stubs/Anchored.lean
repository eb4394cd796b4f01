import CodeAtlas.Proofs.Isolation.NonInterference
import CodeAtlas.Proofs.Stubs.Defined

/-! No stub dangles. A stub is made in the write that links to it, the node that the link begins at
was written before, and no later operation turns a written node back into a stub or removes one end
of an edge without the other. -/
namespace CodeAtlas.Graph

/-- Something that was written refers to the node. -/
def ReferredTo (graph : Graph) (node : Node) : Prop :=
  ∃ type ∈ Relations.references, ∃ source ∈ graph.nodes,
    source.isStub = false ∧ (type, source.id, node.id) ∈ graph.edges.map Edge.ends

def Anchored (graph : Graph) : Prop :=
  ∀ stub ∈ graph.nodes, stub.isStub = true →
    stub.label ∈ Relations.referable ∧ ReferredTo graph stub

variable {here : Conditions} {graph after : Graph} {node : Node} {language context : String}

theorem empty_anchored : Anchored .empty := by
  simp [Anchored, empty]

theorem ReferredTo.mono (h : ReferredTo graph node) (endures : Endures graph after) :
    ReferredTo after node := by
  obtain ⟨type, reference, source, mem, written, edge⟩ := h
  obtain ⟨now, mem, -, id, written⟩ := endures.defined ⟨source, mem, rfl, rfl, written⟩
  exact ⟨type, reference, now, mem, written, id ▸ endures.edges edge⟩

theorem Anchored.mono (h : Anchored graph) (endures : Endures graph after)
    (known : ∀ stub ∈ after.nodes, stub.isStub = true → stub ∈ graph.nodes) : Anchored after := by
  intro stub mem marked
  obtain ⟨label, referred⟩ := h stub (known stub mem marked) marked
  exact ⟨label, referred.mono endures⟩

theorem anchored_moves (here : Conditions) :
    ElementMoves here fun before after => Anchored before → Anchored after where
  refl _ h := h
  trans first second h := second (first h)
  upsert identity given proper graph created after done h := by
    refine h.mono ((endures_moves here).upsert identity given proper _ _ _ done) ?_
    intro stub mem marked
    rcases upsert_cases done with ⟨-, -, -, rfl⟩ | ⟨node, -, -, -, rfl⟩
    · rcases List.mem_append.mp mem with mem | mem
      · exact mem
      · obtain rfl := List.mem_singleton.mp mem
        cases marked
    · rcases mem_setNode mem with rfl | ⟨mem, -⟩
      · cases marked
      · exact mem
  link type source target context properties graph value after done h := by
    refine h.mono ((endures_moves here).link type source target context properties _ _ _ done) ?_
    obtain ⟨-, -, -, rfl⟩ := link_cases done
    intro stub mem _
    rwa [nodes_joined] at mem

theorem Anchored.linked (h : Anchored graph) {source target : Identity} {type : EdgeType}
    (defined : Defined graph source.label source.id) (label : target.label ∈ Relations.referable)
    (reference : type ∈ Relations.references) (now : Int) (context : String) :
    Anchored (joined here (graph.addNode (.stub target now)) type source.endpoint target.endpoint
      context []) := by
  have endures : Endures graph (joined here (graph.addNode (.stub target now)) type source.endpoint
      target.endpoint context []) :=
    (endures_moves here).trans (endures_addNode _) (endures_joined _ _ _ _ _)
  intro stub mem marked
  rw [nodes_joined] at mem
  rcases List.mem_append.mp mem with mem | mem
  · obtain ⟨label, referred⟩ := h stub mem marked
    exact ⟨label, referred.mono endures⟩
  · obtain rfl := List.mem_singleton.mp mem
    have begins := ((endures_addNode (.stub target now)).defined defined).hasNode
    have ends : (graph.addNode (.stub target now)).hasNode target.label target.id = true :=
      has_node_iff.mpr ⟨_, mem_addNode_self, rfl, rfl⟩
    obtain ⟨node, known, -, id, written⟩ := endures.defined defined
    exact ⟨label, type, reference, node, known, written,
      mem_ends_joined.mpr (.inr ⟨begins, ends, by rw [id]; rfl⟩)⟩

/-- A relationship that begins at a defined node leaves no stub behind that it does not end at. -/
theorem anchored_relationship {relationship : Relations.Relationship} {created : Bool}
    (kind : relationship.kind ∈ Relations.inferredKinds)
    (source : Defined graph relationship.sourceLabel (relationship.source language context).id)
    (h : Anchored graph)
    (done : Relations.writeRelationship here language context relationship graph =
      .ok (created, after)) : Anchored after := by
  obtain ⟨⟨target, fresh⟩, middle, resolved, done⟩ := write_bind done
  obtain ⟨_, last, linked, done⟩ := write_bind done
  obtain ⟨-, rfl⟩ := write_pure done
  rcases Relations.resolve_cases resolved with ⟨_, -, -, -, rfl⟩ | ⟨-, -, rfl, _, ensured⟩
  · exact (anchored_moves here).link _ _ _ _ _ _ _ _ linked h
  · rcases ensure_cases ensured with ⟨-, -, rfl⟩ | ⟨-, -, -, rfl⟩
    · exact (anchored_moves here).link _ _ _ _ _ _ _ _ linked h
    · obtain ⟨-, -, -, rfl⟩ := link_cases linked
      obtain ⟨label, reference⟩ := Relations.inferred_kinds_refer kind
      refine h.linked ?_ ?_ reference _ _
      · rwa [Relations.label_elementIdentity]
      · rwa [Relations.label_elementIdentity]

theorem Anchored.without {known : List Identity} (h : Anchored graph)
    (confined : Confined known graph) (context : String) : Anchored (graph.without context) := by
  intro stub mem marked
  obtain ⟨mem, outside⟩ := mem_nodes_without.mp mem
  obtain ⟨label, type, reference, source, inside, written, ends⟩ := h stub mem marked
  obtain ⟨edge, between, eq⟩ := List.mem_map.mp ends
  simp only [Edge.ends, Prod.mk.injEq] at eq
  -- the edge and its source are of the context of the stub, so no one of them goes alone
  have begins := confined.joined edge between source inside (.inl eq.2.1.symm)
  have apart : edge.context ≠ context := by
    rwa [← confined.joined edge between stub mem (.inr eq.2.2.symm)]
  have stays : edge ∈ (graph.without context).edges := by
    have kept : edge ∈ graph.edges.filter fun edge => edge.context ≠ context := by
      simpa using ⟨between, apart⟩
    rw [← (spares_without confined).edges] at kept
    exact List.mem_of_mem_filter kept
  exact ⟨label, type, reference, source, mem_nodes_without.mpr ⟨inside, begins ▸ apart⟩, written,
    List.mem_map.mpr ⟨edge, stays, by simp [Edge.ends, eq]⟩⟩

end CodeAtlas.Graph

namespace CodeAtlas.Indexing

open CodeAtlas.Graph
open CodeAtlas.Relations (infer)
open CodeAtlas.Source (Elements)

variable {here : Conditions} {graph : Graph} {language context : String}

theorem anchored_related {elements : Elements} (h : Anchored graph)
    (sources : ∀ relationship ∈ infer elements,
      Defined graph relationship.sourceLabel (relationship.source language context).id) :
    Anchored (tryRelated here elements language context graph).2 := by
  have items := items_tryAll (Relations.writeRelationship here language context) (infer elements)
    graph
  refine ((tried_tryAll (Relations.writeRelationship here language context) (infer elements)
    graph).invariant (P := fun graph => Anchored graph ∧ ∀ relationship ∈ infer elements,
      Defined graph relationship.sourceLabel (relationship.source language context).id)
    ⟨h, sources⟩ ?_).1
  rintro relationship mem graph created after ⟨h, sources⟩ done
  rw [items] at mem
  have kind := Relations.infer_kind mem
  have endures := (endures_moves here).indexes.relationship language context kind _ _ _ done
  exact ⟨anchored_relationship kind (sources relationship mem) h done,
    fun other mem => endures.defined (sources other mem)⟩

theorem anchored_sessions (here : Conditions) :
    SessionsMove here fun before after => Anchored before → Anchored after :=
  { anchored_moves here with
    elements := fun elements path language context graph h => by
      rw [index_elements_apply]
      cases put : upsert here (.file path context) [] graph with
      | error error => exact h
      | ok pair =>
        have file : (Identity.file path context).Proper := rfl
        have begun := (anchored_moves here).upsert _ _ file _ _ _ put h
        have tried := tried_tryAll (writeElement here (.file path context))
          (plan elements language context) pair.2
        have items := items_tryAll (writeElement here (.file path context))
          (plan elements language context) pair.2
        refine anchored_related (tried.invariant begun fun planned mem {_ _ _} h done => ?_)
          fun relationship mem => sources_defined tried items mem
        rw [items] at mem
        exact (anchored_moves here).element _ planned (plan_fits mem).proper _ _ _ done h
    functions := fun functions language context graph h => by
      rw [index_functions_apply]
      have tried := tried_tryAll (writeFunction here language context) functions graph
      have items := items_tryAll (writeFunction here language context) functions graph
      refine anchored_related (tried.invariant h fun function _ {_ _ _} h done => ?_)
        fun relationship mem => loose_sources_defined tried items mem
      exact (anchored_moves here).function language context function _ _ _ done h
    library := (anchored_moves here).library }

end CodeAtlas.Indexing

namespace CodeAtlas.Runs

open CodeAtlas.Graph

theorem Operation.IsIndexing.contextual {operation : Operation} (h : operation.IsIndexing) :
    operation.IsContextual := by
  cases operation with
  | upsert | ensureNode | link | transaction => exact h
  | _ => exact trivial

/-- After any run of indexing and emptying, under any faults, every stub is a function, a class or
an interface to which a written node of its context refers. -/
theorem stubs_referred_to (steps : List Step)
    (indexing : ∀ step ∈ steps, step.operation.IsIndexing)
    (free : CollisionFree (identities steps)) :
    ∀ stub ∈ (run steps).nodes, stub.isStub = true →
      stub.label ∈ [Label.function, .classDef, .interface] ∧
      ∃ edge ∈ (run steps).edges, edge.target = stub.id ∧
        edge.type ∈ [EdgeType.calls, .instantiates, .inherits, .implements] ∧
        ∃ source ∈ (run steps).nodes, source.id = edge.source ∧ source.isStub = false ∧
          source.context = stub.context := by
  have kept : Confined (identities steps) (run steps) ∧ Anchored (run steps) := by
    refine run_invariant (P := fun graph => Confined (identities steps) graph ∧ Anchored graph)
      ⟨empty_confined _, empty_anchored⟩ ?_
    rintro step mem graph ⟨confined, anchored⟩
    have occur : step.operation.identities step.here ⊆ identities steps :=
      fun identity inside => List.mem_flatMap.mpr ⟨step, mem, inside⟩
    refine ⟨step_confined (indexing step mem).contextual occur free confined, ?_⟩
    exact (Indexing.anchored_sessions step.here).operation (indexing step mem)
      (fun context h => h.without confined context) anchored
  obtain ⟨confined, anchored⟩ := kept
  intro stub mem marked
  obtain ⟨label, type, reference, source, inside, written, ends⟩ := anchored stub mem marked
  obtain ⟨edge, between, eq⟩ := List.mem_map.mp ends
  simp only [Edge.ends, Prod.mk.injEq] at eq
  obtain ⟨rfl, begins, ends⟩ := eq
  refine ⟨label, edge, between, ends, reference, source, inside, begins.symm, written, ?_⟩
  have same := confined.same_context between inside mem begins.symm ends.symm
  exact same.1.trans same.2.symm

def halfWritten : List Step :=
  [⟨{ now := 1, faults := [.create .function (some "broken")] },
    .indexFunctions [⟨"broken", "{ lost() }", none⟩, ⟨"caller", "{ missing() }", none⟩] "python"
      none none⟩]

/-- What the refused function calls leaves no stub, what the other calls leaves one. -/
theorem missing_referred_to :
    (∀ node ∈ (run halfWritten).nodes, node.displayName ≠ "lost") ∧
    ∃ stub ∈ (run halfWritten).nodes, stub.isStub = true ∧ stub.displayName = "missing" ∧
      ∃ edge ∈ (run halfWritten).edges, edge.target = stub.id ∧
        edge.type ∈ [EdgeType.calls, .instantiates, .inherits, .implements] ∧
        ∃ source ∈ (run halfWritten).nodes, source.id = edge.source ∧ source.isStub = false ∧
          source.context = stub.context := by
  obtain ⟨lost, ⟨stub, mem, marked, name⟩, free⟩ :
      (∀ node ∈ (run halfWritten).nodes, node.displayName ≠ "lost") ∧
      (∃ stub ∈ (run halfWritten).nodes, stub.isStub = true ∧ stub.displayName = "missing") ∧
      CollisionFree (identities halfWritten) := by
    decide +kernel
  exact ⟨lost, stub, mem, marked, name, (stubs_referred_to halfWritten
    (by simp [halfWritten, Operation.IsIndexing]) free stub mem marked).2⟩

end CodeAtlas.Runs
