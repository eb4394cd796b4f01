import CodeAtlas.Proofs.Graph.Content
import CodeAtlas.Proofs.History.FileDiff

/-! What a file contains after it was indexed: what it contained before and what was planned for it.
Nothing is assumed of the edges that were there before, so this also holds of graphs in which links
by bare ids have joined several contexts. -/
namespace CodeAtlas.Indexing

open CodeAtlas.Graph
open CodeAtlas.Relations (inferredKinds)
open CodeAtlas.Source (Elements)

/-- What is added to a graph: nodes of known identities, and in files what stands for a known
identity of their context. -/
structure Extends (known : List Identity) (before after : Graph) : Prop where
  identities : after.nodes.map Node.identity ⊆ before.nodes.map Node.identity ++ known
  holdings : ∀ source target, (.contains, source, target) ∈ after.edges.map Edge.ends →
    (.contains, source, target) ∈ before.edges.map Edge.ends ∨
      ∃ holder ∈ known, ∃ held ∈ known,
        held.context = holder.context ∧ source = holder.id ∧ target = held.id

def ContainsOwn (graph : Graph) (path context : String) : Prop :=
  ∀ label ∈ Runs.compared,
    ∀ node ∈ Review.contained graph (Identity.file path context).id label, node.context = context

instance (graph : Graph) (path context : String) : Decidable (ContainsOwn graph path context) :=
  inferInstanceAs (Decidable (∀ label ∈ Runs.compared, ∀ node ∈ Review.contained _ _ label, _))

variable {here : Conditions} {known : List Identity} {before after : Graph} {elements : Elements}
  {path language context : String} {label : Label}

theorem extends_chains : Chains (Extends known) where
  refl graph := ⟨List.subset_append_left _ _, fun _ _ mem => .inl mem⟩
  trans first second :=
    { identities := fun identity mem => by
        rcases List.mem_append.mp (second.identities mem) with old | new
        · exact first.identities old
        · exact List.mem_append_right _ new
      holdings := fun source target mem =>
        (second.holdings source target mem).elim (first.holdings source target) .inr }

/-! The primitive writes. -/

theorem extends_addNode {node : Node} (occurs : node.identity ∈ known) :
    Extends known before (before.addNode node) where
  identities identity mem := by
    obtain ⟨other, inside, rfl⟩ := List.mem_map.mp mem
    rcases List.mem_append.mp inside with inside | inside
    · exact List.mem_append_left _ (List.mem_map_of_mem inside)
    · rw [List.mem_singleton.mp inside]
      exact List.mem_append_right _ occurs
  holdings _ _ mem := .inl mem

theorem upsert_extends {identity : Identity} (occurs : identity ∈ known) (given : Attributes) :
    WriteMoves (Extends known) (upsert here identity given) := by
  intro graph created after done
  rcases upsert_cases done with ⟨-, -, -, rfl⟩ | ⟨node, found, -, -, rfl⟩
  · exact extends_addNode occurs
  · refine ⟨fun identity mem => List.mem_append_left _ ?_, fun _ _ mem => .inl mem⟩
    obtain ⟨other, inside, rfl⟩ := List.mem_map.mp mem
    rcases mem_setNode inside with rfl | ⟨inside, -⟩
    · exact List.mem_map.mpr ⟨node, (node?_eq_some found).1, rfl⟩
    · exact List.mem_map_of_mem inside

theorem resolve_extends {name : String}
    (occurs : Relations.elementIdentity label name language context ∈ known) :
    WriteMoves (Extends known) (Relations.resolveTarget here label name language context) := by
  rintro graph ⟨target, created⟩ after done
  rcases Relations.resolve_cases done with ⟨_, -, -, -, rfl⟩ | ⟨-, -, -, fresh, ensured⟩
  · exact extends_chains.refl after
  · rcases ensure_cases ensured with ⟨-, -, rfl⟩ | ⟨-, -, -, rfl⟩
    · exact extends_chains.refl after
    · exact extends_addNode occurs

theorem link_extends {type : EdgeType} {source target : Endpoint} {properties : Properties}
    (told : type = .contains → ∃ holder ∈ known, ∃ held ∈ known,
      held.context = holder.context ∧ source.id = holder.id ∧ target.id = held.id) :
    WriteMoves (Extends known) (link here type source target context properties) := by
  intro graph value after done
  obtain ⟨-, -, -, rfl⟩ := link_cases done
  refine ⟨?_, fun sourceId targetId mem => ?_⟩
  · rw [nodes_joined]
    exact List.subset_append_left _ _
  · rcases mem_ends_joined.mp mem with old | ⟨-, -, same⟩
    · exact .inl old
    · obtain ⟨rfl, rfl, rfl⟩ : .contains = type ∧ sourceId = source.id ∧ targetId = target.id := by
        simpa using same
      exact .inr (told rfl)

/-! Indexing a file. -/

theorem element_extends {file : Identity} {planned : PlannedWrite} (filed : file ∈ known)
    (occurs : planned.identity ∈ known) (same : planned.identity.context = file.context) :
    WriteMoves (Extends known) (writeElement here file planned) := by
  refine extends_chains.write_bind (upsert_extends occurs _) fun _ => link_extends fun _ => ?_
  exact ⟨file, filed, planned.identity, occurs, same, rfl, rfl⟩

theorem relationship_extends {relationship : Relations.Relationship}
    (kind : relationship.kind ∈ inferredKinds)
    (occurs : relationship.target language context ∈ known) :
    WriteMoves (Extends known)
      (Relations.writeRelationship here language context relationship) := by
  have other : relationship.type ≠ .contains := by
    intro type
    simp [Relations.Relationship.kind, inferredKinds, type] at kind
  refine extends_chains.write_bind (resolve_extends occurs) fun _ => ?_
  exact extends_chains.write_bind (link_extends fun type => absurd type other) fun _ =>
    extends_chains.write_pure _

theorem elements_extend (occur : fileIdentities elements path language context ⊆ known) :
    SessionMoves (Extends known) (indexElements here elements path language context) := by
  have filed : Identity.file path context ∈ known := occur List.mem_cons_self
  refine extends_chains.session_bind (extends_chains.session_commit (upsert_extends filed _))
    fun _ => extends_chains.session_bind ?_ fun report => ?_
  · refine extends_chains.attempts (fun planned mem => ?_) _
    refine element_extends filed (occur (List.mem_append_left _ ?_)) (plan_fits mem).context
    exact List.mem_cons_of_mem _ (List.mem_map_of_mem mem)
  · refine extends_chains.session_bind (extends_chains.attempts (fun relationship mem => ?_) _)
      fun _ => extends_chains.session_pure _
    refine relationship_extends (Relations.infer_kind mem) (occur (List.mem_append_right _ ?_))
    refine Relations.end_identities_mono ?_ ?_ (List.mem_flatMap.mpr ⟨relationship, mem, by simp⟩)
      <;> exact List.filter_subset_self _

theorem Extends.contains_own (h : Extends known before after)
    (free : CollisionFree (before.nodes.map Node.identity ++ known))
    (wellFormed : WellFormed before) (wellFormed' : WellFormed after)
    (filed : Identity.file path context ∈ known) (own : ContainsOwn before path context) :
    ContainsOwn after path context := by
  intro label labelled node mem
  obtain ⟨edge, known, found⟩ := List.mem_filterMap.mp mem
  split_ifs at found with contains
  rw [Bool.and_eq_true, decide_eq_true_eq, decide_eq_true_eq] at contains
  obtain ⟨inside, labels, id⟩ := node?_eq_some found
  have occurs := h.identities (List.mem_map_of_mem inside)
  have named := (wellFormed'.named node inside).symm.trans id
  have ends : (EdgeType.contains, (Identity.file path context).id, edge.target) ∈
      after.edges.map Edge.ends :=
    List.mem_map.mpr ⟨edge, known, by simp [Edge.ends, contains]⟩
  rcases h.holdings _ _ ends with old | ⟨holder, inside', held, inside'', context', source, target⟩
  · obtain ⟨other, known', same⟩ := List.mem_map.mp old
    obtain ⟨-, -, node', inside', -, target, -⟩ := wellFormed.connected other known'
    simp only [Edge.ends, Prod.mk.injEq] at same
    have target : node'.id = edge.target := target.trans same.2.2
    have identity : node.identity = node'.identity :=
      free.eq_of_id occurs (List.mem_append_left _ (List.mem_map_of_mem inside'))
        (named.trans (target.symm.trans (wellFormed.named node' inside')))
    have labels' : node'.label = label := (congrArg Identity.label identity).symm.trans labels
    have found' : before.node? label edge.target = some node' := by
      rw [← labels', ← target]
      exact wellFormed.node?_eq inside'
    exact (congrArg Identity.context identity).trans
      (own label labelled node' (Runs.mem_contained old found'))
  · have identity : node.identity = held :=
      free.eq_of_id occurs (List.mem_append_right _ inside'') (named.trans target)
    have file : holder = .file path context :=
      free.eq_of_id (List.mem_append_right _ inside') (List.mem_append_right _ filed) source.symm
    exact (congrArg Identity.context identity).trans (context'.trans (congrArg _ file))

end CodeAtlas.Indexing
