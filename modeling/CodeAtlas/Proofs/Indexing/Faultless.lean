import CodeAtlas.Proofs.Graph.Rows
import CodeAtlas.Proofs.Indexing.Itemised

/-! Indexing in a store that refuses nothing. Every element and every relationship of a file can be
written then, whatever the graph is, so that nothing is listed as failed. -/
namespace CodeAtlas.Indexing

open CodeAtlas.Graph
open CodeAtlas.Relations (Relationship infer writeRelationship resolveTarget knownTarget?
  elementIdentity)
open CodeAtlas.Source (Elements)

variable {here : Conditions} {graph other : Graph} {elements : Elements}
  {labels : Label → Prop} {types : EdgeType → Prop} {language context : String}

theorem known_target_same (h : SameRows labels types graph other) {label : Label}
    (inside : labels label) (name language context : String) :
    knownTarget? graph label name language context =
      knownTarget? other label name language context := by
  rw [knownTarget?, knownTarget?, h.node? inside, Relations.targetNode?, Relations.targetNode?,
    nodesWith_eq_labelled, nodesWith_eq_labelled, h.nodes label inside]

def isSuccess : Except Error Report → Bool
  | .ok report => report.success
  | .error _ => false

section Faultless

variable (faultless : here.faults = [])

include faultless

theorem resolve_both {label : Label} (inside : labels label) (name language context : String) :
    Both (SameRows labels types) (resolveTarget here label name language context)
      (resolveTarget here label name language context) := by
  intro graph other alike
  rw [Relations.resolve_apply, Relations.resolve_apply, known_target_same alike inside]
  cases knownTarget? other label name language context with
  | some node => exact ⟨_, _, _, rfl, rfl, alike⟩
  | none =>
    have labelled := Relations.label_elementIdentity label name language context
    obtain ⟨created, after, after', done, done', alike⟩ :=
      ensure_both faultless (elementIdentity label name language context)
        (labelled.symm ▸ inside) graph other alike
    simp only [done, done']
    exact ⟨_, _, _, rfl, rfl, alike⟩

theorem relationship_both {relationship : Relationship}
    (kind : relationship.kind ∈ Relations.inferredKinds) (begins : labels relationship.sourceLabel)
    (ends : labels relationship.targetLabel) (between : types relationship.type) :
    Both (SameRows labels types) (writeRelationship here language context relationship)
      (writeRelationship here language context relationship) := by
  refine (resolve_both faultless ends _ _ _).bind fun {_ resolved _} done => ?_
  have label : resolved.1.label = relationship.targetLabel := Relations.target_label done
  have source := Relations.label_elementIdentity relationship.sourceLabel relationship.sourceName
    language context
  refine (link_both faultless ?_ (List.forall_mem_nil _) ?_ (label ▸ ends) between context).bind
    fun _ => both_pure _
  · rw [label, Identity.endpoint, source]
    exact Relations.inferred_kinds_fit kind
  · rw [Identity.endpoint, source]
    exact begins

theorem element_both {planned : PlannedWrite}
    (among : planned ∈ plan elements language context) (path : String) :
    Both SameTables (writeElement here (.file path context) planned)
      (writeElement here (.file path context) planned) :=
  (upsert_both faultless planned.identity planned.attributes trivial).bind fun _ =>
    link_both faultless (plan_fits among).edge (plan_properties among) trivial trivial trivial
      planned.identity.context

theorem plan_clean (elements : Elements) (path language context : String) (graph : Graph) :
    failed (tryPlan here elements path language context graph).1 = [] :=
  (Both.batch (fun _ among => element_both faultless among path) (SameRows.refl graph)).clean

theorem related_clean (elements : Elements) (language context : String) (graph : Graph) :
    failed (tryRelated here elements language context graph).1 = [] := by
  have each : ∀ relationship ∈ infer elements, Both SameTables
      (writeRelationship here language context relationship)
      (writeRelationship here language context relationship) := fun relationship mem =>
    relationship_both faultless (Relations.infer_kind mem) trivial trivial trivial
  exact (Both.batch each (SameRows.refl graph)).clean

/-- Where nothing is refused indexing has no failures. -/
theorem index_elements_faultless (elements : Elements) (path language context : String)
    (graph : Graph) :
    isSuccess (indexElements here elements path language context graph).1 = true := by
  obtain ⟨created, begun, put⟩ := upsert_answers faultless (.file path context) [] graph
  rw [index_elements_apply, put]
  dsimp only
  rw [isSuccess, Report.success, List.isEmpty_iff, reported_elements, reported_failures]
  exact ⟨plan_clean faultless elements path language context begun,
    related_clean faultless _ language context _⟩

end Faultless

end CodeAtlas.Indexing
