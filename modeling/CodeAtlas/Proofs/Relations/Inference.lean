import CodeAtlas.Relations.Extraction
import CodeAtlas.Proofs.Distinct
import CodeAtlas.Proofs.Graph.Identity

/-! What inference can propose: four kinds of edges, each from an element of the given ones, so
fewer elements never lead to other relationships. -/
namespace CodeAtlas.Relations

open CodeAtlas.Graph (EdgeType Identity Label)
open CodeAtlas.Source (ClassElement Elements FunctionElement)

def inferredKinds : List (EdgeType × Label × Label) :=
  [(.calls, .function, .function), (.instantiates, .function, .classDef),
    (.inherits, .classDef, .classDef), (.implements, .classDef, .interface)]

/-- The labels of elements that can be referred to before they are written. -/
def referable : List Label := [.function, .classDef, .interface]

def references : List EdgeType := [.calls, .instantiates, .inherits, .implements]

def Relationship.kind (relationship : Relationship) : EdgeType × Label × Label :=
  (relationship.type, relationship.sourceLabel, relationship.targetLabel)

theorem of_function_shape {element : FunctionElement} {relationship : Relationship}
    (h : relationship ∈ ofFunction element) :
    relationship.sourceLabel = .function ∧ relationship.sourceName = element.name ∧
      relationship.kind ∈ inferredKinds := by
  rcases List.mem_append.mp h with h | h
  · obtain ⟨name, -, rfl⟩ := List.mem_map.mp h
    exact ⟨rfl, rfl, by simp [Relationship.kind, inferredKinds]⟩
  · obtain ⟨name, -, rfl⟩ := List.mem_map.mp h
    exact ⟨rfl, rfl, by simp [Relationship.kind, inferredKinds]⟩

theorem of_class_shape {element : ClassElement} {relationship : Relationship}
    (h : relationship ∈ ofClass element) :
    relationship.sourceLabel = .classDef ∧ relationship.sourceName = element.name ∧
      relationship.kind ∈ inferredKinds := by
  rcases List.mem_append.mp h with h | h
  · obtain ⟨name, -, rfl⟩ := List.mem_map.mp h
    exact ⟨rfl, rfl, by simp [Relationship.kind, inferredKinds]⟩
  · obtain ⟨name, -, rfl⟩ := List.mem_map.mp h
    exact ⟨rfl, rfl, by simp [Relationship.kind, inferredKinds]⟩

theorem mem_infer {elements : Elements} {relationship : Relationship} :
    relationship ∈ infer elements ↔
      (∃ function ∈ elements.functions, relationship ∈ ofFunction function) ∨
      (∃ classDef ∈ elements.classes, relationship ∈ ofClass classDef) := by
  simp [infer]

theorem infer_kind {elements : Elements} {relationship : Relationship}
    (h : relationship ∈ infer elements) : relationship.kind ∈ inferredKinds := by
  rcases mem_infer.mp h with ⟨_, _, h⟩ | ⟨_, _, h⟩
  · exact (of_function_shape h).2.2
  · exact (of_class_shape h).2.2

theorem infer_mono {some all : Elements} (functions : some.functions ⊆ all.functions)
    (classes : some.classes ⊆ all.classes) : infer some ⊆ infer all := by
  intro relationship h
  rcases mem_infer.mp h with ⟨element, mem, h⟩ | ⟨element, mem, h⟩
  · exact mem_infer.mpr (.inl ⟨element, functions mem, h⟩)
  · exact mem_infer.mpr (.inr ⟨element, classes mem, h⟩)

def Relationship.source (relationship : Relationship) (language context : String) : Identity :=
  elementIdentity relationship.sourceLabel relationship.sourceName language context

/-- The node that a relationship ends at when nothing of that name is known. -/
def Relationship.target (relationship : Relationship) (language context : String) : Identity :=
  elementIdentity relationship.targetLabel relationship.targetName language context

theorem inferred_kinds_fit {relationship : Relationship}
    (h : relationship.kind ∈ inferredKinds) :
    (relationship.sourceLabel, relationship.targetLabel) ∈ relationship.type.endpoints := by
  simp only [Relationship.kind, inferredKinds, List.mem_cons, Prod.mk.injEq, List.not_mem_nil,
    or_false] at h
  rcases h with ⟨h, k, l⟩ | ⟨h, k, l⟩ | ⟨h, k, l⟩ | ⟨h, k, l⟩ <;> rw [h, k, l] <;> decide

theorem inferred_kinds_refer {relationship : Relationship}
    (kind : relationship.kind ∈ inferredKinds) :
    relationship.targetLabel ∈ referable ∧ relationship.type ∈ references := by
  simp only [Relationship.kind, inferredKinds, List.mem_cons, Prod.mk.injEq, List.not_mem_nil,
    or_false] at kind
  rcases kind with ⟨type, -, label⟩ | ⟨type, -, label⟩ | ⟨type, -, label⟩ | ⟨type, -, label⟩ <;>
    simp [type, label, referable, references]

theorem label_elementIdentity (label : Label) (name language context : String) :
    (elementIdentity label name language context).label = label := by
  unfold elementIdentity
  split_ifs with h
  · exact h.symm
  · rfl

theorem context_elementIdentity (label : Label) (name language context : String) :
    (elementIdentity label name language context).context = context := by
  unfold elementIdentity
  split_ifs <;> rfl

theorem name_elementIdentity (label : Label) (name language context : String) :
    (elementIdentity label name language context).key.headD "" = name := by
  unfold elementIdentity
  split_ifs <;> rfl

theorem target_proper {relationship : Relationship} (h : relationship.kind ∈ inferredKinds)
    (language context : String) : (relationship.target language context).Proper := by
  simp only [Relationship.kind, inferredKinds, List.mem_cons, Prod.mk.injEq, List.not_mem_nil,
    or_false] at h
  unfold Relationship.target
  rcases h with ⟨-, -, l⟩ | ⟨-, -, l⟩ | ⟨-, -, l⟩ | ⟨-, -, l⟩ <;> rw [l] <;> rfl

end CodeAtlas.Relations
