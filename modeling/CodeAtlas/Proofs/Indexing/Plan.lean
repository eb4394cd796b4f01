import CodeAtlas.Indexing.Functions
import CodeAtlas.Indexing.Libraries
import CodeAtlas.Proofs.Graph.Identity
import CodeAtlas.Proofs.Graph.Writes

/-! What indexing asks of the store. Each planned element has the columns of its label, belongs to
the context of the file, and is held by an edge that a file may have, so that only the store itself
can refuse it. -/
namespace CodeAtlas.Indexing

open CodeAtlas.Graph
open CodeAtlas.Source (Elements)

/-- What every planned write keeps to. -/
structure PlannedWrite.Fits (planned : PlannedWrite) (context : String) : Prop where
  proper : planned.identity.Proper
  context : planned.identity.context = context
  edge : (Label.file, planned.identity.label) ∈ planned.edge.endpoints

variable {elements : Elements} {language context : String} {planned : PlannedWrite}

theorem plan_fits (h : planned ∈ plan elements language context) : planned.Fits context := by
  simp only [plan, List.mem_append, List.mem_map] at h
  rcases h with (((((((⟨_, -, rfl⟩ | ⟨_, -, rfl⟩) | ⟨_, -, rfl⟩) | ⟨_, -, rfl⟩) | ⟨_, -, rfl⟩) |
    ⟨_, -, rfl⟩) | ⟨_, -, rfl⟩) | ⟨_, -, rfl⟩) <;> exact ⟨rfl, rfl, by simp [EdgeType.endpoints]⟩

theorem not_file_of_fits (fits : planned.Fits context) : planned.identity.label ≠ .file := by
  intro label
  have edge := fits.edge
  rw [label] at edge
  cases h : planned.edge <;> simp [h, EdgeType.endpoints] at edge

theorem plan_named (h : planned ∈ plan elements language context)
    (label : planned.identity.label ∈ [Label.function, .classDef]) :
    (∃ name, planned.identity = .named planned.identity.label name language context) ∧
      planned.edge = .contains ∧ planned.properties = [] ∧
      ∃ body, planned.attributes = [("body", .text body)] := by
  simp only [plan, List.mem_append, List.mem_map] at h
  rcases h with (((((((⟨_, -, rfl⟩ | ⟨_, -, rfl⟩) | ⟨_, -, rfl⟩) | ⟨_, -, rfl⟩) | ⟨_, -, rfl⟩) |
    ⟨_, -, rfl⟩) | ⟨_, -, rfl⟩) | ⟨_, -, rfl⟩)
  · exact ⟨⟨_, rfl⟩, rfl, rfl, _, rfl⟩
  · exact ⟨⟨_, rfl⟩, rfl, rfl, _, rfl⟩
  all_goals simp at label

theorem plan_bare (h : planned ∈ plan elements language context)
    (label : planned.identity.label.attributeColumns = []) : planned.attributes = [] := by
  simp only [plan, List.mem_append, List.mem_map] at h
  rcases h with (((((((⟨_, -, rfl⟩ | ⟨_, -, rfl⟩) | ⟨_, -, rfl⟩) | ⟨_, -, rfl⟩) | ⟨_, -, rfl⟩) |
    ⟨_, -, rfl⟩) | ⟨_, -, rfl⟩) | ⟨_, -, rfl⟩) <;>
    first | rfl | simp [Label.attributeColumns] at label

theorem function_planned {function : Source.FunctionElement} (h : function ∈ elements.functions) :
    { identity := .named .function function.name language context, edge := .contains
      attributes := [("body", .text function.body)] } ∈ plan elements language context := by
  simp only [plan, List.mem_append, List.mem_map]
  exact .inl (.inl (.inl (.inl (.inl (.inl (.inl ⟨function, h, rfl⟩))))))

theorem class_planned {classDef : Source.ClassElement} (h : classDef ∈ elements.classes) :
    { identity := .named .classDef classDef.name language context, edge := .contains
      attributes := [("body", .text classDef.body)] } ∈ plan elements language context := by
  simp only [plan, List.mem_append, List.mem_map]
  exact .inl (.inl (.inl (.inl (.inl (.inl (.inr ⟨classDef, h, rfl⟩))))))

theorem plan_properties (h : planned ∈ plan elements language context) :
    ∀ property ∈ planned.properties, property.1 ∈ planned.edge.properties := by
  simp only [plan, List.mem_append, List.mem_map] at h
  rcases h with (((((((⟨_, -, rfl⟩ | ⟨_, -, rfl⟩) | ⟨_, -, rfl⟩) | ⟨_, -, rfl⟩) | ⟨_, -, rfl⟩) |
    ⟨_, -, rfl⟩) | ⟨_, -, rfl⟩) | ⟨_, -, rfl⟩) <;> simp [EdgeType.properties]

theorem member_fits {api : Library.Api} {member : Label × String} (h : member ∈ members api) :
    member.1.keyColumns.length = 2 ∧ (Label.library, member.1) ∈ EdgeType.provides.endpoints := by
  simp only [members, List.mem_append, List.mem_map] at h
  rcases h with ((((⟨_, -, rfl⟩ | ⟨_, -, rfl⟩) | ⟨_, -, rfl⟩) | ⟨_, -, rfl⟩) | ⟨_, -, rfl⟩) <;>
    exact ⟨rfl, by simp [EdgeType.endpoints]⟩

variable {here : Conditions} {graph : Graph} {error : Error}

theorem element_error {path : String} (fits : planned.Fits context)
    (h : writeElement here (.file path context) planned graph = .error error) :
    error.isStoreError = true := by
  rcases write_bind_error h with refused | ⟨_, _, -, refused⟩
  · rw [upsert_error refused]
    rfl
  · exact link_error fits.edge refused

theorem function_error {function : LooseFunction}
    (h : writeFunction here language context function graph = .error error) :
    error.isStoreError = true := by
  rcases write_bind_error h with refused | ⟨_, _, -, h⟩
  · rw [upsert_error refused]
    rfl
  · by_cases loose : function.path.getD "" = ""
    · rw [if_pos loose] at h
      cases h
    · rw [if_neg loose] at h
      rcases write_bind_error h with refused | ⟨_, _, -, refused⟩
      · rw [upsert_error refused]
        rfl
      · exact link_error (by simp [Identity.endpoint, Identity.file, Identity.named,
          EdgeType.endpoints]) refused

theorem member_error {api : Library.Api} {library : Identity} {member : Label × String}
    (labelled : library.label = .library) (mem : member ∈ members api)
    (h : writeMember here library member.1 member.2 graph = .error error) :
    error.isStoreError = true := by
  rcases write_bind_error h with refused | ⟨_, _, -, refused⟩
  · rw [upsert_error refused]
    rfl
  · refine link_error ?_ refused
    rw [Identity.endpoint, labelled]
    exact (member_fits mem).2

end CodeAtlas.Indexing
