import CodeAtlas.Proofs.Source.Visit

/-! Which components are marked as default exports: those whose name the text exports by default,
and those that stand inside a default export. What a default export itself declares is among the
first, so the two agree except on what is declared further inside. -/
namespace CodeAtlas.Source

open CodeAtlas.Text

variable {node name function : Tree} {around : Surroundings} {component : Component} {place : Place}

/-! What a node declares. -/

def Component.marked (component : Component) (mark : Bool) : Component :=
  { component with isDefaultExport := mark }

/-- The component that a node declares, without its mark. -/
def Tree.component? (node : Tree) : Option Component :=
  ((contribution {} node).components.head?).map (·.marked false)

/-- A list of at most one component, which takes its mark from the surroundings. -/
def MarkedBy (around : Surroundings) (components bare : List Component) : Prop :=
  components = ((bare.head?).map (·.marked around.inDefaultExport)).toList

theorem function_marked (around : Surroundings) (node : Tree) (name : Option Tree)
    (function : Tree) : MarkedBy around (functionElements around node name function).components
      (functionElements {} node name function).components := by
  unfold MarkedBy functionElements
  split
  · dsimp only
    split <;> rfl
  · rfl

theorem class_marked (around : Surroundings) (node : Tree) : MarkedBy around
    (classElements around node).components (classElements {} node).components := by
  unfold MarkedBy classElements
  split
  · rfl
  · dsimp only
    split <;> split <;> rfl

theorem no_components_of_call (around : Surroundings) (node : Tree) :
    (callElements around node).components = [] := by
  unfold callElements
  split
  · rfl
  · dsimp only
    split
    · split <;> rfl
    · rw [apply_ite Elements.components]
      exact ite_self []

theorem no_components_of_import (node : Tree) : (importElements node).components = [] := by
  unfold importElements
  split <;> rfl

theorem no_components_of_export (node : Tree) : (exportElements node).components = [] := by
  unfold exportElements
  dsimp only
  split
  · split
    · rfl
    · split
      · rfl
      · split <;> rfl
  · split
    · rfl
    · split <;> rfl

theorem contribution_marked (around : Surroundings) (node : Tree) : MarkedBy around
    (contribution around node).components (contribution {} node).components := by
  unfold contribution
  split
  · simp [MarkedBy, no_components_of_import]
  · simp [MarkedBy, no_components_of_export]
  · exact function_marked around node _ _
  · exact function_marked around node _ _
  · split
    · split
      · exact function_marked around node _ _
      · rfl
    · rfl
  · exact class_marked around node
  · simp [MarkedBy, no_components_of_call]
  · rfl

theorem components_contributed (around : Surroundings) (node : Tree) :
    (contribution around node).components =
      (node.component?.map (·.marked around.inDefaultExport)).toList := by
  rw [contribution_marked around node, Tree.component?, Option.map_map]
  rfl

theorem function_named {name : Option Tree}
    (mem : component ∈ (functionElements around node name function).components) :
    name.map Tree.text = some component.name := by
  unfold functionElements at mem
  split at mem
  · obtain rfl := List.mem_singleton.mp (List.mem_ite_nil_right.mp mem).2
    rfl
  · cases mem

theorem class_named (mem : component ∈ (classElements around node).components) :
    (node.child? .name).map Tree.text = some component.name := by
  unfold classElements at mem
  split at mem
  · cases mem
  · next name child =>
    obtain rfl := List.mem_singleton.mp (List.mem_ite_nil_right.mp mem).2
    rw [child]
    rfl

theorem contribution_named (mem : component ∈ (contribution around node).components) :
    node.kind ≠ .identifier ∧ (node.child? .name).map Tree.text = some component.name := by
  unfold contribution at mem
  split at mem
  case h_1 => rw [no_components_of_import] at mem; cases mem
  case h_2 => rw [no_components_of_export] at mem; cases mem
  case h_3 kind => exact ⟨by rw [kind]; decide, function_named mem⟩
  case h_4 kind => exact ⟨by rw [kind]; decide, function_named mem⟩
  case h_5 kind =>
    split at mem
    · next value name _ child =>
      split at mem
      · exact ⟨by rw [kind]; decide, child ▸ function_named mem⟩
      · cases mem
    · cases mem
  case h_6 kind => exact ⟨by rw [kind]; decide, class_named mem⟩
  case h_7 => rw [no_components_of_call] at mem; cases mem
  case h_8 => cases mem

/-- What declares a component is no name itself, and the component has the name that it declares. -/
theorem component_named (declares : node.component? = some component) :
    node.kind ≠ .identifier ∧ (node.child? .name).map Tree.text = some component.name := by
  obtain ⟨bare, first, rfl⟩ := Option.map_eq_some_iff.mp declares
  have named := contribution_named (List.mem_of_mem_head? first)
  exact named

/-! What is marked. -/

def Elements.ExportsDefault (elements : Elements) (name : String) : Prop :=
  ⟨name, "default"⟩ ∈ elements.exports

/-- The nearest export statement around the place is a default export. -/
def Place.InDefaultExport (place : Place) : Prop :=
  ∃ statement, place.above.find? (·.kind = .exportStatement) = some statement ∧
    (statement.firstOf? .defaultKeyword).isSome = true

theorem in_default_export_iff (place : Place) :
    (surroundingsOf place.above).inDefaultExport = true ↔ place.InDefaultExport := by
  obtain ⟨node, above⟩ := place
  induction above with
  | nil => simp [surroundingsOf, Place.InDefaultExport]
  | cons tree above ih =>
    by_cases statement : tree.kind = .exportStatement
    · simp [surroundingsOf, Surroundings.within, Place.InDefaultExport, statement]
    · simp only [Place.InDefaultExport] at ih
      simp [surroundingsOf, Surroundings.within, Place.InDefaultExport, statement, ih]

def Place.IsDeclared (place : Place) : Prop :=
  ∃ statement above, place.above = statement :: above ∧ statement.kind = .exportStatement ∧
    statement.child? .declaration = some place.node

/-- The place is further inside a default export than what that declares. -/
def Place.Nested (place : Place) : Prop := place.InDefaultExport ∧ ¬ place.IsDeclared

def Place.component? (place : Place) : Option Component :=
  place.node.component?.map (·.marked (surroundingsOf place.above).inDefaultExport)

theorem exports_marked (tree : Tree) : (elementsOf tree).exports = (collect {} tree).exports := by
  rw [← visited_eq_collect]
  rfl

theorem declared_exports_default {tree : Tree} (mem : place ∈ tree.places)
    (declares : place.node.component? = some component) (inside : place.InDefaultExport)
    (declared : place.IsDeclared) : (elementsOf tree).ExportsDefault component.name := by
  obtain ⟨statement, above, under, kind, declaration⟩ := declared
  obtain ⟨nearest, found, isDefault⟩ := inside
  obtain rfl : statement = nearest := by
    rw [under, List.find?_cons_of_pos (by simpa using kind)] at found
    exact Option.some.inj found
  obtain ⟨plain, named⟩ := component_named declares
  obtain ⟨name, child, text⟩ := Option.map_eq_some_iff.mp named
  rw [Elements.ExportsDefault, exports_marked, elements_of_places, Elements.exports_concat,
    List.mem_flatMap]
  refine ⟨_, List.mem_map_of_mem (statement_place mem under), ?_⟩
  have exports : (exportElements statement).exports = [⟨component.name, "default"⟩] := by
    simp [exportElements, isDefault, declaration, plain, child, text]
  simp [Place.contribution, contribution, kind, exports]

/-- How a component that is declared at a place is marked. -/
structure Marked (elements : Elements) (place : Place) (component : Component) : Prop where
  declares : place.node.component? = some (component.marked false)
  mark : component.isDefaultExport = true ↔
    elements.ExportsDefault component.name ∨ place.InDefaultExport
  apart : ¬ place.Nested →
    (component.isDefaultExport = true ↔ elements.ExportsDefault component.name)

def withExports (elements : Elements) (component : Component) : Component :=
  let defaults := (elements.exports.filter fun entry => entry.exportType == "default").map
    Export.name
  if defaults.contains component.name then component.marked true else component

theorem exports_default_iff {elements : Elements} {name : String} :
    ((elements.exports.filter fun entry => entry.exportType == "default").map Export.name).contains
      name = true ↔ elements.ExportsDefault name := by
  rw [List.contains_iff_mem, List.mem_map, Elements.ExportsDefault]
  constructor
  · rintro ⟨⟨name, type⟩, mem, rfl⟩
    obtain ⟨mem, same⟩ := List.mem_filter.mp mem
    obtain rfl : type = "default" := beq_iff_eq.mp same
    exact mem
  · intro mem
    exact ⟨_, List.mem_filter.mpr ⟨mem, rfl⟩, rfl⟩

theorem name_with_exports (elements : Elements) (component : Component) :
    (withExports elements component).name = component.name := by
  rw [withExports]
  split <;> rfl

theorem bare_with_exports (elements : Elements) (component : Component) :
    (withExports elements component).marked false = component.marked false := by
  rw [withExports]
  split <;> rfl

theorem mark_with_exports (elements : Elements) (component : Component) :
    (withExports elements component).isDefaultExport = true ↔
      elements.ExportsDefault component.name ∨ component.isDefaultExport = true := by
  rw [withExports, ← exports_default_iff]
  split
  case isTrue listed => exact iff_of_true rfl (.inl listed)
  case isFalse unlisted => exact (or_iff_right unlisted).symm

theorem marked_with_exports {tree : Tree} (mem : place ∈ tree.places)
    (declares : place.component? = some component) :
    Marked (elementsOf tree) place (withExports (elementsOf tree) component) := by
  obtain ⟨bare, bare_declares, rfl⟩ := Option.map_eq_some_iff.mp declares
  have mark := mark_with_exports (elementsOf tree)
    (bare.marked (surroundingsOf place.above).inDefaultExport)
  change _ ↔ (elementsOf tree).ExportsDefault bare.name ∨ _ = true at mark
  have inside := in_default_export_iff place
  constructor
  case declares =>
    obtain ⟨other, -, rfl⟩ := Option.map_eq_some_iff.mp bare_declares
    rw [bare_declares, bare_with_exports]
    rfl
  case mark =>
    rw [name_with_exports, mark]
    exact or_congr_right inside
  case apart =>
    intro free
    rw [name_with_exports, mark]
    refine or_iff_left_of_imp fun inDefault => ?_
    have inDefault := inside.mp inDefault
    by_contra unlisted
    refine free ⟨inDefault, fun declared => unlisted ?_⟩
    exact declared_exports_default mem bare_declares inDefault declared

theorem forall_declaring {related : Place → Component → Prop} {f : Place → Option Component}
    {places : List Place} (each : ∀ place ∈ places, ∀ component, f place = some component →
      related place component) :
    List.Forall₂ related (places.filter fun place => (f place).isSome)
      (places.flatMap fun place => (f place).toList) := by
  induction places with
  | nil => exact List.Forall₂.nil
  | cons place places ih =>
    have rest := ih fun other mem => each other (List.mem_cons_of_mem _ mem)
    rw [List.flatMap_cons]
    cases declared : f place with
    | none =>
      rw [List.filter_cons_of_neg (by simp [declared])]
      exact rest
    | some component =>
      rw [List.filter_cons_of_pos (by simp [declared])]
      exact List.Forall₂.cons (each place List.mem_cons_self component declared) rest

theorem components_listed (tree : Tree) : (elementsOf tree).components =
    (tree.places.flatMap fun place => place.component?.toList).map
      (withExports (elementsOf tree)) := by
  have collected : (collect {} tree).components =
      tree.places.flatMap fun place => place.component?.toList := by
    rw [elements_of_places, Elements.components_concat, List.flatMap_map]
    exact List.flatMap_congr fun place _ => components_contributed _ _
  rw [← collected, ← visited_eq_collect]
  rfl

/-- The components of a tree are those that its places declare, one after the other. One is marked
as a default export just when its name is exported by default or it stands inside a default export;
and just when its name is, unless it is further inside than what the export declares. -/
theorem tree_marked (tree : Tree) : List.Forall₂ (Marked (elementsOf tree))
    (tree.places.filter fun place => place.node.component?.isSome)
    (elementsOf tree).components := by
  have each : ∀ place ∈ tree.places, ∀ component, place.component? = some component →
      Marked (elementsOf tree) place (withExports (elementsOf tree) component) :=
    fun _ mem _ declares => marked_with_exports mem declares
  have declaring := forall_declaring each
  simp only [Place.component?, Option.isSome_map] at declaring
  rw [components_listed, List.forall₂_map_right_iff]
  exact declaring

def nestedText : String :=
  "export default function Page() { function Inner() { return <a/>; } return <b/>; }"

/-- The inner component is marked although the outer one alone is exported. -/
theorem inner_component_marked :
    ¬ ∀ (source extension : String), ∀ component ∈ (parseElements source extension).components,
      (component.isDefaultExport = true ↔
        (parseElements source extension).ExportsDefault component.name) := by
  intro claimed
  obtain ⟨marks, exports⟩ : ((parseElements nestedText "tsx").components.map fun component =>
        (component.name, component.isDefaultExport)) = [("Page", true), ("Inner", true)] ∧
      (parseElements nestedText "tsx").exports = [⟨"Page", "default"⟩] := by
    decide +kernel
  obtain ⟨inner, mem, mark⟩ := List.mem_map.mp
    (marks ▸ List.mem_cons_of_mem _ List.mem_cons_self :
      ("Inner", true) ∈ (parseElements nestedText "tsx").components.map fun component =>
        (component.name, component.isDefaultExport))
  obtain ⟨name, flag⟩ := Prod.mk.inj mark
  have exported := (claimed nestedText "tsx" inner mem).mp flag
  rw [name, Elements.ExportsDefault, exports] at exported
  revert exported
  decide

end CodeAtlas.Source
