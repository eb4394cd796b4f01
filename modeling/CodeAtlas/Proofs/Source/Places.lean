import CodeAtlas.Source.Visit
import Mathlib.Data.List.Forall2

/-! The places of a tree: its nodes in pre-order, each with what encloses it. Collecting the
elements of a tree by recursion on it is the same as putting together what each place contributes.
-/
namespace CodeAtlas.Source

mutual

/-- The elements of a tree in pre-order: what the node itself contributes, then the elements of its
children from first to last. -/
def collect (around : Surroundings) : Tree → Elements
  | .node kind role text children =>
    contribution around (.node kind role text children)
      ++ collectAll (around.within (.node kind role text children)) children

def collectAll (around : Surroundings) : List Tree → Elements
  | [] => .empty
  | tree :: rest => collect around tree ++ collectAll around rest

end

mutual

def placesIn (above : List Tree) : Tree → List Place
  | .node kind role text children =>
    ⟨.node kind role text children, above⟩
      :: placesInAll (.node kind role text children :: above) children

def placesInAll (above : List Tree) : List Tree → List Place
  | [] => []
  | tree :: rest => placesIn above tree ++ placesInAll above rest

end

def Tree.places (tree : Tree) : List Place := placesIn [] tree

/-! Every place but the root has a parent. -/

def Place.IsParent (parent place : Place) : Prop :=
  place.above = parent.node :: parent.above ∧ place.node ∈ parent.node.children

mutual

theorem place_in (outer : List Tree) : (tree : Tree) → ∀ place ∈ placesIn outer tree,
    place = ⟨tree, outer⟩ ∨ ∃ parent ∈ placesIn outer tree, parent.IsParent place
  | .node kind role text children => by
    intro place mem
    rw [placesIn] at mem ⊢
    rcases List.mem_cons.mp mem with rfl | mem
    · exact .inl rfl
    · refine .inr ?_
      rcases place_in_all _ children place mem with ⟨above, child⟩ | ⟨parent, inside, is_parent⟩
      · exact ⟨_, List.mem_cons_self, above, child⟩
      · exact ⟨parent, List.mem_cons_of_mem _ inside, is_parent⟩

theorem place_in_all (outer : List Tree) : (trees : List Tree) → ∀ place ∈ placesInAll outer trees,
    (place.above = outer ∧ place.node ∈ trees) ∨
      ∃ parent ∈ placesInAll outer trees, parent.IsParent place
  | [] => fun place mem => by rw [placesInAll] at mem; cases mem
  | tree :: rest => by
    intro place mem
    rw [placesInAll] at mem ⊢
    rcases List.mem_append.mp mem with mem | mem
    · rcases place_in outer tree place mem with rfl | ⟨parent, inside, is_parent⟩
      · exact .inl ⟨rfl, List.mem_cons_self⟩
      · exact .inr ⟨parent, List.mem_append_left _ inside, is_parent⟩
    · rcases place_in_all outer rest place mem with ⟨above, child⟩ | ⟨parent, inside, is_parent⟩
      · exact .inl ⟨above, List.mem_cons_of_mem _ child⟩
      · exact .inr ⟨parent, List.mem_append_right _ inside, is_parent⟩

end

theorem statement_place {tree statement : Tree} {place : Place} {above : List Tree}
    (mem : place ∈ tree.places) (under : place.above = statement :: above) :
    ⟨statement, above⟩ ∈ tree.places := by
  rcases place_in [] tree place mem with rfl | ⟨parent, inside, same, -⟩
  · cases under
  · obtain ⟨rfl, rfl⟩ := List.cons.inj (under.symm.trans same)
    exact inside

/-! Collecting. -/

namespace Elements

def concat (parts : List Elements) : Elements := parts.foldr append empty

theorem empty_append (elements : Elements) : empty.append elements = elements := rfl

theorem append_assoc (a b c : Elements) : (a.append b).append c = a.append (b.append c) := by
  simp [append, List.append_assoc]

theorem concat_append (parts more : List Elements) :
    concat (parts ++ more) = (concat parts).append (concat more) := by
  induction parts with
  | nil => exact (empty_append _).symm
  | cons part parts ih =>
    change part.append (concat (parts ++ more)) = (part.append (concat parts)).append (concat more)
    rw [ih, append_assoc]

theorem components_concat (parts : List Elements) :
    (concat parts).components = parts.flatMap components := by
  induction parts with
  | nil => rfl
  | cons part parts ih => exact congrArg (part.components ++ ·) ih

theorem exports_concat (parts : List Elements) :
    (concat parts).exports = parts.flatMap exports := by
  induction parts with
  | nil => rfl
  | cons part parts ih => exact congrArg (part.exports ++ ·) ih

end Elements

mutual

theorem collect_places (above : List Tree) : (tree : Tree) →
    collect (surroundingsOf above) tree =
      Elements.concat ((placesIn above tree).map Place.contribution)
  | .node kind role text children => by
    have inside := collect_all_places (.node kind role text children :: above) children
    rw [collect, placesIn, List.map_cons]
    exact congrArg (Place.contribution ⟨.node kind role text children, above⟩).append inside

theorem collect_all_places (above : List Tree) : (trees : List Tree) →
    collectAll (surroundingsOf above) trees =
      Elements.concat ((placesInAll above trees).map Place.contribution)
  | [] => by rw [collectAll, placesInAll]; rfl
  | tree :: rest => by
    rw [collectAll, placesInAll, List.map_append, Elements.concat_append,
      ← collect_places above tree, ← collect_all_places above rest]
    rfl

end

end CodeAtlas.Source
