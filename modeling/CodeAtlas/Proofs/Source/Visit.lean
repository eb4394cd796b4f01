import CodeAtlas.Proofs.Source.Places
import CodeAtlas.Source.Extension
import Mathlib.Logic.Function.Iterate

/-! The visit of a tree. What is below the stack is always the rest of the places in pre-order, so
the visit takes every place once, ends after as many steps as the tree has nodes, and finds what the
recursion on the tree collects. Whatever plays a role beside being a function or a class is found as
a function or a class too. -/
namespace CodeAtlas.Source

namespace Elements

theorem append_empty (elements : Elements) : elements.append empty = elements := by
  simp [append, empty]

end Elements

/-! The places below a stack. -/

theorem places_in_all (above : List Tree) (trees : List Tree) :
    placesInAll above trees = trees.flatMap (placesIn above) := by
  induction trees with
  | nil => rw [placesInAll]; rfl
  | cons tree trees ih => rw [placesInAll, ih, List.flatMap_cons]

mutual

theorem length_places_in (above : List Tree) : (tree : Tree) →
    (placesIn above tree).length = tree.size
  | .node kind role text children => by
    rw [placesIn, List.length_cons, length_places_in_all, Tree.size]

theorem length_places_in_all (above : List Tree) : (trees : List Tree) →
    (placesInAll above trees).length = Tree.sizeAll trees
  | [] => by rw [placesInAll, Tree.sizeAll]; rfl
  | tree :: rest => by
    rw [placesInAll, List.length_append, length_places_in, length_places_in_all, Tree.sizeAll]

end

namespace Visit

/-- The places that a visit has still to come to: for each place on the stack all those of its
node. -/
def remaining (visit : Visit) : List Place :=
  visit.pending.flatMap fun place => placesIn place.above place.node

theorem remaining_start (tree : Tree) : (start tree).remaining = tree.places := by
  simp [remaining, start, Tree.places]

theorem remaining_step (place : Place) (pending : List Place) (found : Elements) :
    remaining ⟨place :: pending, found⟩ = place :: (step ⟨place :: pending, found⟩).remaining := by
  obtain ⟨⟨kind, role, text, children⟩, above⟩ := place
  rw [remaining, remaining, step, push_eq, List.flatMap_cons, List.flatMap_append, placesIn,
    places_in_all, Place.children, List.flatMap_map]
  rfl

theorem head_remaining (visit : Visit) : visit.pending.head? = visit.remaining.head? := by
  obtain ⟨_ | ⟨place, pending⟩, found⟩ := visit
  · rfl
  · rw [remaining_step]
    rfl

theorem pending_nil_of_remaining {visit : Visit} (spent : visit.remaining = []) :
    visit.pending = [] := by
  have top := head_remaining visit
  rw [spent] at top
  exact List.head?_eq_none_iff.mp top

/-- After some steps as many places are visited, in their order, and the others remain. -/
theorem iterate_step (visit : Visit) (steps : Nat) :
    (step^[steps] visit).remaining = visit.remaining.drop steps ∧
      (step^[steps] visit).found = visit.found.append
        (Elements.concat ((visit.remaining.take steps).map Place.contribution)) := by
  induction steps generalizing visit with
  | zero => exact ⟨rfl, (Elements.append_empty _).symm⟩
  | succ steps ih =>
    rw [Function.iterate_succ_apply]
    obtain ⟨rest, found⟩ := ih visit.step
    obtain ⟨_ | ⟨place, pending⟩, before⟩ := visit
    · have spent : remaining ⟨[], before⟩ = [] := rfl
      have still : step ⟨[], before⟩ = ⟨[], before⟩ := rfl
      rw [still, spent] at rest found
      rw [still, spent, rest, found, List.drop_nil, List.drop_nil, List.take_nil, List.take_nil]
      exact ⟨rfl, rfl⟩
    · rw [remaining_step, List.drop_succ_cons, List.take_succ_cons, List.map_cons, found]
      exact ⟨rest, Elements.append_assoc before place.contribution _⟩

theorem finish_eq (visit : Visit) : visit.finish =
    visit.found.append (Elements.concat (visit.remaining.map Place.contribution)) := by
  induction visit using finish.induct with
  | case1 visit spent =>
    rw [finish, if_pos spent, remaining, List.isEmpty_iff.mp spent]
    exact (Elements.append_empty _).symm
  | case2 visit waiting ih =>
    rw [finish, if_neg waiting, ih]
    obtain ⟨_ | ⟨place, pending⟩, before⟩ := visit
    · exact absurd rfl waiting
    · rw [remaining_step, List.map_cons]
      exact Elements.append_assoc before place.contribution _

end Visit

theorem elements_of_places (tree : Tree) :
    collect {} tree = Elements.concat (tree.places.map Place.contribution) :=
  collect_places [] tree

theorem visited_eq_collect (tree : Tree) : visited tree = collect {} tree := by
  rw [visited, Visit.finish_eq, Visit.remaining_start, elements_of_places]
  exact Elements.empty_append _

/-! What contributes. -/

def contributingKinds : List Kind :=
  [.importStatement, .exportStatement, .functionDeclaration, .methodDefinition, .variableDeclarator,
    .classDeclaration, .callExpression]

def Place.Contributes (place : Place) : Prop := place.node.kind ∈ contributingKinds

instance (place : Place) : Decidable place.Contributes :=
  inferInstanceAs (Decidable (_ ∈ contributingKinds))

theorem contribution_of_other {place : Place} (other : ¬ place.Contributes) :
    place.contribution = .empty := by
  unfold Place.contribution contribution
  split
  case h_8 => rfl
  all_goals
    rename_i kind
    exact absurd (show place.node.kind ∈ contributingKinds by rw [kind]; decide) other

theorem concat_contributing (places : List Place) :
    Elements.concat (places.map Place.contribution) =
      Elements.concat ((places.filter fun place => place.Contributes).map Place.contribution) := by
  induction places with
  | nil => rfl
  | cons place places ih =>
    by_cases contributes : place.Contributes
    · rw [List.filter_cons_of_pos (by simpa using contributes)]
      exact congrArg place.contribution.append ih
    · rw [List.filter_cons_of_neg (by simpa using contributes), ← ih, List.map_cons,
        contribution_of_other contributes]
      exact Elements.empty_append _

/-! Roles. -/

/-- What is a component or a pattern of the framework is also found as what it is a role of: a
component as a function of its name, or as a class of its name and its text. -/
structure Elements.Consistent (elements : Elements) : Prop where
  components : ∀ component ∈ elements.components,
    (component.componentType = "functional" ∧
      ∃ function ∈ elements.functions, function.name = component.name) ∨
    (component.componentType = "class" ∧
      ∃ declared ∈ elements.classes, declared.name = component.name ∧
        declared.body = component.body)
  patterns : ∀ pattern ∈ elements.patterns,
    ∃ function ∈ elements.functions, function.name = pattern.name

namespace Elements.Consistent

variable {a b elements : Elements}

theorem of_none (components : elements.components = []) (patterns : elements.patterns = []) :
    elements.Consistent := by
  constructor
  · rw [components]
    intro component mem
    cases mem
  · rw [patterns]
    intro pattern mem
    cases mem

theorem append (first : a.Consistent) (second : b.Consistent) : (a.append b).Consistent := by
  constructor
  · intro component mem
    rcases List.mem_append.mp mem with mem | mem
    · rcases first.components component mem with ⟨type, function, inside, name⟩ |
        ⟨type, declared, inside, same⟩
      · exact .inl ⟨type, function, List.mem_append_left _ inside, name⟩
      · exact .inr ⟨type, declared, List.mem_append_left _ inside, same⟩
    · rcases second.components component mem with ⟨type, function, inside, name⟩ |
        ⟨type, declared, inside, same⟩
      · exact .inl ⟨type, function, List.mem_append_right _ inside, name⟩
      · exact .inr ⟨type, declared, List.mem_append_right _ inside, same⟩
  · intro pattern mem
    rcases List.mem_append.mp mem with mem | mem
    · obtain ⟨function, inside, name⟩ := first.patterns pattern mem
      exact ⟨function, List.mem_append_left _ inside, name⟩
    · obtain ⟨function, inside, name⟩ := second.patterns pattern mem
      exact ⟨function, List.mem_append_right _ inside, name⟩

theorem concat {parts : List Elements} (each : ∀ part ∈ parts, part.Consistent) :
    (Elements.concat parts).Consistent := by
  induction parts with
  | nil => exact of_none rfl rfl
  | cons part parts ih =>
    obtain ⟨first, rest⟩ := List.forall_mem_cons.mp each
    exact first.append (ih rest)

theorem marked (consistent : elements.Consistent) : (markDefaultExports elements).Consistent := by
  constructor
  · intro component mem
    obtain ⟨bare, inside, rfl⟩ := List.mem_map.mp mem
    have found := consistent.components bare inside
    split
    · exact found
    · exact found
  · exact consistent.patterns

end Elements.Consistent

section Contribution

variable {around : Surroundings} {node function : Tree}

theorem framework_pattern_named {name text : String} {pattern : FrameworkPattern}
    (found : frameworkPattern? name text = some pattern) : pattern.name = name := by
  unfold frameworkPattern? at found
  split_ifs at found
  all_goals
    obtain rfl := Option.some.inj found
    rfl

theorem function_consistent (name : Option Tree) :
    (functionElements around node name function).Consistent := by
  unfold functionElements
  split
  · next name body _ =>
    constructor
    · intro component mem
      obtain rfl := List.mem_singleton.mp (List.mem_ite_nil_right.mp mem).2
      exact .inl ⟨rfl, _, List.mem_singleton_self _, rfl⟩
    · intro pattern mem
      have named := framework_pattern_named (Option.mem_toList.mp mem)
      exact ⟨_, List.mem_singleton_self _, named.symm⟩
  · exact .of_none rfl rfl

theorem class_consistent : (classElements around node).Consistent := by
  unfold classElements
  split
  · exact .of_none rfl rfl
  · constructor
    · intro component mem
      obtain rfl := List.mem_singleton.mp (List.mem_ite_nil_right.mp mem).2
      exact .inr ⟨rfl, _, List.mem_singleton_self _, rfl, rfl⟩
    · intro pattern mem
      cases mem

theorem call_consistent : (callElements around node).Consistent := by
  unfold callElements
  split
  · exact .of_none rfl rfl
  · dsimp only
    split
    · split <;> exact .of_none rfl rfl
    · refine .of_none ?_ ?_
      · rw [apply_ite Elements.components]
        exact ite_self []
      · rw [apply_ite Elements.patterns]
        exact ite_self []

theorem import_consistent : (importElements node).Consistent := by
  unfold importElements
  split <;> exact .of_none rfl rfl

theorem export_consistent : (exportElements node).Consistent := by
  unfold exportElements
  dsimp only
  split
  · split
    · exact .of_none rfl rfl
    · split
      · exact .of_none rfl rfl
      · split <;> exact .of_none rfl rfl
  · split
    · exact .of_none rfl rfl
    · split <;> exact .of_none rfl rfl

theorem contribution_consistent : (contribution around node).Consistent := by
  unfold contribution
  split
  · exact import_consistent
  · exact export_consistent
  · exact function_consistent _
  · exact function_consistent _
  · split
    · split
      · exact function_consistent _
      · exact .of_none rfl rfl
    · exact .of_none rfl rfl
  · exact class_consistent
  · exact call_consistent
  · exact .of_none rfl rfl

end Contribution

theorem visited_consistent (tree : Tree) : (visited tree).Consistent := by
  rw [visited_eq_collect, elements_of_places]
  refine .concat fun part mem => ?_
  obtain ⟨place, -, rfl⟩ := List.mem_map.mp mem
  exact contribution_consistent

/-- The visit of a tree is its collection in pre-order. The steps take the places of the tree one
after the other, each once; after as many steps as there are nodes nothing is left on the stack, and
what is found is what the recursion on the tree collects: the contributions of the imports, exports,
functions, classes and calls in their order. Every component and every pattern that is kept has the
function or the class that it is a role of beside it. -/
theorem visit_collects_in_preorder (tree : Tree) :
    (∀ steps, (Visit.step^[steps] (.start tree)).pending.head? = tree.places[steps]?) ∧
      Visit.step^[tree.size] (.start tree) = ⟨[], collect {} tree⟩ ∧
      visited tree = collect {} tree ∧
      collect {} tree = Elements.concat
        ((tree.places.filter fun place => place.Contributes).map Place.contribution) ∧
      (visited tree).Consistent ∧ (elementsOf tree).Consistent := by
  have start := Visit.remaining_start tree
  refine ⟨?taken, ?ended, visited_eq_collect tree, ?contributed, visited_consistent tree,
    (visited_consistent tree).marked⟩
  case taken =>
    intro steps
    rw [Visit.head_remaining, (Visit.iterate_step _ steps).1, start, List.head?_drop]
  case ended =>
    have all : tree.places.length ≤ tree.size := Nat.le_of_eq (length_places_in [] tree)
    obtain ⟨rest, found⟩ := Visit.iterate_step (.start tree) tree.size
    rw [start, List.drop_eq_nil_of_le all] at rest
    rw [start, List.take_of_length_le all, ← elements_of_places] at found
    have empty := Visit.pending_nil_of_remaining rest
    calc Visit.step^[tree.size] (.start tree)
        = ⟨(Visit.step^[tree.size] (.start tree)).pending,
            (Visit.step^[tree.size] (.start tree)).found⟩ := rfl
      _ = ⟨[], collect {} tree⟩ := by rw [empty, found]; rfl
  case contributed => rw [elements_of_places, concat_contributing]

end CodeAtlas.Source
