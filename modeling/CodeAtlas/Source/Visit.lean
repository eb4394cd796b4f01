import CodeAtlas.Source.Collect

/-! Visiting a syntax tree. The places still to be visited wait on a stack; the one on top is taken
off, adds what it contributes to what was found, and leaves its children on the stack, the first one
on top. -/

namespace CodeAtlas.Source

/-- A node with the nodes that enclose it, the nearest first. -/
structure Place where
  node : Tree
  above : List Tree

/-- What a place contributes depends on what encloses it. -/
def surroundingsOf : List Tree → Surroundings
  | [] => {}
  | tree :: above => (surroundingsOf above).within tree

namespace Place

def contribution (place : Place) : Elements :=
  Source.contribution (surroundingsOf place.above) place.node

def children (place : Place) : List Place :=
  place.node.children.map fun child => ⟨child, place.node :: place.above⟩

end Place

namespace Tree

mutual

def size : Tree → Nat
  | node _ _ _ children => sizeAll children + 1

def sizeAll : List Tree → Nat
  | [] => 0
  | tree :: rest => tree.size + sizeAll rest

end

end Tree

/-- A visit under way: the stack, and what was found so far. -/
structure Visit where
  pending : List Place
  found : Elements

namespace Visit

def start (tree : Tree) : Visit := ⟨[⟨tree, []⟩], .empty⟩

def push (places pending : List Place) : List Place :=
  places.reverse.foldl (fun stack place => place :: stack) pending

def step : Visit → Visit
  | ⟨[], found⟩ => ⟨[], found⟩
  | ⟨place :: pending, found⟩ => ⟨push place.children pending, found ++ place.contribution⟩

def weight (visit : Visit) : Nat := Tree.sizeAll (visit.pending.map Place.node)

theorem push_eq (places pending : List Place) : push places pending = places ++ pending := by
  rw [push, List.foldl_reverse]
  exact List.foldr_cons_eq_append.trans (congrArg (· ++ pending) (List.map_id places))

theorem sizeAll_append (trees more : List Tree) :
    Tree.sizeAll (trees ++ more) = Tree.sizeAll trees + Tree.sizeAll more := by
  induction trees with
  | nil => simp [Tree.sizeAll]
  | cons tree trees ih => rw [List.cons_append, Tree.sizeAll, Tree.sizeAll, ih, Nat.add_assoc]

theorem weight_step (visit : Visit) : visit.step.weight = visit.weight - 1 := by
  obtain ⟨pending, found⟩ := visit
  cases pending with
  | nil => rfl
  | cons place pending =>
    obtain ⟨⟨kind, role, text, children⟩, above⟩ := place
    have nodes : (Place.children ⟨.node kind role text children, above⟩).map Place.node =
        children := by
      simp [Place.children, Tree.children, Function.comp_def]
    simp only [weight, step, push_eq, List.map_append, nodes, sizeAll_append, List.map_cons,
      Tree.sizeAll, Tree.size]
    omega

theorem weight_pos {visit : Visit} (waiting : ¬ visit.pending.isEmpty) : 0 < visit.weight := by
  obtain ⟨_ | ⟨⟨⟨kind, role, text, children⟩, above⟩, pending⟩, found⟩ := visit
  · exact absurd rfl waiting
  · simp only [weight, List.map_cons, Tree.sizeAll, Tree.size]
    omega

def finish (visit : Visit) : Elements :=
  if visit.pending.isEmpty then visit.found else visit.step.finish
termination_by visit.weight
decreasing_by
  have := weight_pos ‹_›
  have := weight_step visit
  omega

end Visit

def visited (tree : Tree) : Elements := (Visit.start tree).finish

/-- Marks the components that the text exports by default under their own name. -/
def markDefaultExports (elements : Elements) : Elements :=
  let defaults := (elements.exports.filter fun entry => entry.exportType == "default").map
    Export.name
  { elements with
    components := elements.components.map fun component =>
      if defaults.contains component.name then { component with isDefaultExport := true }
      else component }

def elementsOf (tree : Tree) : Elements := markDefaultExports (visited tree)

end CodeAtlas.Source
