import CodeAtlas.Proofs.Distinct
import CodeAtlas.Proofs.Graph.Identity
import CodeAtlas.Proofs.Graph.Lookup
import CodeAtlas.Proofs.Runs
import CodeAtlas.Proofs.Sorted
import CodeAtlas.Review.Comparison
import Mathlib.Data.Prod.Lex
import Mathlib.Data.String.Basic

/-! Comparing branches. The functions and classes of two branches are divided into those of the one,
those of the other and those of both; each part is in order, and which branch is named first only
decides which side is which. -/
namespace CodeAtlas.Review

open CodeAtlas.Graph

/-! The order of elements. -/

namespace ComparedElement

def rank (element : ComparedElement) : String ×ₗ String :=
  toLex (element.label.name, element.name)

theorem rank_injective : Function.Injective rank := by
  rintro ⟨label, name⟩ ⟨label', name'⟩ same
  obtain ⟨labels, names⟩ := Prod.mk.inj (toLex.injective same)
  rw [ComparedElement.mk.injEq]
  exact ⟨label_name_injective labels, names⟩

theorem le_reads_rank (a b : ComparedElement) : le a b = decide (a.rank ≤ b.rank) := by
  rw [le, rank, rank, Bool.eq_iff_iff, decide_eq_true_eq, Prod.Lex.toLex_le_toLex]
  by_cases same : a.label = b.label
  · simp [same]
  · have names : a.label.name ≠ b.label.name := fun eq => same (label_name_injective eq)
    simp [same, names, le_iff_lt_or_eq]

end ComparedElement

def indexedElements (graph : Graph) (context : String) : Set ComparedElement :=
  { element | element.label ∈ [Label.function, .classDef] ∧ ∃ node ∈ graph.nodes,
    node.isStub = false ∧ node.label = element.label ∧ node.displayName = element.name ∧
      node.context = context }

variable {graph : Graph} {context : String} {element : ComparedElement}

theorem mem_elements_of : element ∈ elementsOf graph context ↔
    element ∈ indexedElements graph context := by
  obtain ⟨label, name⟩ := element
  rw [elementsOf, List.mem_mergeSort, mem_distinct, List.mem_append]
  simp only [List.mem_map, List.mem_filter, mem_nodesWith, Bool.not_eq_true', indexedElements,
    Set.mem_ofPred_eq, List.mem_cons, List.not_mem_nil, or_false, ComparedElement.mk.injEq]
  constructor
  · rintro (⟨node, ⟨⟨inside, labels, context⟩, defined⟩, rfl, shows⟩ |
      ⟨node, ⟨⟨inside, labels, context⟩, defined⟩, rfl, shows⟩)
    · exact ⟨.inl rfl, node, inside, defined, labels, shows, context⟩
    · exact ⟨.inr rfl, node, inside, defined, labels, shows, context⟩
  · rintro ⟨rfl | rfl, node, inside, defined, labels, shows, context⟩
    · exact .inl ⟨node, ⟨⟨inside, labels, context⟩, defined⟩, rfl, shows⟩
    · exact .inr ⟨node, ⟨⟨inside, labels, context⟩, defined⟩, rfl, shows⟩

theorem elements_increase (graph : Graph) (context : String) :
    (elementsOf graph context).Pairwise fun a b => a.rank < b.rank := by
  apply increasing_by_rank fun a _ b _ => ComparedElement.le_reads_rank a b
  exact (nodup_distinct _).map ComparedElement.rank_injective

/-! Comparisons. -/

/-- Two sets of elements are divided by a comparison: each part is in order, no element is in two of
them, and the counts are those of the two sets. -/
structure Comparison.Divides (comparison : Comparison) (source target : Set ComparedElement) :
    Prop where
  increasing : ∀ part ∈ [comparison.onlyInSource, comparison.onlyInTarget, comparison.inBoth],
    part.Pairwise fun a b => a.rank < b.rank
  disjoint : [comparison.onlyInSource, comparison.onlyInTarget, comparison.inBoth].Pairwise
    List.Disjoint
  only_in_source : ∀ element, element ∈ comparison.onlyInSource ↔ element ∈ source \ target
  only_in_target : ∀ element, element ∈ comparison.onlyInTarget ↔ element ∈ target \ source
  in_both : ∀ element, element ∈ comparison.inBoth ↔ element ∈ source ∩ target
  whole : ∀ element, element ∈ comparison.onlyInSource ++ comparison.onlyInTarget ++
    comparison.inBoth ↔ element ∈ source ∪ target
  source_count : comparison.sourceCount =
    comparison.onlyInSource.length + comparison.inBoth.length
  target_count : comparison.targetCount =
    comparison.onlyInTarget.length + comparison.inBoth.length

def Comparison.swapped (comparison : Comparison) : Comparison where
  sourceCount := comparison.targetCount
  targetCount := comparison.sourceCount
  onlyInSource := comparison.onlyInTarget
  onlyInTarget := comparison.onlyInSource
  inBoth := comparison.inBoth

variable {source target : String}

/-- The elements of one list are those that another list lacks and those that it has. -/
theorem length_divided (elements other : List ComparedElement) :
    elements.length = (elements.filter fun element => !other.contains element).length +
      (elements.filter other.contains).length := by
  rw [Nat.add_comm]
  exact List.length_eq_length_filter_add other.contains

theorem common_elements (graph : Graph) (source target : String) :
    (elementsOf graph source).filter (elementsOf graph target).contains =
      (elementsOf graph target).filter (elementsOf graph source).contains := by
  apply eq_of_increasing ((elements_increase graph source).filter _)
    ((elements_increase graph target).filter _)
  intro element
  simp [and_comm]

theorem contexts_divided (graph : Graph) (source target : String) :
    (compareContexts graph source target).Divides (indexedElements graph source)
      (indexedElements graph target) := by
  have left : ∀ element, element ∈ (compareContexts graph source target).onlyInSource ↔
      element ∈ indexedElements graph source \ indexedElements graph target := by
    intro element
    simp [compareContexts, mem_elements_of]
  have right : ∀ element, element ∈ (compareContexts graph source target).onlyInTarget ↔
      element ∈ indexedElements graph target \ indexedElements graph source := by
    intro element
    simp [compareContexts, mem_elements_of]
  have both : ∀ element, element ∈ (compareContexts graph source target).inBoth ↔
      element ∈ indexedElements graph source ∩ indexedElements graph target := by
    intro element
    simp [compareContexts, mem_elements_of]
  constructor
  case increasing =>
    intro part mem
    simp only [List.mem_cons, List.not_mem_nil, or_false] at mem
    rcases mem with rfl | rfl | rfl <;> exact (elements_increase graph _).filter _
  case disjoint =>
    simp only [List.pairwise_cons, List.mem_cons, List.not_mem_nil, or_false, List.disjoint_left]
    refine ⟨?_, ?_, fun _ none => none.elim, List.Pairwise.nil⟩
    · rintro part (rfl | rfl) element mem other
      · exact ((left element).mp mem).2 ((right element).mp other).1
      · exact ((left element).mp mem).2 ((both element).mp other).2
    · rintro part rfl element mem other
      exact ((right element).mp mem).2 ((both element).mp other).1
  case only_in_source => exact left
  case only_in_target => exact right
  case in_both => exact both
  case whole =>
    intro element
    rw [List.mem_append, List.mem_append, left, right, both]
    simp only [Set.mem_sdiff, Set.mem_inter_iff, Set.mem_union]
    tauto
  case source_count => exact length_divided _ _
  case target_count =>
    rw [compareContexts, common_elements]
    exact length_divided _ _

theorem contexts_swapped (graph : Graph) (source target : String) :
    compareContexts graph target source = (compareContexts graph source target).swapped := by
  rw [compareContexts, compareContexts, Comparison.swapped, common_elements]

theorem same_context (graph : Graph) (context : String) :
    (compareContexts graph context context).onlyInSource = [] ∧
      (compareContexts graph context context).onlyInTarget = [] := by
  have none : (elementsOf graph context).filter
      (fun element => !(elementsOf graph context).contains element) = [] := by
    apply List.filter_eq_nil_iff.mpr
    intro element mem
    simpa using mem
  exact ⟨none, none⟩

theorem compare_settled {project source target : Option String} {here there : BranchContext}
    (begins : BranchContext.resolve project source = .ok here)
    (ends : BranchContext.resolve project target = .ok there) (graph : Graph) :
    compareBranches project source target ⟨graph, true⟩ =
      (.ok (compareContexts graph here.key there.key), ⟨graph, true⟩) := by
  rw [compareBranches, begins, ends]
  rfl

/-- Comparing two branches of a project divides what is indexed in them. Naming the branches the
other way round swaps the sides and changes nothing else, and a branch compared with itself, under
whatever names, has nothing of its own. -/
theorem branches_divided (graph : Graph) (project source target : Option String)
    (here there : BranchContext) (begins : BranchContext.resolve project source = .ok here)
    (ends : BranchContext.resolve project target = .ok there) :
    ∃ comparison,
      compareBranches project source target ⟨graph, true⟩ = (.ok comparison, ⟨graph, true⟩) ∧
      comparison.Divides (indexedElements graph here.key) (indexedElements graph there.key) ∧
      compareBranches project target source ⟨graph, true⟩ =
        (.ok comparison.swapped, ⟨graph, true⟩) ∧
      (here = there → comparison.onlyInSource = [] ∧ comparison.onlyInTarget = []) := by
  refine ⟨compareContexts graph here.key there.key, compare_settled begins ends graph,
    contexts_divided graph here.key there.key, ?_, ?_⟩
  · rw [compare_settled ends begins, contexts_swapped]
  · rintro rfl
    exact same_context graph here.key

/-- A function in two languages that calls another one, and a class of its name; in a second branch
the function again, with the one that it calls. -/
def twoBranches : Graph :=
  Runs.run [
    ⟨{ now := 1 }, .indexElements
      { functions := [⟨"draw", "{ clip() }"⟩], classes := [⟨"draw", ""⟩] } "a.ts" "typescript" none
      none⟩,
    ⟨{ now := 2 }, .indexFunctions [⟨"draw", "", none⟩] "python" none none⟩,
    ⟨{ now := 3 }, .indexFunctions [⟨"draw", "", none⟩, ⟨"clip", "", none⟩] "typescript" none
      (some "next")⟩]

theorem two_branches_rows : twoBranches.nodes.map (fun node => (node.label, node.displayName,
    node.context, node.isStub)) = [(.file, "a.ts", "default:main", false),
      (.function, "draw", "default:main", false), (.classDef, "draw", "default:main", false),
      (.function, "clip", "default:main", true), (.function, "draw", "default:main", false),
      (.function, "draw", "default:next", false), (.function, "clip", "default:next", false)] := by
  decide +kernel

theorem mem_two_branches : element ∈ indexedElements twoBranches context ↔
    (element.label, element.name, context) ∈ [(Label.function, "draw", "default:main"),
      (.classDef, "draw", "default:main"), (.function, "draw", "default:next"),
      (.function, "clip", "default:next")] := by
  have rows : element ∈ indexedElements twoBranches context ↔
      element.label ∈ [Label.function, .classDef] ∧ (element.label, element.name, context, false) ∈
        twoBranches.nodes.map fun node =>
          (node.label, node.displayName, node.context, node.isStub) := by
    simp only [indexedElements, Set.mem_ofPred_eq, List.mem_map, Prod.mk.injEq]
    tauto
  rw [rows, two_branches_rows]
  grind

/-- The function that is only called does not count for the first branch. -/
theorem two_branches_divided : ∃ comparison,
    compareBranches none (some "") (some "next") ⟨twoBranches, true⟩ =
        (.ok comparison, ⟨twoBranches, true⟩) ∧
      compareBranches none (some "next") (some "") ⟨twoBranches, true⟩ =
        (.ok comparison.swapped, ⟨twoBranches, true⟩) ∧
      ⟨.classDef, "draw"⟩ ∈ comparison.onlyInSource ∧
      ⟨.function, "clip"⟩ ∈ comparison.onlyInTarget ∧
      ⟨.function, "draw"⟩ ∈ comparison.inBoth := by
  obtain ⟨comparison, compared, divides, swapped, -⟩ := branches_divided twoBranches none (some "")
    (some "next") ⟨"default", "main"⟩ ⟨"default", "next"⟩ rfl rfl
  refine ⟨comparison, compared, swapped, ?_, ?_, ?_⟩
  · rw [divides.only_in_source, Set.mem_sdiff, mem_two_branches, mem_two_branches]
    decide
  · rw [divides.only_in_target, Set.mem_sdiff, mem_two_branches, mem_two_branches]
    decide
  · rw [divides.in_both, Set.mem_inter_iff, mem_two_branches, mem_two_branches]
    decide

end CodeAtlas.Review
