import CodeAtlas.Proofs.Contexts.Names
import CodeAtlas.Proofs.Distinct
import CodeAtlas.Proofs.Runs
import CodeAtlas.Proofs.Sorted

/-! Lists of contexts. There is one entry for each context that holds a node, in the order of the
strings. The branches of a project are told by the beginning of the string, which is the project
itself as long as its name has no separator. -/
namespace CodeAtlas.Contexts

open CodeAtlas.BranchContext
open CodeAtlas.Graph

variable {graph : Graph} {entry : Summary} {context project : String} {store : Store}

theorem summaries_increase (graph : Graph) :
    (summaries graph).Pairwise fun a b => a.context < b.context :=
  List.pairwise_map.mpr (sorted_distinct _)

theorem mem_summaries : entry ∈ summaries graph ↔
    (∃ node ∈ graph.nodes, node.context = entry.context) ∧
      entry.nodes = graph.nodesOf entry.context := by
  simp only [summaries, List.mem_map, List.mem_mergeSort, mem_distinct]
  constructor
  · rintro ⟨_, held, rfl⟩
    exact ⟨held, rfl⟩
  · rintro ⟨held, nodes⟩
    exact ⟨entry.context, held, by rw [← nodes]⟩

/-- Every node is in a context that a project and a branch resolve to. -/
def AllResolved (graph : Graph) : Prop := ∀ node ∈ graph.nodes, Resolved node.context

theorem entry_proper (resolved : AllResolved graph) (mem : entry ∈ summaries graph) :
    entry.branchContext.Proper ∧ entry.branchContext.key = entry.context := by
  obtain ⟨⟨node, inside, same⟩, -⟩ := mem_summaries.mp mem
  obtain ⟨context, proper, key⟩ := resolved_iff.mp (resolved node inside)
  have parsed : entry.branchContext = context := by
    rw [Summary.branchContext, ← same, ← key, proper.parse_key]
  exact ⟨parsed ▸ proper, parsed ▸ key.trans same⟩

theorem branches_increase (resolved : AllResolved graph) {keep : Summary → Bool}
    (same : ∀ a ∈ summaries graph, ∀ b ∈ summaries graph, keep a = true → keep b = true →
      a.branchContext.project = b.branchContext.project) :
    ((summaries graph).filter keep).Pairwise fun a b =>
      a.branchContext.branch < b.branchContext.branch := by
  have increase := (summaries_increase graph).filter keep
  refine increase.imp_of_mem fun {a b} ha hb lt => ?_
  obtain ⟨ha, kept⟩ := List.mem_filter.mp ha
  obtain ⟨hb, kept'⟩ := List.mem_filter.mp hb
  rw [← key_lt_iff (same a ha b hb kept kept'), (entry_proper resolved ha).2,
    (entry_proper resolved hb).2]
  exact lt

theorem branches_own (resolved : AllResolved graph) (unseparated : separator ∉ project.toList) :
    branchesOf graph project =
      (summaries graph).filter fun entry => entry.branchContext.project = project := by
  refine List.filter_congr fun entry mem => ?_
  obtain ⟨proper, key⟩ := entry_proper resolved mem
  rw [Bool.eq_iff_iff, ← key, starts_own unseparated proper, decide_eq_true_eq]

theorem branches_within {front rest : String} (resolved : AllResolved graph)
    (unseparated : separator ∉ front.toList) :
    branchesOf graph (front ++ ":" ++ rest) = (summaries graph).filter fun entry =>
      entry.branchContext.project = front &&
        Text.startsWith (rest ++ ":") entry.branchContext.branch := by
  refine List.filter_congr fun entry mem => ?_
  obtain ⟨proper, key⟩ := entry_proper resolved mem
  rw [Bool.eq_iff_iff, ← key, starts_within unseparated proper, Bool.and_eq_true,
    decide_eq_true_eq]

theorem split_at_separator (name : String) : separator ∉ name.toList ∨
    ∃ front rest : String, name = front ++ ":" ++ rest ∧ separator ∉ front.toList := by
  by_cases separated : separator ∈ name.toList
  · obtain ⟨front, rest, parts, unseparated⟩ := List.eq_append_cons_of_mem separated
    refine .inr ⟨String.ofList front, String.ofList rest, ?_, by simpa using unseparated⟩
    rw [← String.toList_inj, parts]
    simp [separator]
  · exact .inl separated

/-- What is listed as the branches of a project is told by the name alone. A name without separator
gives the entries of that project. A name with one gives entries of the project before the first
separator: those whose branch begins with the rest of the name and one separator more. Either way
they are listed in the order of their branches. -/
theorem listed_by_prefix (store : Store) (resolved : AllResolved store.graph) (project : String)
    (given : project ≠ "") (listed : List Summary) (after : Store)
    (done : listBranches (some project) store = (.ok listed, after)) :
    ∃ entries, list store = (.ok entries, store) ∧ after = store ∧
      (separator ∉ project.toList →
        listed = entries.filter fun entry => entry.branchContext.project = project) ∧
      (∀ front rest, project = front ++ ":" ++ rest → separator ∉ front.toList →
        listed = entries.filter fun entry => entry.branchContext.project = front &&
          Text.startsWith (rest ++ ":") entry.branchContext.branch) ∧
      listed.Pairwise fun a b => a.branchContext.branch < b.branchContext.branch := by
  obtain ⟨graph, isOpen⟩ := store
  have asked : require "list-branches" [("project", isGiven (some project))] = .ok () := by
    simp [require, missing, isGiven, given]
  rw [listBranches, asked] at done
  cases isOpen with
  | false => cases (Prod.mk.inj done).1
  | true =>
    obtain ⟨answered, rfl⟩ := Prod.mk.inj done
    obtain rfl : branchesOf graph project = listed := Except.ok.inj answered
    refine ⟨summaries graph, rfl, rfl, branches_own resolved, ?_, ?_⟩
    · rintro front rest rfl unseparated
      exact branches_within resolved unseparated
    · rcases split_at_separator project with unseparated | ⟨front, rest, rfl, unseparated⟩
      · rw [branches_own resolved unseparated]
        refine branches_increase resolved fun a _ b _ kept kept' => ?_
        exact (of_decide_eq_true kept).trans (of_decide_eq_true kept').symm
      · rw [branches_within resolved unseparated]
        refine branches_increase resolved fun a _ b _ kept kept' => ?_
        rw [Bool.and_eq_true, decide_eq_true_eq] at kept kept'
        exact kept.1.trans kept'.1.symm

def oneBranch : Store where
  graph := Runs.run
    [⟨{ now := 1 }, .indexFunctions [⟨"f", "{}", none⟩] "typescript" (some "a") (some "b:c")⟩]

theorem one_branch_resolved : AllResolved oneBranch.graph := by
  have contexts : ∀ node ∈ oneBranch.graph.nodes, node.context = "a:b:c" := by decide +kernel
  exact fun node mem => ⟨some "a", some "b:c", by rw [contexts node mem]; rfl⟩

/-- The branch is listed for its project. -/
theorem own_branch_listed : ∃ listed, listBranches (some "a") oneBranch = (.ok listed, oneBranch) ∧
    listed = (summaries oneBranch.graph).filter (fun entry => entry.branchContext.project = "a") ∧
    listed.map (·.branchContext.branch) = ["b:c"] := by
  have done : listBranches (some "a") oneBranch =
      (.ok (branchesOf oneBranch.graph "a"), oneBranch) := rfl
  obtain ⟨entries, all, -, own, -, -⟩ :=
    listed_by_prefix oneBranch one_branch_resolved "a" (by decide) _ _ done
  obtain rfl : summaries oneBranch.graph = entries := Except.ok.inj (Prod.mk.inj all).1
  exact ⟨_, done, own (by decide), by decide +kernel⟩

/-- The branch is listed for a project of another name as well. -/
theorem foreign_branch_listed :
    ¬ ∀ (store : Store) (project : String), AllResolved store.graph → project ≠ "" →
      ∀ entries listed, list store = (.ok entries, store) →
        listBranches (some project) store = (.ok listed, store) →
          ∀ entry, entry ∈ listed ↔ entry ∈ entries ∧ entry.branchContext.project = project := by
  intro claimed
  have shown : (branchesOf oneBranch.graph "a:b").map (·.branchContext.project) = ["a"] := by
    decide +kernel
  obtain ⟨entry, alone, project⟩ := List.map_eq_singleton_iff.mp shown
  have mem : entry ∈ branchesOf oneBranch.graph "a:b" := by simp [alone]
  obtain ⟨-, same⟩ :=
    (claimed oneBranch "a:b" one_branch_resolved (by decide) _ _ rfl rfl entry).mp mem
  exact absurd (project.symm.trans same) (by decide)

end CodeAtlas.Contexts
