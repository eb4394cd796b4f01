import CodeAtlas.Proofs.Contexts.Listing
import CodeAtlas.Proofs.Isolation.Tables
import CodeAtlas.Proofs.Review.Relations
import Mathlib.Algebra.BigOperators.Group.List.Lemmas

/-! Accounts of contexts. The list of contexts, the counts of an analysis and the numbers that
creating and removing a context answer with all count the same nodes, and what is removed is what
was counted. -/
namespace CodeAtlas.Contexts

open CodeAtlas.BranchContext
open CodeAtlas.Graph
open CodeAtlas.Review (AnalysisType HoldsUnreadable)

variable {graph : Graph} {entry : Summary} {context : String} {project branch : Option String}

/-! Counting. -/

theorem count_entry (mem : entry ∈ summaries graph) (label : Label) :
    entry.countOf label = (graph.nodesWith label entry.context).length := by
  rw [Summary.countOf, (mem_summaries.mp mem).2, nodesOf, nodesWith, List.filter_filter]

theorem total_entry (mem : entry ∈ summaries graph) :
    entry.total = (graph.nodesOf entry.context).length := by
  rw [Summary.total, (mem_summaries.mp mem).2]

theorem sum_node_counts (graph : Graph) (context : String) :
    ((Review.nodeCounts graph context).map (·.2)).sum = (graph.nodesOf context).length := by
  have shown : ∀ counts : List (Label × Nat),
      ((counts.filter fun pair => pair.2 ≠ 0).map (·.2)).sum = (counts.map (·.2)).sum := by
    intro counts
    induction counts with
    | nil => rfl
    | cons pair counts ih =>
      by_cases zero : pair.2 = 0 <;> simp_all
  rw [Review.nodeCounts, ((List.mergeSort_perm _ _).map _).sum_eq, length_nodesOf]
  refine (shown _).trans ?_
  rw [List.map_map]
  rfl

theorem length_nodesOf_count (graph : Graph) (context : String) :
    (graph.nodesOf context).length = (graph.nodes.map (·.context)).count context := by
  rw [nodesOf, ← List.countP_eq_length_filter, List.count, List.countP_map]
  exact List.countP_congr fun node _ => by simp

theorem sum_totals (graph : Graph) :
    ((summaries graph).map Summary.total).sum = graph.nodes.length := by
  let contexts := graph.nodes.map (·.context)
  have once : ((distinct contexts).mergeSort fun a b => decide (a ≤ b)).Perm contexts.dedup :=
    (List.mergeSort_perm _ _).trans <|
      (List.perm_ext_iff_of_nodup (nodup_distinct _) (List.nodup_dedup _)).mpr (by simp)
  calc ((summaries graph).map Summary.total).sum
      = (((distinct contexts).mergeSort fun a b => decide (a ≤ b)).map
          fun context => contexts.count context).sum := by
        rw [summaries, List.map_map]
        exact congrArg List.sum
          (List.map_congr_left fun context _ => length_nodesOf_count graph context)
    _ = (contexts.dedup.map fun context => contexts.count context).sum := (once.map _).sum_eq
    _ = graph.nodes.length := by rw [List.sum_map_count_dedup_eq_length, List.length_map]

/-! Removing. -/

theorem nodesOf_without {removed : String} (apart : context ≠ removed) :
    (graph.without removed).nodesOf context = graph.nodesOf context := by
  rw [nodesOf, nodesOf, without, List.filter_filter]
  refine List.filter_congr fun node _ => ?_
  by_cases inside : node.context = context <;> simp [inside, apart]

/-- After a context is removed its entry is gone, and the others are as they were. -/
theorem summaries_without (graph : Graph) (removed : String) :
    summaries (graph.without removed) =
      (summaries graph).filter fun entry => entry.context ≠ removed := by
  let names (graph : Graph) : List String :=
    (distinct (graph.nodes.map (·.context))).mergeSort fun a b => decide (a ≤ b)
  have left : names (graph.without removed) =
      (names graph).filter fun context => context ≠ removed := by
    have increase : ((names graph).filter fun context => context ≠ removed).Pairwise
        fun a b => id a < id b := (sorted_distinct _).filter _
    have increase' : (names (graph.without removed)).Pairwise fun a b => id a < id b :=
      sorted_distinct _
    refine eq_of_increasing increase' increase fun context => ?_
    simp only [names, List.mem_filter, List.mem_mergeSort, mem_distinct, List.mem_map,
      mem_nodes_without, decide_eq_true_eq]
    constructor
    · rintro ⟨node, ⟨mem, apart⟩, rfl⟩
      exact ⟨⟨node, mem, rfl⟩, apart⟩
    · rintro ⟨⟨node, mem, rfl⟩, apart⟩
      exact ⟨node, ⟨mem, apart⟩, rfl⟩
  rw [summaries, summaries, List.filter_map]
  refine Eq.trans (List.map_congr_left fun context mem => ?_) (congrArg _ left)
  have kept : context ∈ names (graph.without removed) := mem
  rw [left] at kept
  rw [nodesOf_without (of_decide_eq_true (List.mem_filter.mp kept).2)]

/-- One graph is another one after everything in a context was taken out: the nodes of the context,
and the edges that begin or end at one of them. -/
structure Removed (context : String) (graph after : Graph) : Prop where
  nodes : after.nodes = graph.nodes.filter fun node => node.context ≠ context
  edges : after.edges = graph.edges.filter fun edge =>
    ∀ node ∈ graph.nodesOf context, edge.source ≠ node.id ∧ edge.target ≠ node.id

theorem removed_without (graph : Graph) (context : String) :
    Removed context graph (graph.without context) where
  nodes := rfl
  edges := by
    rw [without]
    refine List.filter_congr fun edge _ => ?_
    rw [Bool.eq_iff_iff, decide_eq_true_eq, Bool.and_eq_true, Bool.not_eq_true', Bool.not_eq_true',
      ← Bool.not_eq_true, ← Bool.not_eq_true, List.contains_iff_mem, List.contains_iff_mem]
    simp only [List.mem_map, not_exists, not_and, forall_and, ne_comm]

/-! Accounts. -/

/-- What is known of an entry: its project and branch resolve to its context again, and under these
two names creating, removing and analysing agree with it. An analysis is refused only when it lists
imports and one of the context has a list that cannot be read. -/
structure Accounted (graph : Graph) (entry : Summary) (project branch : Option String) : Prop where
  settled : Indexing.contextKey project branch = .ok entry.context
  created : perform .create project branch ⟨graph, true⟩ = (.ok entry.total, ⟨graph, true⟩)
  removed : ∀ action ∈ [Action.delete, Action.clear],
    (perform action project branch ⟨graph, true⟩).1 = .ok entry.total
  analysed : ∀ (analysis : AnalysisType) element,
    (∃ report, Review.analyze project branch analysis.name element ⟨graph, true⟩ =
        (.ok report, ⟨graph, true⟩) ∧ (report.nodeCounts.map (·.2)).sum = entry.total) ∨
      (analysis.ListsImports ∧ HoldsUnreadable graph entry.context ∧
        Review.analyze project branch analysis.name element ⟨graph, true⟩ =
          (.error .malformedList, ⟨graph, true⟩))
  files : entry.files = (graph.nodesWith .file entry.context).length
  functions : entry.functions = (graph.nodesWith .function entry.context).length
  classes : entry.classes = (graph.nodesWith .classDef entry.context).length
  components : entry.components = (graph.nodesWith .component entry.context).length

theorem required_of_proper {context : BranchContext} (proper : context.Proper) (action : Action) :
    required action (some context.project) (some context.branch) = .ok context.key := by
  have given : require action.name [("project", isGiven (some context.project)),
      ("branch", isGiven (some context.branch))] = .ok () := by
    simp [require, missing, isGiven, proper.project, proper.branch]
  rw [required, given]
  exact proper.key_settled

theorem perform_create (settled : required .create project branch = .ok context) (graph : Graph) :
    perform .create project branch ⟨graph, true⟩ =
      (.ok (graph.nodesOf context).length, ⟨graph, true⟩) := by
  rw [perform, settled]
  rfl

theorem perform_removal {action : Action} (removes : action ∈ [Action.delete, Action.clear])
    (settled : required action project branch = .ok context) (graph : Graph) :
    perform action project branch ⟨graph, true⟩ =
      (.ok (graph.nodesOf context).length, ⟨graph.without context, true⟩) := by
  rw [perform, settled]
  simp only [List.mem_cons, List.not_mem_nil, or_false] at removes
  rcases removes with rfl | rfl <;> rfl

theorem entry_accounted (resolved : AllResolved graph) (mem : entry ∈ summaries graph) :
    Accounted graph entry (some entry.branchContext.project) (some entry.branchContext.branch) := by
  obtain ⟨proper, key⟩ := entry_proper resolved mem
  have settled := key ▸ proper.key_settled
  have total := total_entry mem
  constructor
  case settled => exact settled
  case created =>
    rw [total]
    exact perform_create (key ▸ required_of_proper proper .create) graph
  case removed =>
    intro action removes
    rw [total, perform_removal removes (key ▸ required_of_proper proper action) graph]
  case analysed =>
    intro analysis element
    rw [Review.analyze_settled settled analysis element graph]
    cases analysed : Review.analyzeContext graph entry.context analysis element with
    | ok report =>
      refine .inl ⟨report, rfl, ?_⟩
      rw [(Review.analysis_ok analysed).2.2.1, sum_node_counts, total]
    | error error =>
      obtain ⟨rfl, imports, unreadable⟩ := Review.analysis_error analysed
      exact .inr ⟨imports, unreadable, rfl⟩
  case files | functions | classes | components => exact count_entry mem _

/-- The list of contexts, its entries and the removal of a context agree on what is where. -/
theorem contexts_accounted (graph : Graph) (resolved : AllResolved graph) :
    ∃ entries, list ⟨graph, true⟩ = (.ok entries, ⟨graph, true⟩) ∧
      entries.Pairwise (fun a b => a.context < b.context) ∧
      (∀ context, (∃ entry ∈ entries, entry.context = context) ↔
        ∃ node ∈ graph.nodes, node.context = context) ∧
      (∀ entry ∈ entries, Accounted graph entry (some entry.branchContext.project)
        (some entry.branchContext.branch)) ∧
      (entries.map Summary.total).sum = graph.nodes.length ∧
      ∀ action ∈ [Action.delete, Action.clear], ∀ project branch context,
        required action project branch = .ok context →
          ∃ after, perform action project branch ⟨graph, true⟩ =
              (.ok (graph.nodesOf context).length, ⟨after, true⟩) ∧
            Removed context graph after ∧
            list ⟨after, true⟩ =
              (.ok (entries.filter fun entry => entry.context ≠ context), ⟨after, true⟩) := by
  refine ⟨summaries graph, rfl, summaries_increase graph, ?_, fun entry => entry_accounted resolved,
    sum_totals graph, ?_⟩
  · intro context
    constructor
    · rintro ⟨entry, mem, rfl⟩
      exact (mem_summaries.mp mem).1
    · intro held
      exact ⟨⟨context, graph.nodesOf context⟩, mem_summaries.mpr ⟨held, rfl⟩, rfl⟩
  · intro action removes project branch context settled
    refine ⟨graph.without context, perform_removal removes settled graph,
      removed_without graph context, ?_⟩
    rw [← summaries_without]
    rfl

def unreadableImport : Graph :=
  Runs.run [
    ⟨{ now := 1 }, .indexFunctions [⟨"f", "{}", none⟩] "typescript" (some "a") (some "b:c")⟩,
    ⟨{ now := 2 }, .upsert ⟨"File", [("path", .text "a.ts")], [], "default:main"⟩⟩,
    ⟨{ now := 3 }, .ensureNode ⟨"Module", [("name", .text "m")], [], "default:main"⟩⟩,
    ⟨{ now := 4 }, .link "IMPORTS" (.byKey "File" [("path", .text "a.ts")])
      (.byKey "Module" [("name", .text "m")]) "default:main" [("imports", .text "oops")]⟩]

theorem unreadable_import_contexts :
    unreadableImport.nodes.map (·.context) = ["a:b:c", "default:main", "default:main"] := by
  decide +kernel

theorem unreadable_import_resolved : AllResolved unreadableImport := by
  intro node mem
  have inside : node.context ∈ unreadableImport.nodes.map (·.context) := List.mem_map_of_mem mem
  simp only [unreadable_import_contexts, List.mem_cons, List.not_mem_nil, or_false, or_self]
    at inside
  rcases inside with inside | inside <;> rw [inside]
  · exact ⟨some "a", some "b:c", rfl⟩
  · exact ⟨none, none, rfl⟩

theorem unreadable_import_held (mem : context ∈ ["a:b:c", "default:main", "default:main"]) :
    ∃ node ∈ unreadableImport.nodes, node.context = context := by
  rw [← unreadable_import_contexts] at mem
  exact List.mem_map.mp mem

/-- Both contexts are counted, and clearing one leaves the other one alone. -/
theorem two_contexts_accounted : ∃ entries,
    list ⟨unreadableImport, true⟩ = (.ok entries, ⟨unreadableImport, true⟩) ∧
      (∃ entry ∈ entries, entry.context = "a:b:c") ∧ (entries.map Summary.total).sum = 3 ∧
      ∃ after, perform .clear (some "default") (some "main") ⟨unreadableImport, true⟩ =
          (.ok 2, ⟨after, true⟩) ∧
        list ⟨after, true⟩ =
          (.ok (entries.filter fun entry => entry.context ≠ "default:main"), ⟨after, true⟩) := by
  obtain ⟨entries, listed, -, held, -, sum, removal⟩ :=
    contexts_accounted unreadableImport unreadable_import_resolved
  obtain ⟨after, cleared, -, left⟩ :=
    removal .clear (by decide) (some "default") (some "main") "default:main" rfl
  rw [length_nodesOf_count, unreadable_import_contexts] at cleared
  have all : unreadableImport.nodes.length = 3 := by
    rw [← List.length_map (·.context), unreadable_import_contexts]
    rfl
  exact ⟨entries, listed, (held "a:b:c").mpr (unreadable_import_held (by decide)), sum.trans all,
    after, cleared, left⟩

/-- A context is counted in the list where its analysis has no counts. -/
theorem counted_not_analysed :
    ¬ ∀ graph, AllResolved graph → ∀ entry ∈ summaries graph, ∃ report after,
      Review.analyze (some entry.branchContext.project) (some entry.branchContext.branch)
          AnalysisType.all.name none ⟨graph, true⟩ = (.ok report, after) ∧
        (report.nodeCounts.map (·.2)).sum = entry.total := by
  intro claimed
  let entry : Summary := ⟨"default:main", unreadableImport.nodesOf "default:main"⟩
  have mem : entry ∈ summaries unreadableImport := mem_summaries.mpr
    ⟨unreadable_import_held (by decide), rfl⟩
  have refused : (Review.analyze (some "default") (some "main") AnalysisType.all.name none
      ⟨unreadableImport, true⟩).1.toBool = false := by decide +kernel
  obtain ⟨report, after, answered, -⟩ :=
    claimed unreadableImport unreadable_import_resolved entry mem
  have parsed : entry.branchContext = ⟨"default", "main"⟩ := by decide +kernel
  rw [parsed] at answered
  rw [answered] at refused
  cases refused

end CodeAtlas.Contexts
