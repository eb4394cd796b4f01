import CodeAtlas.Proofs.Graph.Effects
import CodeAtlas.Proofs.WellFormed

/-! Nodes over time. As long as its context is not emptied a node stays, whatever is written: it
keeps what identifies it and when it was created, its time of change moves forward only, also under
a clock that is put back, and once it is written it is no stub again. -/
namespace CodeAtlas.Graph

/-- A node and what may have become of it later. -/
structure Node.Ages (node later : Node) : Prop where
  id : later.id = node.id
  identity : later.identity = node.identity
  createdAt : later.createdAt = node.createdAt
  updatedAt : node.updatedAt ≤ later.updatedAt
  written : node.isStub = false → later.isStub = false

def Keeps (kept : String → Prop) (before after : Graph) : Prop :=
  ∀ node ∈ before.nodes, kept node.context → ∃ later ∈ after.nodes, node.Ages later

variable {here : Conditions} {graph after : Graph} {kept : String → Prop}

theorem Node.Ages.refl (node : Node) : node.Ages node :=
  ⟨rfl, rfl, rfl, Int.le_refl _, fun written => written⟩

theorem Node.Ages.trans {node later last : Node} (h : node.Ages later) (rest : later.Ages last) :
    node.Ages last where
  id := rest.id.trans h.id
  identity := rest.identity.trans h.identity
  createdAt := rest.createdAt.trans h.createdAt
  updatedAt := h.updatedAt.trans rest.updatedAt
  written written := rest.written (h.written written)

theorem Node.ages_overwritten (node : Node) (given : Attributes) (now : Int) :
    node.Ages (node.overwritten given now) where
  id := rfl
  identity := rfl
  createdAt := rfl
  updatedAt := le_max_right _ _
  written _ := rfl

theorem Keeps.trans {first second third : Graph} (h : Keeps kept first second)
    (rest : Keeps kept second third) : Keeps kept first third := by
  intro node mem inside
  obtain ⟨later, mem, ages⟩ := h node mem inside
  have context : later.context = node.context := congrArg Identity.context ages.identity
  obtain ⟨last, mem, ages'⟩ := rest later mem (context ▸ inside)
  exact ⟨last, mem, ages.trans ages'⟩

theorem keeps_of_subset (nodes : graph.nodes ⊆ after.nodes) : Keeps kept graph after :=
  fun node mem _ => ⟨node, nodes mem, .refl node⟩

theorem keeps_overwritten (wf : WellFormed graph) {label : Label} {id : String} {node : Node}
    (found : graph.node? label id = some node) (given : Attributes) (now : Int) :
    Keeps kept graph (graph.setNode label id (node.overwritten given now)) := by
  intro other mem _
  by_cases hit : other.label = label ∧ other.id = id
  · obtain ⟨known, -, ids⟩ := node?_eq_some found
    obtain rfl := wf.eq_of_id mem known (hit.2.trans ids.symm)
    exact ⟨_, mem_setNode_self found, other.ages_overwritten given now⟩
  · exact ⟨other, mem_setNode_of_ne mem hit, .refl other⟩

theorem keeps_without {context : String} (apart : ¬ kept context) :
    Keeps kept graph (graph.without context) := by
  intro node mem inside
  refine ⟨node, mem_nodes_without.mpr ⟨mem, ?_⟩, .refl node⟩
  rintro rfl
  exact apart inside

theorem keeps_moves (here : Conditions) (kept : String → Prop) : PrimitiveMoves here
    fun before after => WellFormed before → WellFormed after ∧ Keeps kept before after where
  refl graph wf := ⟨wf, keeps_of_subset (List.Subset.refl _)⟩
  trans first second wf := by
    obtain ⟨wf, keeps⟩ := first wf
    obtain ⟨wf, keeps'⟩ := second wf
    exact ⟨wf, keeps.trans keeps'⟩
  upsert identity given proper graph created after done wf := by
    refine ⟨(well_formed_moves here).upsert identity given proper _ _ _ done wf, ?_⟩
    rcases upsert_cases done with ⟨-, -, -, rfl⟩ | ⟨node, found, -, -, rfl⟩
    · exact keeps_of_subset (List.subset_append_left _ _)
    · exact keeps_overwritten wf found given here.now
  ensure identity proper graph created after done wf :=
    ⟨(well_formed_moves here).ensure identity proper _ _ _ done wf,
      keeps_of_subset (ensure_keeps_nodes done)⟩
  link type source target context properties graph value after done wf := by
    refine ⟨(well_formed_moves here).link _ _ _ _ _ _ _ _ done wf, ?_⟩
    obtain ⟨-, -, -, rfl⟩ := link_cases done
    refine keeps_of_subset ?_
    rw [nodes_joined]
    exact List.Subset.refl _

end CodeAtlas.Graph

namespace CodeAtlas.Runs

open CodeAtlas.Graph

def Spare (steps : List Step) (context : String) : Prop :=
  ∀ step ∈ steps, step.operation.empties? ≠ some context

instance (steps : List Step) (context : String) : Decidable (Spare steps context) :=
  inferInstanceAs (Decidable (∀ step ∈ steps, step.operation.empties? ≠ some context))

theorem step_keeps {step : Step} {graph : Graph} {kept : String → Prop} (wf : WellFormed graph)
    (spare : ∀ context, kept context → step.operation.empties? ≠ some context) :
    WellFormed (step.after graph) ∧ Keeps kept graph (step.after graph) := by
  refine (keeps_moves step.here kept).operation_emptying (fun context emptied wf => ?_) wf
  exact ⟨wf.without context, keeps_without fun inside => spare context inside emptied⟩

/-- What is there after a run is still there after more steps that spare its context. -/
theorem steps_keep (more : List Step) {graph : Graph} (wf : WellFormed graph) :
    Keeps (Spare more) graph (more.foldl (fun graph step => step.after graph) graph) := by
  have kept : WellFormed (more.foldl (fun graph step => step.after graph) graph) ∧
      Keeps (Spare more) graph (more.foldl (fun graph step => step.after graph) graph) := by
    refine List.foldlRecOn more _ (motive := fun last => WellFormed last ∧
      Keeps (Spare more) graph last) ⟨wf, keeps_of_subset (List.Subset.refl _)⟩ ?_
    rintro last ⟨wf, keeps⟩ step mem
    obtain ⟨wf, keeps'⟩ : WellFormed (step.after last) ∧
        Keeps (Spare more) last (step.after last) :=
      step_keeps wf fun context spare => spare step mem
    exact ⟨wf, keeps.trans keeps'⟩
  exact kept.2

end CodeAtlas.Runs
