import CodeAtlas.Proofs.Graph.Effects
import CodeAtlas.Proofs.Relations.Inference

/-! Where a relationship ends: at a node that is known by name, else at a stub made for it. -/
namespace CodeAtlas.Relations

open CodeAtlas.Graph

variable {here : Conditions} {graph after : Graph} {label : Label} {name language context : String}
  {form : LanguageForm}

/-- The node that a relationship ends at when there is one already. An interface is known by its
identity, every other target by its name. -/
def knownTarget? (graph : Graph) (label : Label) (name language context : String)
    (form : LanguageForm := .text) : Option Node :=
  if label = .interface then
    graph.node? label (elementIdentity label name language context).id
  else targetNode? graph label name language context form

def hasNoStub (label : Label) (form : LanguageForm) : Prop :=
  label ≠ .interface ∧ form = .deepValue

instance : Decidable (hasNoStub label form) := inferInstanceAs (Decidable (_ ∧ _))

theorem resolve_as_apply : resolveTargetAs form here label name language context graph =
    match knownTarget? graph label name language context form with
    | some node => .ok ((⟨label, node.id⟩, false), graph)
    | none =>
      if hasNoStub label form then .error .tooDeep
      else match ensureNode here (elementIdentity label name language context) graph with
        | .ok (_, after) =>
          .ok (((elementIdentity label name language context).endpoint, true), after)
        | .error error => .error error := by
  change (match knownTarget? graph label name language context form with
    | some node => pure (⟨label, node.id⟩, false)
    | none => do
      if hasNoStub label form then throw .tooDeep
      let _ ← ensureNode here (elementIdentity label name language context)
      return ((elementIdentity label name language context).endpoint, true) :
    Write (Endpoint × Bool)) graph = _
  cases knownTarget? graph label name language context form with
  | some node => rfl
  | none =>
    dsimp only
    split_ifs
    · rfl
    · change (ensureNode here (elementIdentity label name language context) >>= fun _ =>
        pure ((elementIdentity label name language context).endpoint, true) :
        Write (Endpoint × Bool)) graph = _
      rw [write_bind_apply]
      cases ensureNode here (elementIdentity label name language context) graph <;> rfl

theorem resolve_apply : resolveTarget here label name language context graph =
    match knownTarget? graph label name language context with
    | some node => .ok ((⟨label, node.id⟩, false), graph)
    | none => match ensureNode here (elementIdentity label name language context) graph with
      | .ok (_, after) =>
        .ok (((elementIdentity label name language context).endpoint, true), after)
      | .error error => .error error := by
  rw [resolveTarget, resolve_as_apply, if_neg fun none => by cases none.2]

theorem target_node_known {node : Node}
    (h : knownTarget? graph label name language context form = some node) :
    node ∈ graph.nodes ∧ node.label = label ∧
      (node.id = (elementIdentity label name language context).id ∨
        (node.displayName = name ∧ node.context = context)) := by
  unfold knownTarget? targetNode? at h
  split_ifs at h
  · obtain ⟨mem, labelled, id⟩ := node?_eq_some h
    exact ⟨mem, labelled, .inl id⟩
  · have candidate : node ∈ (graph.nodesWith label context).filter fun node =>
        node.displayName = name := by
      rcases Option.or_eq_some_iff.mp h with found | ⟨-, first⟩
      · exact List.mem_of_find?_eq_some found
      · exact List.mem_of_head? first
    simp only [nodesWith, List.mem_filter, Bool.and_eq_true, decide_eq_true_eq] at candidate
    exact ⟨candidate.1.1, candidate.1.2.1, .inr ⟨candidate.2, candidate.1.2.2⟩⟩

theorem target_unknown (named : label ≠ .interface)
    (h : knownTarget? graph label name language context = none) {node : Node}
    (mem : node ∈ graph.nodes) (labelled : node.label = label) (inside : node.context = context) :
    node.displayName ≠ name := by
  intro shows
  rw [knownTarget?, if_neg named, targetNode?, Option.or_eq_none_iff] at h
  have candidate : node ∈ (graph.nodesWith label context).filter fun node =>
      node.displayName = name := by
    simpa [mem_nodesWith] using ⟨⟨mem, labelled, inside⟩, shows⟩
  rw [List.head?_eq_none_iff.mp h.2] at candidate
  cases candidate

/-- A successful resolution found a node and changed nothing, or made sure of a stub where no node
of that name was known. -/
theorem resolve_cases {target : Endpoint} {created : Bool}
    (h : resolveTarget here label name language context graph = .ok ((target, created), after)) :
    (∃ node, knownTarget? graph label name language context = some node ∧
      target = ⟨label, node.id⟩ ∧ created = false ∧ after = graph) ∨
    (knownTarget? graph label name language context = none ∧ created = true ∧
      target = (elementIdentity label name language context).endpoint ∧
      ∃ fresh, ensureNode here (elementIdentity label name language context) graph =
        .ok (fresh, after)) := by
  rw [resolve_apply] at h
  cases known : knownTarget? graph label name language context with
  | some node =>
    simp only [known, Except.ok.injEq, Prod.mk.injEq] at h
    obtain ⟨⟨rfl, rfl⟩, rfl⟩ := h
    exact .inl ⟨node, rfl, rfl, rfl, rfl⟩
  | none =>
    rw [known] at h
    cases made : ensureNode here (elementIdentity label name language context) graph with
    | error error => simp [made] at h
    | ok pair =>
      simp only [made, Except.ok.injEq, Prod.mk.injEq] at h
      obtain ⟨⟨rfl, rfl⟩, rfl⟩ := h
      exact .inr ⟨rfl, rfl, rfl, pair.1, rfl⟩

theorem resolve_error {error : Error}
    (h : resolveTargetAs form here label name language context graph = .error error) :
    error = Conditions.refusal ∨ error = .tooDeep ∧ hasNoStub label form ∧
      knownTarget? graph label name language context form = none := by
  rw [resolve_as_apply] at h
  cases known : knownTarget? graph label name language context form with
  | some node => simp [known] at h
  | none =>
    simp only [known] at h
    split_ifs at h with deep
    · exact .inr ⟨(Except.error.inj h).symm, deep, rfl⟩
    left
    cases made : ensureNode here (elementIdentity label name language context) graph with
    | error refused =>
      simp only [made, Except.error.injEq] at h
      exact h ▸ ensure_error made
    | ok pair => simp [made] at h

theorem target_label {target : Endpoint} {created : Bool}
    (h : resolveTargetAs form here label name language context graph =
      .ok ((target, created), after)) : target.label = label := by
  rw [resolve_as_apply] at h
  cases known : knownTarget? graph label name language context form with
  | some node =>
    simp only [known, Except.ok.injEq, Prod.mk.injEq] at h
    rw [← h.1.1]
  | none =>
    simp only [known] at h
    split_ifs at h
    cases made : ensureNode here (elementIdentity label name language context) graph with
    | error error => simp [made] at h
    | ok pair =>
      simp only [made, Except.ok.injEq, Prod.mk.injEq] at h
      rw [← h.1.1]
      exact label_elementIdentity label name language context

theorem relationship_error {relationship : Relationship} {error : Error}
    (kind : relationship.kind ∈ inferredKinds)
    (h : writeRelationshipAs form here language context relationship graph = .error error) :
    error.isStoreError = true ∨ error = .tooDeep ∧ hasNoStub relationship.targetLabel form ∧
      knownTarget? graph relationship.targetLabel relationship.targetName language context form =
        none := by
  rcases write_bind_error h with refused | ⟨⟨target, created⟩, middle, resolved, h⟩
  · rcases resolve_error refused with rfl | deep
    · exact .inl rfl
    · exact .inr deep
  · rcases write_bind_error h with refused | ⟨_, _, -, done⟩
    · refine .inl (link_error ?_ refused)
      rw [target_label resolved]
      simpa [Identity.endpoint, label_elementIdentity] using inferred_kinds_fit kind
    · cases done

theorem relationship_refused {relationship : Relationship} {error : Error}
    (kind : relationship.kind ∈ inferredKinds)
    (h : writeRelationship here language context relationship graph = .error error) :
    error.isStoreError = true :=
  (relationship_error kind h).resolve_right fun deep => nomatch deep.2.1.2

/-- The id that a relationship ends at: that of a known node, else that of the stub to be made. -/
def targetId (graph : Graph) (label : Label) (name language context : String) : String :=
  match knownTarget? graph label name language context with
  | some node => node.id
  | none => (elementIdentity label name language context).id

theorem resolve_target_id {target : Endpoint} {created : Bool}
    (h : resolveTarget here label name language context graph = .ok ((target, created), after)) :
    target = ⟨label, targetId graph label name language context⟩ ∧
      after.hasNode label target.id = true ∧
      (after = graph ∨
        knownTarget? graph label name language context = none ∧
        graph.hasNode (elementIdentity label name language context).label
          (elementIdentity label name language context).id = false ∧
        after = graph.addNode (.stub (elementIdentity label name language context) here.now)) := by
  rcases resolve_cases h with ⟨node, known, rfl, -, rfl⟩ | ⟨unknown, -, rfl, _, ensured⟩
  · obtain ⟨mem, labelled, -⟩ := target_node_known known
    refine ⟨by rw [targetId, known], has_node_iff.mpr ⟨node, mem, labelled, rfl⟩, .inl rfl⟩
  · have labelled := label_elementIdentity label name language context
    have present := ensure_present ensured
    rw [labelled] at present
    refine ⟨by rw [targetId, unknown, Identity.endpoint, labelled], present, ?_⟩
    rcases ensure_cases ensured with ⟨-, -, same⟩ | ⟨absent, -, -, added⟩
    · exact .inl same
    · exact .inr ⟨unknown, absent, added⟩

def candidates (graph : Graph) (label : Label) (name context : String) : List Node :=
  (graph.nodesWith label context).filter fun node => node.displayName = name

theorem targetNode?_eq : targetNode? graph label name language context =
    ((candidates graph label name context).find? fun node => node.language = language).or
      (candidates graph label name context).head? := by
  simp [targetNode?, candidates]

theorem candidates_addNode {node : Node} :
    candidates (graph.addNode node) label name context = candidates graph label name context ++
      if node.label = label ∧ node.context = context ∧ node.displayName = name then [node]
      else [] := by
  rw [candidates, candidates, nodesWith, nodes_addNode, List.filter_append, List.filter_append]
  congr 1
  by_cases hit : node.label = label ∧ node.context = context ∧ node.displayName = name
  · simp [hit]
  · rw [if_neg hit, List.filter_filter, List.filter_eq_nil_iff]
    simpa [and_left_comm, and_comm] using hit

theorem candidates_eq_nil (named : label ≠ .interface)
    (h : knownTarget? graph label name language context = none) :
    candidates graph label name context = [] := by
  rw [knownTarget?, if_neg named, targetNode?, Option.or_eq_none_iff] at h
  exact List.head?_eq_none_iff.mp h.2

/-- A stub for an unknown name leads no relationship elsewhere: to its own name it stands where the
relationship ended before, and to other names it is nothing. -/
theorem target_id_stub {label' : Label} {name' : String}
    (unknown : knownTarget? graph label' name' language context = none) (now : Int) :
    targetId (graph.addNode (.stub (elementIdentity label' name' language context) now)) label name
      language context = targetId graph label name language context := by
  have id : (Node.stub (elementIdentity label' name' language context) now).id =
      (elementIdentity label' name' language context).id := rfl
  have labelled : (Node.stub (elementIdentity label' name' language context) now).label = label' :=
    label_elementIdentity label' name' language context
  have inside : (Node.stub (elementIdentity label' name' language context) now).context = context :=
    context_elementIdentity label' name' language context
  have shows : (Node.stub (elementIdentity label' name' language context) now).displayName =
      name' := name_elementIdentity label' name' language context
  generalize Node.stub (elementIdentity label' name' language context) now = stub at *
  by_cases interface : label = .interface
  · simp only [targetId, knownTarget?, if_pos interface, node?_addNode]
    cases graph.node? label (elementIdentity label name language context).id with
    | some node => rfl
    | none =>
      by_cases hit : stub.label = label ∧ stub.id = (elementIdentity label name language context).id
      · rw [if_pos hit]
        exact hit.2
      · rw [if_neg hit, Option.none_or]
  · have lists : candidates (graph.addNode stub) label name context = _ := candidates_addNode
    by_cases same : label' = label ∧ name' = name
    · obtain ⟨rfl, rfl⟩ := same
      rw [candidates_eq_nil interface unknown, if_pos ⟨labelled, inside, shows⟩,
        List.nil_append] at lists
      have found : knownTarget? (graph.addNode stub) label' name' language context = some stub := by
        rw [knownTarget?, if_neg interface, targetNode?_eq, lists, List.find?_singleton]
        split <;> rfl
      rw [targetId, targetId, found, unknown]
      exact id
    · have missed : ¬ (stub.label = label ∧ stub.context = context ∧ stub.displayName = name) := by
        rintro ⟨labels, -, names⟩
        exact same ⟨labelled.symm.trans labels, shows.symm.trans names⟩
      rw [if_neg missed, List.append_nil] at lists
      simp only [targetId, knownTarget?, if_neg interface, targetNode?_eq, lists]

theorem target_id_map {f : Node → Node} (nodes : after.nodes = graph.nodes.map f)
    (id : ∀ node, (f node).id = node.id) (identity : ∀ node, (f node).identity = node.identity) :
    targetId after label name language context = targetId graph label name language context := by
  have labels : ∀ node, (f node).label = node.label :=
    fun node => congrArg Identity.label (identity node)
  have contexts : ∀ node, (f node).context = node.context :=
    fun node => congrArg Identity.context (identity node)
  have keys : ∀ node, (f node).key = node.key := fun node => congrArg Identity.key (identity node)
  have names : ∀ node, (f node).displayName = node.displayName :=
    fun node => congrArg (·.headD "") (keys node)
  have languages : ∀ node, (f node).language = node.language := by
    intro node
    rw [Node.language, Node.keyValue, labels, keys]
    rfl
  have known : knownTarget? after label name language context =
      (knownTarget? graph label name language context).map f := by
    by_cases interface : label = .interface
    · rw [knownTarget?, knownTarget?, if_pos interface, if_pos interface, node?, node?, nodes,
        List.find?_map]
      simp only [Function.comp_def, labels, id]
    · rw [knownTarget?, knownTarget?, if_neg interface, if_neg interface, targetNode?_eq,
        targetNode?_eq]
      have lists : candidates after label name context =
          (candidates graph label name context).map f := by
        simp only [candidates, nodesWith, nodes, List.filter_map, Function.comp_def, labels,
          contexts, names]
      rw [lists, List.find?_map, List.head?_map, Option.map_or]
      simp only [Function.comp_def, languages]
  rw [targetId, targetId, known]
  cases knownTarget? graph label name language context with
  | none => rfl
  | some node => exact id node

end CodeAtlas.Relations
