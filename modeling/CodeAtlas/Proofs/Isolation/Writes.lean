import CodeAtlas.Proofs.Isolation.Tables

/-! Writes that stay within a context. Each one moves nothing outside of it and does the same to two
graphs that agree on it; both facts pass from the primitive writes to everything made of them. -/
namespace CodeAtlas.Graph

variable {α β : Type}

/-- The same failure, or the same value with graphs that agree on a context. -/
inductive Alike (context : String) :
    Except Error (α × Graph) → Except Error (α × Graph) → Prop where
  | refused (error : Error) : Alike context (.error error) (.error error)
  | done (value : α) {after after' : Graph} :
      AgreeOn context after after' → Alike context (.ok (value, after)) (.ok (value, after'))

/-- A write that keeps to a context as long as the known identities do not collide. Its value has a
property on which the next write may build. -/
structure Isolated (known : List Identity) (context : String) (write : Write α) (post : α → Prop) :
    Prop where
  keeps : ∀ {graph value after}, Confined known graph → write graph = .ok (value, after) →
    post value ∧ Confined known after ∧ Spares context graph after
  agrees : ∀ {graph other}, Confined known graph → Confined known other →
    AgreeOn context graph other → Alike context (write graph) (write other)

variable {here : Conditions} {known : List Identity} {context : String} {graph other : Graph}

theorem isolated_pure (value : α) : Isolated known context (pure value) (· = value) where
  keeps confined h := by
    obtain ⟨rfl, rfl⟩ := write_pure h
    exact ⟨rfl, confined, Spares.refl context _⟩
  agrees _ _ agree := .done value agree

theorem Isolated.bind {write : Write α} {next : α → Write β} {post : α → Prop} {post' : β → Prop}
    (first : Isolated known context write post)
    (rest : ∀ value, post value → Isolated known context (next value) post') :
    Isolated known context (write >>= next) post' where
  keeps confined h := by
    obtain ⟨value, middle, done, remaining⟩ := write_bind h
    obtain ⟨holds, confined, spares⟩ := first.keeps confined done
    obtain ⟨holds', confined', spares'⟩ := (rest value holds).keeps confined remaining
    exact ⟨holds', confined', spares.trans spares'⟩
  agrees {graph other} confined confined' agree := by
    rw [write_bind_apply, write_bind_apply]
    have alike := first.agrees confined confined' agree
    cases done : write graph with
    | error error =>
      rw [done] at alike
      generalize write other = outcome at alike
      cases alike
      exact .refused error
    | ok pair =>
      cases done' : write other with
      | error error =>
        rw [done, done'] at alike
        cases alike
      | ok pair' =>
        rw [done, done'] at alike
        obtain ⟨value, middle⟩ := pair
        obtain ⟨value', middle'⟩ := pair'
        cases alike with
        | done _ agree =>
          obtain ⟨holds, confined, -⟩ := first.keeps confined done
          obtain ⟨-, confined', -⟩ := first.keeps confined' done'
          exact (rest value holds).agrees confined confined' agree

theorem Isolated.mono {write : Write α} {post post' : α → Prop}
    (h : Isolated known context write post) (weaker : ∀ value, post value → post' value) :
    Isolated known context write post' where
  keeps confined done := by
    obtain ⟨holds, rest⟩ := h.keeps confined done
    exact ⟨weaker _ holds, rest⟩
  agrees := h.agrees

/-- What the known identities say of a place in a context. -/
structure PlacedIn (known : List Identity) (context : String) (identity : Identity) : Prop where
  occurs : identity ∈ known
  inside : identity.context = context

theorem PlacedIn.node_inside {identity : Identity} (placed : PlacedIn known context identity)
    (free : CollisionFree known) (confined : Confined known graph) :
    ∀ node ∈ graph.nodes, node.id = identity.id → node.context = context :=
  fun _ mem id => (confined.context_of_id free mem placed.occurs id).trans placed.inside

theorem PlacedIn.edge_inside {identity : Identity} (placed : PlacedIn known context identity)
    (free : CollisionFree known) (confined : Confined known graph) :
    ∀ edge ∈ graph.edges, edge.source = identity.id → edge.context = context := by
  intro edge mem source
  obtain ⟨node, inside, -, -, begins, -, same, -⟩ := confined.ends mem
  exact same.symm.trans (placed.node_inside free confined node inside (begins.trans source))

theorem PlacedIn.node? {identity : Identity} (placed : PlacedIn known context identity)
    (free : CollisionFree known) (confined : Confined known graph)
    (confined' : Confined known other)
    (agree : AgreeOn context graph other) (label : Label) :
    graph.node? label identity.id = other.node? label identity.id :=
  agree.node? (placed.node_inside free confined) (placed.node_inside free confined')

theorem same_table_overwritten {label : Label} {id : String} {node : Node} (wf : WellFormed graph)
    (found : graph.node? label id = some node) (given : Attributes) (now : Int) :
    SameTable graph label id (node.overwritten given now) := by
  obtain ⟨mem, labels, ids⟩ := node?_eq_some found
  intro old mem' labels' ids'
  obtain rfl := wf.eq_of_id mem' mem (ids'.trans ids.symm)
  exact ⟨rfl, rfl⟩

theorem isolated_upsert {identity : Identity} (placed : PlacedIn known context identity)
    (free : CollisionFree known) (proper : identity.Proper) (given : Attributes) :
    Isolated known context (upsert here identity given) fun _ => True where
  keeps {graph created after} confined h := by
    have wf := (well_formed_moves here).upsert identity given proper _ _ _ h confined.wellFormed
    rcases upsert_cases h with ⟨-, -, -, rfl⟩ | ⟨node, found, -, -, rfl⟩
    · exact ⟨trivial, confined.addNode free wf placed.occurs, spares_addNode placed.inside⟩
    · refine ⟨trivial, confined.setNode wf found rfl rfl, ?_⟩
      refine spares_setNode (same_table_overwritten confined.wellFormed found given here.now) ?_
      obtain ⟨mem, -, id⟩ := node?_eq_some found
      exact placed.node_inside free confined node mem id
  agrees {graph other} confined confined' agree := by
    have same := placed.node? free confined confined' agree identity.label
    rw [upsert_apply, upsert_apply, ← same]
    cases found : graph.node? identity.label identity.id with
    | none =>
      dsimp only
      split_ifs
      · exact .refused _
      · exact .done true (agree.addNode _)
    | some node =>
      dsimp only
      split_ifs
      · exact .refused _
      · exact .done false (agree.setNode
          (same_table_overwritten confined.wellFormed found given here.now)
          (same_table_overwritten confined'.wellFormed (same ▸ found) given here.now))

theorem isolated_ensure (here : Conditions) {identity : Identity}
    (placed : PlacedIn known context identity) (free : CollisionFree known)
    (proper : identity.Proper) :
    Isolated known context (ensureNode here identity) fun _ => True where
  keeps {graph created after} confined h := by
    have wf := (well_formed_moves here).ensure identity proper _ _ _ h confined.wellFormed
    rcases ensure_cases h with ⟨-, -, rfl⟩ | ⟨-, -, -, rfl⟩
    · exact ⟨trivial, confined, Spares.refl context _⟩
    · exact ⟨trivial, confined.addNode free wf placed.occurs, spares_addNode placed.inside⟩
  agrees {graph other} confined confined' agree := by
    have same := placed.node? free confined confined' agree identity.label
    rw [ensure_apply, ensure_apply, hasNode, hasNode, ← same]
    split_ifs
    · exact .done false agree
    · exact .refused _
    · exact .done true (agree.addNode _)

theorem AgreeOn.joined (here : Conditions) {source target : Identity}
    (hs : PlacedIn known context source) (ht : PlacedIn known context target)
    (free : CollisionFree known) (confined : Confined known graph)
    (confined' : Confined known other)
    (agree : AgreeOn context graph other) (type : EdgeType) (properties : Properties) :
    AgreeOn context
      (Graph.joined here graph type source.endpoint target.endpoint context properties)
      (Graph.joined here other type source.endpoint target.endpoint context properties) := by
  have inside : ∀ edge ∈ graph.edges, edge.ends = (type, source.id, target.id) →
      edge.context = context := fun edge mem ends =>
    hs.edge_inside free confined edge mem (congrArg (·.2.1) ends)
  have inside' : ∀ edge ∈ other.edges, edge.ends = (type, source.id, target.id) →
      edge.context = context := fun edge mem ends =>
    hs.edge_inside free confined' edge mem (congrArg (·.2.1) ends)
  have same := agree.edge? inside inside'
  simp only [Graph.joined, hasNode, Identity.endpoint, hs.node? free confined confined' agree,
    ht.node? free confined confined' agree, ← same]
  split_ifs
  · cases found : graph.edge? type source.id target.id with
    | none => exact agree.addEdge _
    | some edge =>
      obtain ⟨mem, ends⟩ := edge?_eq_some found
      have edgeIn := inside edge mem ends
      exact agree.setEdge
        (fun old mem' ends' => (inside old mem' (ends'.trans ends)).trans edgeIn.symm)
        (fun old mem' ends' => (inside' old mem' (ends'.trans ends)).trans edgeIn.symm)
  · exact agree

theorem isolated_link {source target : Identity} (hs : PlacedIn known context source)
    (ht : PlacedIn known context target) (free : CollisionFree known) (type : EdgeType)
    (properties : Properties) :
    Isolated known context
      (link here type source.endpoint target.endpoint context properties) fun _ => True where
  keeps {graph value after} confined h := by
    have wf := (well_formed_moves here).link _ _ _ _ _ _ _ _ h confined.wellFormed
    obtain ⟨-, -, -, rfl⟩ := link_cases h
    refine ⟨trivial, ?_⟩
    unfold Graph.joined at wf ⊢
    split_ifs at wf ⊢
    · cases found : graph.edge? type source.endpoint.id target.endpoint.id with
      | none =>
        rw [found] at wf
        exact ⟨confined.addEdge free wf hs.occurs ht.occurs rfl rfl hs.inside ht.inside,
          spares_addEdge rfl⟩
      | some edge =>
        rw [found] at wf
        obtain ⟨mem, ends⟩ := edge?_eq_some found
        have inside : ∀ old ∈ graph.edges, old.ends = edge.ends → old.context = context :=
          fun old mem' ends' =>
            hs.edge_inside free confined old mem' (congrArg (·.2.1) (ends'.trans ends))
        have edgeIn := inside edge mem rfl
        exact ⟨confined.setEdge wf mem rfl rfl,
          spares_setEdge (fun old mem' ends' => (inside old mem' ends').trans edgeIn.symm) edgeIn⟩
    · exact ⟨confined, Spares.refl context graph⟩
  agrees {graph other} confined confined' agree := by
    have linked := AgreeOn.joined here hs ht free confined confined' agree type properties
    rw [link_apply, link_apply]
    split_ifs <;> first | exact .refused _ | exact .done () linked

theorem isolated_remove : Isolated known context (removeContext context) fun _ => True where
  keeps confined h := by
    rw [remove_apply] at h
    simp only [Except.ok.injEq, Prod.mk.injEq] at h
    exact ⟨trivial, h.2 ▸ confined.without context, h.2 ▸ spares_without confined⟩
  agrees {graph other} confined confined' agree := by
    rw [remove_apply, remove_apply, agree.length_nodesOf]
    refine .done _ ⟨fun label => ?_, fun type => ?_⟩
    · rw [nodesWith_without, nodesWith_without]
    · rw [edgesWith_without confined, edgesWith_without confined']

end CodeAtlas.Graph
