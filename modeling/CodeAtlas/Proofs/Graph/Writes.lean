import CodeAtlas.Graph.Request
import CodeAtlas.Proofs.Graph.Lookup

/-! What the four primitive writes do when they succeed, guards included, and how writes and
sessions come apart. Later proofs take writes apart with these and unfold none of them. -/
namespace CodeAtlas.Graph

variable {α β : Type} {here : Conditions} {graph after : Graph}

theorem except_bind {given : Except Error α} {next : α → Except Error β} {result : β}
    (h : (given >>= next) = .ok result) : ∃ value, given = .ok value ∧ next value = .ok result := by
  cases given with
  | error error => cases h
  | ok value => exact ⟨value, rfl, h⟩

theorem except_bind_error {given : Except Error α} {next : α → Except Error β} {error : Error}
    (h : (given >>= next) = .error error) :
    given = .error error ∨ ∃ value, given = .ok value ∧ next value = .error error := by
  cases given with
  | error other =>
    obtain rfl : other = error := Except.error.inj h
    exact .inl rfl
  | ok value => exact .inr ⟨value, rfl, h⟩

theorem except_ok_bind (value : α) (next : α → Except Error β) :
    (Except.ok value >>= next) = next value := rfl

theorem except_error_bind (error : Error) (next : α → Except Error β) :
    (Except.error error >>= next) = .error error := rfl

theorem ok_of_toOption {given : Except Error α} {value : α} (h : given.toOption = some value) :
    given = .ok value := by
  cases given with
  | error error => cases h
  | ok other => exact congrArg Except.ok (Option.some.inj h)

theorem write_pure {value result : α} (h : (pure value : Write α) graph = .ok (result, after)) :
    result = value ∧ after = graph := by
  cases h
  exact ⟨rfl, rfl⟩

theorem write_bind_apply (write : Write α) (next : α → Write β) (graph : Graph) :
    (write >>= next) graph = match write graph with
      | .ok (value, middle) => next value middle
      | .error error => .error error := by
  simp only [Bind.bind, StateT.bind, Except.bind]
  cases write graph <;> rfl

theorem write_bind {write : Write α} {next : α → Write β} {result : β}
    (h : (write >>= next) graph = .ok (result, after)) :
    ∃ value middle,
      write graph = .ok (value, middle) ∧ next value middle = .ok (result, after) := by
  rw [write_bind_apply] at h
  cases done : write graph with
  | error error => simp [done] at h
  | ok pair => exact ⟨pair.1, pair.2, rfl, by simpa [done] using h⟩

theorem write_bind_error {write : Write α} {next : α → Write β} {error : Error}
    (h : (write >>= next) graph = .error error) : write graph = .error error ∨
      ∃ value middle, write graph = .ok (value, middle) ∧ next value middle = .error error := by
  rw [write_bind_apply] at h
  cases done : write graph with
  | error error => exact .inl (by simpa [done] using h)
  | ok pair => exact .inr ⟨pair.1, pair.2, rfl, by simpa [done] using h⟩

theorem write_lift_apply (value : Except Error α) (graph : Graph) :
    (liftM value : Write α) graph = value.map (·, graph) := by
  cases value <;> rfl

theorem write_lift_bind {given : Except Error α} {next : α → Write β} {result : β}
    (h : (liftM given >>= next : Write β) graph = .ok (result, after)) :
    ∃ value, given = .ok value ∧ next value graph = .ok (result, after) := by
  obtain ⟨value, middle, settled, rest⟩ := write_bind h
  rw [write_lift_apply] at settled
  cases given with
  | error error => cases settled
  | ok known =>
    obtain ⟨rfl, rfl⟩ := Prod.mk.inj (Except.ok.inj settled)
    exact ⟨known, rfl, rest⟩

theorem upsert_apply (identity : Identity) (given : Attributes) (graph : Graph) :
    upsert here identity given graph = match graph.node? identity.label identity.id with
      | none =>
        if here.refusesCreating identity then .error Conditions.refusal
        else .ok (true, graph.addNode (.created identity given here.now))
      | some node =>
        if here.refusesUpdating identity.label then .error Conditions.refusal
        else .ok (false,
          graph.setNode identity.label identity.id (node.overwritten given here.now)) := by
  simp only [upsert, Bind.bind, StateT.bind, Except.bind, get, getThe, MonadStateOf.get, StateT.get,
    pure, Except.pure]
  cases graph.node? identity.label identity.id with
  | none => cases here.refusesCreating identity <;> rfl
  | some node => cases here.refusesUpdating identity.label <;> rfl

/-- A successful upsert has either added a node or overwritten the one that was there. -/
theorem upsert_cases {identity : Identity} {given : Attributes} {created : Bool}
    (h : upsert here identity given graph = .ok (created, after)) :
    (graph.node? identity.label identity.id = none ∧ here.refusesCreating identity = false ∧
      created = true ∧ after = graph.addNode (.created identity given here.now)) ∨
    (∃ node, graph.node? identity.label identity.id = some node ∧
      here.refusesUpdating identity.label = false ∧ created = false ∧
      after = graph.setNode identity.label identity.id (node.overwritten given here.now)) := by
  rw [upsert_apply] at h
  cases found : graph.node? identity.label identity.id with
  | none =>
    left
    rw [found] at h
    cases refused : here.refusesCreating identity <;> simp [refused] at h
    exact ⟨rfl, rfl, h.1, h.2.symm⟩
  | some node =>
    right
    rw [found] at h
    cases refused : here.refusesUpdating identity.label <;> simp [refused] at h
    exact ⟨node, rfl, rfl, h.1, h.2.symm⟩

theorem upsert_error {identity : Identity} {given : Attributes} {error : Error}
    (h : upsert here identity given graph = .error error) : error = Conditions.refusal := by
  rw [upsert_apply] at h
  split at h <;> split_ifs at h <;> exact (Except.error.inj h).symm

theorem ensure_apply (identity : Identity) (graph : Graph) :
    ensureNode here identity graph =
      if graph.hasNode identity.label identity.id then .ok (false, graph)
      else if here.refusesCreating identity then .error Conditions.refusal
      else .ok (true, graph.addNode (.stub identity here.now)) := by
  simp only [ensureNode, Bind.bind, StateT.bind, Except.bind, get, getThe, MonadStateOf.get,
    StateT.get, pure, Except.pure]
  cases graph.hasNode identity.label identity.id <;>
    cases here.refusesCreating identity <;> rfl

theorem ensure_cases {identity : Identity} {created : Bool}
    (h : ensureNode here identity graph = .ok (created, after)) :
    (graph.hasNode identity.label identity.id = true ∧ created = false ∧ after = graph) ∨
    (graph.hasNode identity.label identity.id = false ∧ here.refusesCreating identity = false ∧
      created = true ∧ after = graph.addNode (.stub identity here.now)) := by
  rw [ensure_apply] at h
  cases known : graph.hasNode identity.label identity.id with
  | true =>
    left
    simp only [known, if_true, Except.ok.injEq, Prod.mk.injEq] at h
    exact ⟨rfl, h.1.symm, h.2.symm⟩
  | false =>
    right
    cases refused : here.refusesCreating identity <;> simp [known, refused] at h
    exact ⟨rfl, rfl, h.1, h.2.symm⟩

theorem ensure_error {identity : Identity} {error : Error}
    (h : ensureNode here identity graph = .error error) : error = Conditions.refusal := by
  rw [ensure_apply] at h
  split_ifs at h
  exact (Except.error.inj h).symm

def Edge.fresh (here : Conditions) (type : EdgeType) (source target context : String)
    (properties : Properties) : Edge where
  type := type
  source := source
  target := target
  context := context
  createdAt := here.now
  imports := (properties.lookup "imports").join

/-- The edge after a link over it: the given properties change, the rest stays. -/
def Edge.relinked (edge : Edge) (properties : Properties) : Edge :=
  { edge with imports := (properties.lookup "imports").getD edge.imports }

def joined (here : Conditions) (graph : Graph) (type : EdgeType) (source target : Endpoint)
    (context : String) (properties : Properties) : Graph :=
  if graph.hasNode source.label source.id && graph.hasNode target.label target.id then
    match graph.edge? type source.id target.id with
    | some edge => graph.setEdge (edge.relinked properties)
    | none => graph.addEdge (.fresh here type source.id target.id context properties)
  else graph

theorem link_apply (type : EdgeType) (source target : Endpoint) (context : String)
    (properties : Properties) (graph : Graph) :
    link here type source target context properties graph =
      if (source.label, target.label) ∉ type.endpoints then
        .error (.wrongEndpoints type.name source.label.name target.label.name)
      else if here.refusesLinking type then .error Conditions.refusal
      else if ¬ properties.all (fun (name, _) => type.properties.contains name) then
        .error .statementRejected
      else .ok ((), joined here graph type source target context properties) := by
  by_cases fits : (source.label, target.label) ∈ type.endpoints
  · rw [if_neg (not_not.mpr fits), link, if_pos (by simpa using fits)]
    cases here.refusesLinking type
    · cases properties.all fun (name, _) => type.properties.contains name
      · rfl
      · change (if graph.hasNode source.label source.id && graph.hasNode target.label target.id then
          match graph.edge? type source.id target.id with
          | some edge => set (graph.setEdge (edge.relinked properties))
          | none => set (graph.addEdge (.fresh here type source.id target.id context properties))
          else pure () : Write Unit) graph = .ok ((), joined ..)
        unfold joined
        cases graph.hasNode source.label source.id && graph.hasNode target.label target.id
        · rfl
        · cases graph.edge? type source.id target.id <;> rfl
    · rfl
  · rw [if_pos fits, link, if_neg (by simpa using fits)]
    rfl

theorem link_cases {type : EdgeType} {source target : Endpoint} {context : String}
    {properties : Properties} {value : Unit}
    (h : link here type source target context properties graph = .ok (value, after)) :
    (source.label, target.label) ∈ type.endpoints ∧ here.refusesLinking type = false ∧
      (properties.all fun (name, _) => type.properties.contains name) = true ∧
      after = joined here graph type source target context properties := by
  rw [link_apply] at h
  split_ifs at h with fits refused known
  simp only [Except.ok.injEq, Prod.mk.injEq] at h
  exact ⟨fits, by simpa using refused, known, h.2.symm⟩

theorem link_error {type : EdgeType} {source target : Endpoint} {context : String}
    {properties : Properties} {error : Error} (fits : (source.label, target.label) ∈ type.endpoints)
    (h : link here type source target context properties graph = .error error) :
    error.isStoreError = true := by
  rw [link_apply, if_neg (not_not.mpr fits)] at h
  split_ifs at h <;> obtain rfl := Except.error.inj h <;> rfl

theorem remove_apply (context : String) (graph : Graph) :
    removeContext context graph = .ok ((graph.nodesOf context).length, graph.without context) := rfl

section Stateful

variable {ε σ : Type}

theorem stateful_bind_apply (work : ExceptT ε (StateM σ) α) (next : α → ExceptT ε (StateM σ) β)
    (state : σ) :
    (work >>= next) state = match work state with
      | (.ok value, middle) => next value middle
      | (.error error, middle) => (.error error, middle) := by
  change (ExceptT.bindCont next (work state).1 : StateM σ _) (work state).2 = _
  rcases work state with ⟨_ | _, middle⟩ <;> rfl

theorem stateful_bind {work : ExceptT ε (StateM σ) α} {next : α → ExceptT ε (StateM σ) β}
    {state left : σ} {result : β} (done : (work >>= next) state = (.ok result, left)) :
    ∃ value middle, work state = (.ok value, middle) ∧ next value middle = (.ok result, left) := by
  rw [stateful_bind_apply] at done
  rcases first : work state with ⟨error | value, middle⟩
  · rw [first] at done
    cases (Prod.mk.inj done).1
  · rw [first] at done
    exact ⟨value, middle, rfl, done⟩

end Stateful

theorem session_bind_apply (work : Session α) (next : α → Session β) (graph : Graph) :
    (work >>= next) graph = match work graph with
      | (.ok value, middle) => next value middle
      | (.error error, middle) => (.error error, middle) := by
  rw [stateful_bind_apply]
  rcases work graph with ⟨_ | _, middle⟩ <;> rfl

theorem commit_apply (write : Write α) (graph : Graph) :
    commit write graph = match write graph with
      | .ok (value, after) => (.ok value, after)
      | .error error => (.error error, graph) := rfl

theorem use_open (work : Session α) (graph : Graph) :
    use work ⟨graph, true⟩ = ((work graph).1, ⟨(work graph).2, true⟩) := rfl

end CodeAtlas.Graph
