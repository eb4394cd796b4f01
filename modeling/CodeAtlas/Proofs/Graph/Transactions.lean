import CodeAtlas.Graph.Transaction
import CodeAtlas.Proofs.Graph.Effects

/-! Transactions are all or nothing. Inside an open transaction work changes nothing but the working
graph, and does to it what a write does to a graph; nested blocks do not show. So a transaction as a
whole either commits what the write makes of the committed graph or leaves the connection as it
found it, on every way out. -/
namespace CodeAtlas.Graph

variable {α β : Type} {here : Conditions} {graph after : Graph} {place : Graph → Connection}

def Connection.within (committed graph : Graph) : Connection := ⟨committed, some graph, true⟩

/-- Work that does to the graph of a connection what a write does, and fails where that fails. What
it did before a failure may stay. -/
structure Denotes (place : Graph → Connection) (work : Transacted α) (write : Write α) : Prop where
  done : ∀ {graph value after}, write graph = .ok (value, after) →
    work (place graph) = (.ok value, place after)
  failed : ∀ {graph error}, write graph = .error error →
    ∃ left, work (place graph) = (.error (.failed error), place left)

theorem statement_apply (write : Write α) (connection : Connection) :
    statement write connection = match write connection.visible with
      | .ok (value, after) => (.ok value, connection.leave after)
      | .error error => (.error (.failed error), connection) := by
  change (match write connection.visible with
    | .ok (value, after) => do
      set (connection.leave after)
      return value
    | .error error => throw (.failed error) : Transacted α) connection = _
  cases write connection.visible <;> rfl

theorem statement_denotes (committed : Graph) (write : Write α) :
    Denotes (Connection.within committed) (statement write) write where
  done {graph value after} h := by
    have seen : (Connection.within committed graph).visible = graph := rfl
    rw [statement_apply, seen, h]
    rfl
  failed {graph error} h := by
    have seen : (Connection.within committed graph).visible = graph := rfl
    exact ⟨graph, by rw [statement_apply, seen, h]⟩

theorem pure_denotes (value : α) : Denotes place (pure value) (pure value) where
  done h := by
    obtain ⟨rfl, rfl⟩ := write_pure h
    rfl
  failed h := by cases h

theorem Denotes.bind {work : Transacted α} {next : α → Transacted β} {write : Write α}
    {next' : α → Write β} (first : Denotes place work write)
    (rest : ∀ value, Denotes place (next value) (next' value)) :
    Denotes place (work >>= next) (write >>= next') where
  done h := by
    obtain ⟨value, middle, done, remaining⟩ := write_bind h
    rw [stateful_bind_apply, first.done done]
    exact (rest value).done remaining
  failed h := by
    rcases write_bind_error h with failed | ⟨value, middle, done, failed⟩
    · obtain ⟨left, interrupted⟩ := first.failed failed
      exact ⟨left, by rw [stateful_bind_apply, interrupted]⟩
    · obtain ⟨left, interrupted⟩ := (rest value).failed failed
      exact ⟨left, by rw [stateful_bind_apply, first.done done]; exact interrupted⟩

theorem denotes_mapM {work : α → Transacted β} {write : α → Write β} (items : List α)
    (each : ∀ item, Denotes place (work item) (write item)) :
    Denotes place (items.mapM work) (items.mapM write) := by
  induction items with
  | nil => exact pure_denotes []
  | cons item items ih =>
    rw [List.mapM_cons, List.mapM_cons]
    exact (each item).bind fun value => ih.bind fun values => pure_denotes _

/-! Transactions. -/

theorem nested_transaction {committed : Graph} {work : Transacted α} {write : Write α}
    (h : Denotes (Connection.within committed) work write) :
    Denotes (Connection.within committed) (transaction work) write :=
  ⟨h.done, h.failed⟩

theorem stateful_catch_apply {ε σ α : Type} (work : ExceptT ε (StateM σ) α)
    (handler : ε → ExceptT ε (StateM σ) α) (state : σ) :
    (tryCatch work handler : ExceptT ε (StateM σ) α) state = match work state with
      | (.ok value, middle) => (.ok value, middle)
      | (.error error, middle) => handler error middle := by
  change ExceptT.tryCatch work handler state = _
  change ((match (work state).1 with
    | .ok value => pure (.ok value)
    | .error error => handler error : StateM σ (Except ε α)) (work state).2) = _
  rcases work state with ⟨_ | _, middle⟩ <;> rfl

theorem recover_apply (interrupt : Interrupt) (connection : Connection) :
    (recover interrupt : Transacted α) connection =
      (.error interrupt, { connection with working := none, inTransaction := false }) := by
  obtain ⟨committed, _ | working, flag⟩ := connection <;> rfl

theorem transaction_apply (work : Transacted α) (graph : Graph) :
    transaction work (.idle graph) = match work (.within graph graph) with
      | (.ok value, connection) => (do
          setFlag false
          commitTransaction
          return value : Transacted α) connection
      | (.error interrupt, connection) => (recover interrupt : Transacted α) connection := by
  change (tryCatch work recover >>= fun value => do
    setFlag false
    commitTransaction
    return value : Transacted α) (.within graph graph) = _
  rw [stateful_bind_apply, stateful_catch_apply]
  rcases work (.within graph graph) with ⟨interrupt | value, connection⟩
  · dsimp only
    rw [recover_apply]
  · rfl

theorem transaction_done {work : Transacted α} {value : α}
    (h : work (.within graph graph) = (.ok value, .within graph after)) :
    transaction work (.idle graph) = (.ok value, .idle after) := by
  rw [transaction_apply, h]
  rfl

/-- However a transaction is interrupted, it leaves the connection as it found it. -/
theorem transaction_interrupted {work : Transacted α} {interrupt : Interrupt} {left : Graph}
    (h : work (.within graph graph) = (.error interrupt, .within graph left)) :
    transaction work (.idle graph) = (.error interrupt, .idle graph) := by
  rw [transaction_apply, h]
  rfl

theorem transaction_commits {work : Transacted α} {write : Write α}
    (h : Denotes (Connection.within graph) work write) :
    transaction work (.idle graph) = match write graph with
      | .ok (value, after) => (.ok value, .idle after)
      | .error error => (.error (.failed error), .idle graph) := by
  cases written : write graph with
  | ok pair => exact transaction_done (h.done written)
  | error error =>
    obtain ⟨left, interrupted⟩ := h.failed written
    exact transaction_interrupted interrupted

/-! Upserts. -/

def upsertAll (here : Conditions) (requests : List NodeRequest) : Write (List Bool) :=
  requests.mapM fun request => return (← request.upsert here).2

theorem lone_transaction {work : Transacted α} {write : Write α}
    (h : ∀ graph, Denotes (Connection.within graph) work write) :
    Denotes Connection.idle (transaction work) write where
  done {graph value after} written := by rw [transaction_commits (h graph), written]
  failed {graph error} written := ⟨graph, by rw [transaction_commits (h graph), written]⟩

theorem upsert_denotes (here : Conditions) (request : NodeRequest) (committed : Graph) :
    Denotes (Connection.within committed) (do return (← statement (request.upsert here)).2)
      (do return (← request.upsert here).2) :=
  (statement_denotes committed _).bind fun _ => pure_denotes _

theorem singly_denotes (here : Conditions) (requests : List NodeRequest) :
    Denotes Connection.idle (requests.mapM (upsertOne here)) (upsertAll here requests) :=
  denotes_mapM requests fun request => lone_transaction (upsert_denotes here request)

theorem each_denotes (here : Conditions) (requests : List NodeRequest) (committed : Graph) :
    Denotes (Connection.within committed) (upsertEach here requests) (upsertAll here requests) :=
  denotes_mapM requests fun request =>
    nested_transaction (nested_transaction (upsert_denotes here request committed))

theorem upsert_transacted_none (here : Conditions) (requests : List NodeRequest) :
    upsertTransacted here requests none = transaction (upsertEach here requests) := rfl

theorem upsert_transacted_some (here : Conditions) (requests : List NodeRequest) (count : Nat) :
    upsertTransacted here requests (some count) =
      transaction (upsertEach here (requests.take count) >>= fun created =>
        throw (.aborted created)) := rfl

theorem transacted_apply (here : Conditions) (requests : List NodeRequest) (graph : Graph) :
    upsertTransacted here requests none (.idle graph) = match upsertAll here requests graph with
      | .ok (created, after) => (.ok created, .idle after)
      | .error error => (.error (.failed error), .idle graph) := by
  rw [upsert_transacted_none, transaction_commits (each_denotes here requests graph)]
  cases upsertAll here requests graph <;> rfl

theorem aborted_apply (here : Conditions) (requests : List NodeRequest) (count : Nat)
    (graph : Graph) : upsertTransacted here requests (some count) (.idle graph) =
      match upsertAll here (requests.take count) graph with
      | .ok (created, _) => (.error (.aborted created), .idle graph)
      | .error error => (.error (.failed error), .idle graph) := by
  have each := each_denotes here (requests.take count) graph
  rw [upsert_transacted_some]
  cases written : upsertAll here (requests.take count) graph with
  | ok pair =>
    have given : (upsertEach here (requests.take count) >>= fun created =>
        throw (.aborted created) : Transacted (List Bool)) (.within graph graph) =
        (.error (.aborted pair.1), .within graph pair.2) := by
      rw [stateful_bind_apply, each.done written]
      rfl
    exact transaction_interrupted given
  | error error =>
    obtain ⟨left, interrupted⟩ := each.failed written
    have given : (upsertEach here (requests.take count) >>= fun created =>
        throw (.aborted created) : Transacted (List Bool)) (.within graph graph) =
        (.error (.failed error), .within graph left) := by
      rw [stateful_bind_apply, interrupted]
    exact transaction_interrupted given

theorem mapM_take {write : α → Write β} {items : List α} {values : List β}
    (h : items.mapM write graph = .ok (values, after)) (count : Nat) :
    ∃ middle, (items.take count).mapM write graph = .ok (values.take count, middle) := by
  induction items generalizing graph values count with
  | nil =>
    obtain ⟨rfl, rfl⟩ := write_pure h
    exact ⟨after, by simp; rfl⟩
  | cons item items ih =>
    rw [List.mapM_cons] at h
    obtain ⟨value, next, first, h⟩ := write_bind h
    obtain ⟨rest, last, others, h⟩ := write_bind h
    obtain ⟨rfl, rfl⟩ := write_pure h
    cases count with
    | zero => exact ⟨graph, rfl⟩
    | succ count =>
      obtain ⟨middle, taken⟩ := ih others count
      refine ⟨middle, ?_⟩
      rw [List.take_succ_cons, List.mapM_cons, write_bind_apply, first]
      dsimp only
      rw [write_bind_apply, taken]
      rfl

/-- The answers to some upserts: a node is created by the first one for it, if it was not there. -/
def CreatedOnce (here : Conditions) (graph : Graph) (requests : List NodeRequest)
    (created : List Bool) : Prop :=
  created.length = requests.length ∧ ∀ index request, requests[index]? = some request →
    ∃ identity, request.identity here = .ok identity ∧ (created[index]? = some true ↔
      graph.hasNode identity.label identity.id = false ∧
      ∀ earlier ∈ requests.take index, ∀ other, earlier.identity here = .ok other →
        other.endpoint ≠ identity.endpoint)

theorem upsert_has_node {identity : Identity} {given : Attributes} {created : Bool}
    (h : upsert here identity given graph = .ok (created, after)) (place : Endpoint) :
    after.hasNode place.label place.id = true ↔
      graph.hasNode place.label place.id = true ∨ identity.endpoint = place := by
  by_cases same : identity.endpoint = place
  · subst same
    exact iff_of_true (upsert_present h) (.inr rfl)
  · have apart : ¬ (place.label = identity.label ∧ place.id = identity.id) := by
      rintro ⟨label, id⟩
      exact same (by rw [Identity.endpoint, ← label, ← id])
    rw [hasNode, hasNode, upsert_other h apart]
    exact ⟨.inl, fun known => known.resolve_right same⟩

theorem created_once {requests : List NodeRequest} {created : List Bool}
    (h : upsertAll here requests graph = .ok (created, after)) :
    CreatedOnce here graph requests created := by
  induction requests generalizing graph created with
  | nil =>
    obtain ⟨rfl, rfl⟩ := write_pure h
    refine ⟨rfl, ?_⟩
    intro index request found
    simp at found
  | cons first requests ih =>
    rw [upsertAll, List.mapM_cons] at h
    obtain ⟨value, middle, put, h⟩ := write_bind h
    obtain ⟨rest, last, others, h⟩ := write_bind h
    obtain ⟨rfl, rfl⟩ := write_pure h
    obtain ⟨⟨id, fresh⟩, _, put, back⟩ := write_bind put
    obtain ⟨rfl, rfl⟩ := write_pure back
    obtain ⟨identity, settled, put⟩ := write_lift_bind put
    obtain ⟨_, _, put⟩ := write_lift_bind put
    obtain ⟨_, _, put, back⟩ := write_bind put
    obtain ⟨answer, rfl⟩ := write_pure back
    obtain ⟨rfl, rfl⟩ := Prod.mk.inj answer
    obtain ⟨length, flags⟩ := ih others
    refine ⟨congrArg (· + 1) length, ?_⟩
    intro index request found
    cases index with
    | zero =>
      obtain rfl : first = request := by simpa using found
      refine ⟨identity, settled, ?_⟩
      rcases upsert_cases put with ⟨absent, -, rfl, -⟩ | ⟨node, known, -, rfl, -⟩
      · simp [hasNode, absent]
      · simp [hasNode, known]
    | succ index =>
      obtain ⟨other, settled', flag⟩ := flags index request (by simpa using found)
      have known := upsert_has_node put other.endpoint
      refine ⟨other, settled', ?_⟩
      rw [List.getElem?_cons_succ, flag, List.take_succ_cons, List.forall_mem_cons]
      have absent : middle.hasNode other.label other.id = false ↔
          graph.hasNode other.label other.id = false ∧ identity.endpoint ≠ other.endpoint := by
        rw [← Bool.not_eq_true, ← Bool.not_eq_true, ← not_or]
        exact not_congr known
      rw [absent, and_assoc]
      apply and_congr_right
      intro _
      apply and_congr_left
      intro _
      constructor
      · intro apart same settled''
        obtain rfl := Except.ok.inj (settled.symm.trans settled'')
        exact apart
      · exact fun apart => apart identity settled

/-- Upserts in one transaction are all or nothing. Where they succeed one by one, so does the
transaction, with the same answers and the same graph, unless the caller gives up. Where one of them
fails, or the caller gives up after any number of them, nothing has happened. Either way the
connection is left without a transaction, so that a new one can begin. -/
theorem upserts_all_or_nothing (here : Conditions) (requests : List NodeRequest) (graph : Graph) :
    ((∃ created after,
        requests.mapM (upsertOne here) (.idle graph) = (.ok created, .idle after) ∧
        CreatedOnce here graph requests created ∧
        upsertTransacted here requests none (.idle graph) = (.ok created, .idle after) ∧
        ∀ count, upsertTransacted here requests (some count) (.idle graph) =
          (.error (.aborted (created.take count)), .idle graph)) ∨
      (∃ error left,
        requests.mapM (upsertOne here) (.idle graph) = (.error (.failed error), .idle left) ∧
        upsertTransacted here requests none (.idle graph) =
          (.error (.failed error), .idle graph) ∧
        ∀ count, ∃ interrupt, upsertTransacted here requests (some count) (.idle graph) =
          (.error interrupt, .idle graph))) ∧
    ∀ abortAfter, (beginTransaction
      (upsertTransacted here requests abortAfter (.idle graph)).2).1 = .ok () := by
  have singly := singly_denotes here requests
  have together := transacted_apply here requests graph
  have aborted := fun count => aborted_apply here requests count graph
  have idle : ∀ abortAfter, ∃ last,
      (upsertTransacted here requests abortAfter (.idle graph)).2 = .idle last := by
    rintro (_ | count)
    · rw [together]
      cases upsertAll here requests graph <;> exact ⟨_, rfl⟩
    · rw [aborted]
      cases upsertAll here (requests.take count) graph <;> exact ⟨_, rfl⟩
  constructor
  · cases written : upsertAll here requests graph with
    | ok pair =>
      rw [written] at together
      refine .inl ⟨pair.1, pair.2, singly.done written, created_once written, together, ?_⟩
      intro count
      obtain ⟨middle, taken⟩ := mapM_take written count
      rw [aborted, upsertAll, taken]
    | error error =>
      rw [written] at together
      obtain ⟨left, interrupted⟩ := singly.failed written
      refine .inr ⟨error, left, interrupted, together, ?_⟩
      intro count
      rw [aborted]
      cases upsertAll here (requests.take count) graph <;> exact ⟨_, rfl⟩
  · intro abortAfter
    obtain ⟨last, left⟩ := idle abortAfter
    rw [left]
    rfl

/-- A module and a file, in a store that refuses to create files: one by one the module stays, in a
transaction nothing does. -/
example :
    let requests : List NodeRequest :=
      [⟨"Module", [("name", .text "react")], [], "default:main"⟩,
        ⟨"File", [("path", .text "a.ts")], [], "default:main"⟩]
    let here : Conditions := { now := 1, faults := [.create .file none] }
    (requests.mapM (upsertOne here) (.idle .empty)).2.committed.nodes.length = 1 ∧
      (upsertTransacted here requests none (.idle .empty)).2 = .idle .empty := by
  decide +kernel

theorem upsert_together_apply (here : Conditions) (requests : List NodeRequest) (abort : Bool)
    (graph : Graph) : upsertTogether here requests abort graph =
      match upsertAll here requests graph with
      | .ok (created, after) => .ok (created, if abort then graph else after)
      | .error error => .error error := by
  change (upsertAll here requests >>= fun created => do
    if abort then set graph
    return created : Write (List Bool)) graph = _
  rw [write_bind_apply]
  cases upsertAll here requests graph with
  | ok pair => cases abort <;> rfl
  | error error => rfl

/-- A transaction in a session of its own is a write of all its upserts. -/
theorem upsert_in_session_apply (here : Conditions) (requests : List NodeRequest) (abort : Bool) :
    upsertInSession here requests abort = commit (upsertTogether here requests abort) := by
  funext graph
  rw [commit_apply, upsert_together_apply]
  cases abort with
  | false =>
    rw [upsertInSession, if_neg Bool.false_ne_true, transacted_apply]
    cases upsertAll here requests graph <;> rfl
  | true =>
    rw [upsertInSession, if_pos rfl, aborted_apply, List.take_length]
    cases upsertAll here requests graph <;> rfl

/-- In a session of their own upserts are all or nothing as well: it leaves what they leave one by
one, or the graph as it was. -/
theorem session_all_or_nothing (here : Conditions) (requests : List NodeRequest) (abort : Bool)
    (graph : Graph) :
    (∃ created after,
        requests.mapM (upsertOne here) (.idle graph) = (.ok created, .idle after) ∧
        upsertInSession here requests abort graph =
          (.ok created, if abort then graph else after)) ∨
      ∃ error left,
        requests.mapM (upsertOne here) (.idle graph) = (.error (.failed error), .idle left) ∧
        upsertInSession here requests abort graph = (.error error, graph) := by
  have singly := singly_denotes here requests
  rw [upsert_in_session_apply, commit_apply, upsert_together_apply]
  cases written : upsertAll here requests graph with
  | ok pair => exact .inl ⟨pair.1, pair.2, singly.done written, rfl⟩
  | error error =>
    obtain ⟨left, interrupted⟩ := singly.failed written
    exact .inr ⟨error, left, interrupted, rfl⟩

end CodeAtlas.Graph
