import CodeAtlas.Proofs.Graph.Writes

/-! Batches: writes tried one after the other, where a failure of the store is an item of the report
and not the end. Each try is atomic, so a batch is exactly the sequence of its successful writes. -/
namespace CodeAtlas.Graph

variable {α β ρ : Type}

/-- Tries one by one: a success moves the graph on, a failure leaves it as it was. -/
inductive Tried (write : α → Write β) : Graph → List (α × Except Error β) → Graph → Prop where
  | done graph : Tried write graph [] graph
  | succeeded {graph next last item value results} : write item graph = .ok (value, next) →
      Tried write next results last → Tried write graph ((item, .ok value) :: results) last
  | failed {graph last item error results} : write item graph = .error error →
      Tried write graph results last → Tried write graph ((item, .error error) :: results) last

/-- The results of trying all items, and the graph after the last. -/
def tryAll (write : α → Write β) : List α → Graph → List (α × Except Error β) × Graph
  | [], graph => ([], graph)
  | item :: items, graph =>
    match write item graph with
    | .ok (value, next) =>
      ((item, .ok value) :: (tryAll write items next).1, (tryAll write items next).2)
    | .error error =>
      ((item, .error error) :: (tryAll write items graph).1, (tryAll write items graph).2)

def succeeded (results : List (α × Except Error β)) : List α :=
  results.filterMap fun (item, result) =>
    match result with
    | .ok _ => some item
    | .error _ => none

def failed (results : List (α × Except Error β)) : List (α × Error) :=
  results.filterMap fun (item, result) =>
    match result with
    | .ok _ => none
    | .error error => some (item, error)

variable {item : α} {value : β} {error : Error} {results : List (α × Except Error β)}

@[simp] theorem succeeded_ok :
    succeeded ((item, .ok value) :: results) = item :: succeeded results := rfl

@[simp] theorem succeeded_error :
    succeeded ((item, .error error) :: results) = succeeded results := rfl

@[simp] theorem failed_ok : failed ((item, .ok value) :: results) = failed results := rfl

@[simp] theorem failed_error :
    failed ((item, .error error) :: results) = (item, error) :: failed results := rfl

theorem mem_succeeded :
    item ∈ succeeded results ↔ ∃ value, (item, .ok value) ∈ results := by
  constructor
  · intro h
    obtain ⟨⟨found, _ | value⟩, mem, eq⟩ := List.mem_filterMap.mp h
    · cases eq
    · obtain rfl := Option.some.inj eq
      exact ⟨value, mem⟩
  · rintro ⟨value, mem⟩
    exact List.mem_filterMap.mpr ⟨_, mem, rfl⟩

theorem mem_failed :
    (item, error) ∈ failed results ↔ (item, .error error) ∈ results := by
  constructor
  · intro h
    obtain ⟨⟨found, caught | value⟩, mem, eq⟩ := List.mem_filterMap.mp h
    · obtain ⟨rfl, rfl⟩ := Prod.mk.inj (Option.some.inj eq)
      exact mem
    · cases eq
  · exact fun mem => List.mem_filterMap.mpr ⟨_, mem, rfl⟩

theorem failed_map {γ : Type} (f : α → γ) (results : List (α × Except Error β)) :
    failed (results.map (Prod.map f fun result => result)) =
      (failed results).map (Prod.map f fun error => error) := by
  induction results with
  | nil => rfl
  | cons item results ih =>
    obtain ⟨item, _ | _⟩ := item
    · exact congrArg ((f item, _) :: ·) ih
    · exact ih

theorem succeeded_of_clean (clean : failed results = []) :
    succeeded results = results.map Prod.fst := by
  induction results with
  | nil => rfl
  | cons first results ih =>
    obtain ⟨item, _ | value⟩ := first
    · cases clean
    · exact congrArg (item :: ·) (ih clean)

theorem succeeded_add_failed (results : List (α × Except Error β)) :
    (succeeded results).length + (failed results).length = results.length := by
  induction results with
  | nil => rfl
  | cons item results ih =>
    obtain ⟨item, _ | _⟩ := item
    · simp only [succeeded_error, failed_error, List.length_cons, ← ih]
      omega
    · simp only [succeeded_ok, failed_ok, List.length_cons, ← ih]
      omega

theorem tried_tryAll (write : α → Write β) (items : List α) (graph : Graph) :
    Tried write graph (tryAll write items graph).1 (tryAll write items graph).2 := by
  induction items generalizing graph with
  | nil => exact .done graph
  | cons item items ih =>
    cases attempted : write item graph with
    | error error => simpa only [tryAll, attempted] using .failed attempted (ih graph)
    | ok pair => simpa only [tryAll, attempted] using .succeeded attempted (ih pair.2)

theorem items_tryAll (write : α → Write β) (items : List α) (graph : Graph) :
    (tryAll write items graph).1.map Prod.fst = items := by
  induction items generalizing graph with
  | nil => rfl
  | cons item items ih =>
    cases attempted : write item graph with
    | error error => simp only [tryAll, attempted, List.map_cons, ih]
    | ok pair => simp only [tryAll, attempted, List.map_cons, ih]

theorem length_tryAll (write : α → Write β) (items : List α) (graph : Graph) :
    (tryAll write items graph).1.length = items.length := by
  simpa using congrArg List.length (items_tryAll write items graph)

theorem tryAll_map {γ : Type} (f : γ → α) (write : α → Write β) (items : List γ) (graph : Graph) :
    tryAll write (items.map f) graph =
      ((tryAll (write ∘ f) items graph).1.map (Prod.map f fun result => result),
        (tryAll (write ∘ f) items graph).2) := by
  induction items generalizing graph with
  | nil => rfl
  | cons item items ih =>
    simp only [List.map_cons, tryAll, Function.comp_apply]
    cases write (f item) graph with
    | error error => simp only [ih, List.map_cons, Prod.map_apply]
    | ok pair => simp only [ih, List.map_cons, Prod.map_apply]

variable {write : α → Write β} {graph last : Graph}

theorem Tried.invariant {results : List (α × Except Error β)}
    (tried : Tried write graph results last) {P : Graph → Prop} (start : P graph)
    (step : ∀ item ∈ results.map Prod.fst, ∀ {graph value next}, P graph →
      write item graph = .ok (value, next) → P next) : P last := by
  induction tried with
  | done graph => exact start
  | succeeded attempted rest ih =>
    refine ih (step _ (by simp) start attempted) fun item mem => step item ?_
    exact List.mem_cons_of_mem _ mem
  | failed attempted rest ih =>
    exact ih start fun item mem => step item (List.mem_cons_of_mem _ mem)

theorem Tried.result {results : List (α × Except Error β)} (tried : Tried write graph results last)
    {I : Graph → Prop} {P : α → β → Graph → Prop} (start : I graph)
    (step : ∀ item ∈ results.map Prod.fst, ∀ {graph value next}, I graph →
      write item graph = .ok (value, next) → I next ∧ P item value next)
    (keep : ∀ item ∈ results.map Prod.fst, ∀ {graph value next} item' value', P item' value' graph →
      write item graph = .ok (value, next) → P item' value' next)
    {item : α} {value : β} (mem : (item, .ok value) ∈ results) : P item value last := by
  induction tried with
  | done graph => cases mem
  | @succeeded graph next last first value' results attempted rest ih =>
    have later : ∀ other ∈ results.map Prod.fst,
        other ∈ ((first, Except.ok value') :: results).map Prod.fst :=
      fun other mem => List.mem_cons_of_mem _ mem
    obtain ⟨held, gained⟩ := step first List.mem_cons_self start attempted
    rcases List.mem_cons.mp mem with eq | mem
    · obtain ⟨rfl, rfl⟩ : item = first ∧ value = value' := by simpa using eq
      exact rest.invariant gained fun other mem => keep other (later other mem) item value
    · exact ih held (fun other mem => step other (later other mem))
        (fun other mem => keep other (later other mem)) mem
  | failed attempted rest ih =>
    rcases List.mem_cons.mp mem with eq | mem
    · cases (Prod.mk.inj eq).2
    · exact ih start (fun other mem => step other (List.mem_cons_of_mem _ mem))
        (fun other mem => keep other (List.mem_cons_of_mem _ mem)) mem

/-- What is known of the items written so far is known of all of them at the end. -/
theorem Tried.accumulate {results : List (α × Except Error β)}
    (tried : Tried write graph results last) {P : List α → Graph → Prop}
    (step : ∀ item ∈ results.map Prod.fst, ∀ {done graph value next}, P done graph →
      write item graph = .ok (value, next) → P (done ++ [item]) next)
    (done : List α) (start : P done graph) : P (done ++ Graph.succeeded results) last := by
  induction tried generalizing done with
  | done graph => simpa [Graph.succeeded] using start
  | succeeded attempted rest ih =>
    have tail := ih (fun item mem => step item (List.mem_cons_of_mem _ mem)) _
      (step _ List.mem_cons_self start attempted)
    simpa [List.append_assoc] using tail
  | failed attempted rest ih =>
    exact ih (fun item mem => step item (List.mem_cons_of_mem _ mem)) done start

theorem attempt_apply (write : Write α) (graph : Graph) :
    attempt write graph = match write graph with
      | .ok (value, after) => (.ok (.ok value), after)
      | .error error =>
        if error.isStoreError then (.ok (.error error), graph) else (.error error, graph) := rfl

/-- Where a batch stops: at an item that fails for another reason than the store, when those before
it are tried. -/
structure StopsAt (write : α → Write β) (items : List α) (graph : Graph) (error : Error)
    (after : Graph) : Prop where
  reached : ∃ front item back, items = front ++ item :: back ∧
    after = (tryAll write front graph).2 ∧ write item after = .error error
  unlisted : error.isStoreError = false

theorem StopsAt.cons {items : List α} {middle after : Graph}
    (stops : StopsAt write items middle error after)
    (passed : ∀ front, (tryAll write (item :: front) graph).2 = (tryAll write front middle).2) :
    StopsAt write (item :: items) graph error after where
  reached := by
    obtain ⟨front, last, back, rfl, rfl, refused⟩ := stops.reached
    exact ⟨item :: front, last, back, rfl, (passed front).symm, refused⟩
  unlisted := stops.unlisted

/-- A batch makes its report of the results of all tries, whose failures are those of the store, or
it stops early. -/
theorem batch_cases (write : α → Write β) (record : ρ → α → Except Error β → ρ) (items : List α)
    (start : ρ) (graph : Graph) :
    let batch : Session ρ := items.foldlM (fun report item => do
      let result ← attempt (write item)
      return record report item result) start
    ((∀ failure ∈ failed (tryAll write items graph).1, failure.2.isStoreError = true) ∧
      batch graph = (.ok ((tryAll write items graph).1.foldl
        (fun report pair => record report pair.1 pair.2) start), (tryAll write items graph).2)) ∨
      ∃ error after, StopsAt write items graph error after ∧
        batch graph = (.error error, after) := by
  induction items generalizing start graph with
  | nil => exact .inl ⟨nofun, rfl⟩
  | cons item items ih =>
    dsimp only
    rw [List.foldlM_cons, session_bind_apply, session_bind_apply, attempt_apply]
    cases attempted : write item graph with
    | ok pair =>
      have passed : ∀ front, (tryAll write (item :: front) graph).2 =
          (tryAll write front pair.2).2 := fun front => by simp only [tryAll, attempted]
      simp only [tryAll, attempted, List.foldl_cons, failed_ok]
      refine (ih _ pair.2).imp id ?_
      rintro ⟨error, after, stops, stopped⟩
      exact ⟨error, after, stops.cons passed, stopped⟩
    | error error =>
      have passed : ∀ front, (tryAll write (item :: front) graph).2 =
          (tryAll write front graph).2 := fun front => by simp only [tryAll, attempted]
      simp only [tryAll, attempted, List.foldl_cons, failed_error, List.forall_mem_cons]
      by_cases listed : error.isStoreError = true
      · rw [if_pos listed]
        refine (ih _ graph).imp (fun done => ⟨⟨listed, done.1⟩, done.2⟩) ?_
        rintro ⟨other, after, stops, stopped⟩
        exact ⟨other, after, stops.cons passed, stopped⟩
      · rw [if_neg listed]
        exact .inr ⟨error, graph, ⟨⟨[], item, items, rfl, rfl, attempted⟩, by simpa using listed⟩,
          rfl⟩

theorem batch_apply (record : ρ → α → Except Error β → ρ) {items : List α}
    (itemised : ∀ item ∈ items, ∀ graph error, write item graph = .error error → error.isStoreError)
    (start : ρ) (graph : Graph) :
    (items.foldlM (fun report item => do
      let result ← attempt (write item)
      return record report item result) start : Session ρ) graph =
      (.ok ((tryAll write items graph).1.foldl
        (fun report pair => record report pair.1 pair.2) start), (tryAll write items graph).2) := by
  refine ((batch_cases write record items start graph).resolve_right ?_).2
  rintro ⟨error, after, ⟨⟨front, item, back, split, -, refused⟩, unlisted⟩, -⟩
  have listed := itemised item (by simp [split]) after error refused
  simp [listed] at unlisted

end CodeAtlas.Graph
