import CodeAtlas.Proofs.Indexing.Itemised
import CodeAtlas.Proofs.Runs

/-! The history of a run, as far as files, functions and classes go: which writes of them succeeded
and which contexts were emptied. It knows nothing of how the graph keeps them. -/
namespace CodeAtlas.Runs

open CodeAtlas.Graph
open CodeAtlas.Indexing (LooseFunction PlannedWrite)
open CodeAtlas.Source (Elements)

inductive Event where
  /-- The node of a file was written. -/
  | file (path context : String)
  /-- A function or a class was written. -/
  | element (identity : Identity) (body : String)
  /-- A function or a class was written as an element of a file. -/
  | held (path : String) (identity : Identity)
  /-- A context was emptied. -/
  | emptied (context : String)
  deriving DecidableEq

def compared : List Label := [.function, .classDef]

/-- What happened since a context was last emptied, the latest first. -/
def recent (context : String) (history : List Event) : List Event :=
  history.reverse.takeWhile (· ≠ .emptied context)

def Event.bodyOf? (identity : Identity) : Event → Option String
  | .element written body => if written = identity then some body else none
  | _ => none

/-- The body of the last write of an element since its context was emptied. -/
def lastBody? (history : List Event) (identity : Identity) : Option String :=
  (recent identity.context history).findSome? (Event.bodyOf? identity)

variable {context : String} {history : List Event} {event : Event}

@[simp] theorem recent_nil (context : String) : recent context [] = [] := rfl

theorem recent_concat (context : String) (history : List Event) (event : Event) :
    recent context (history ++ [event]) =
      if event = .emptied context then [] else event :: recent context history := by
  rw [recent, List.reverse_concat, List.takeWhile_cons]
  by_cases emptied : event = .emptied context
  · simp [emptied]
  · simp [emptied, recent]

theorem mem_recent_concat {other : Event} (kept : event ≠ .emptied context) :
    other ∈ recent context (history ++ [event]) ↔
      other = event ∨ other ∈ recent context history := by
  rw [recent_concat, if_neg kept, List.mem_cons]

theorem emptied_ne {elsewhere : String} (apart : elsewhere ≠ context) :
    Event.emptied context ≠ .emptied elsewhere :=
  fun same => apart (Event.emptied.inj same).symm

theorem mem_recent_concat_of_ne {other : Event} (kept : event ≠ .emptied context)
    (ne : other ≠ event) :
    other ∈ recent context (history ++ [event]) ↔ other ∈ recent context history := by
  rw [mem_recent_concat kept, or_iff_right ne]

theorem recent_append {more : List Event} (kept : ∀ event ∈ more, event ≠ .emptied context) :
    recent context (history ++ more) = more.reverse ++ recent context history := by
  rw [recent, List.reverse_append, List.takeWhile_append_of_pos]
  · rfl
  · intro event mem
    exact decide_eq_true (kept event (List.mem_reverse.mp mem))

theorem mem_of_mem_recent (h : event ∈ recent context history) : event ∈ history :=
  List.mem_reverse.mp ((List.takeWhile_sublist _).subset h)

theorem lastBody?_concat (history : List Event) (event : Event) (identity : Identity) :
    lastBody? (history ++ [event]) identity =
      if event = .emptied identity.context then none
      else (event.bodyOf? identity).or (lastBody? history identity) := by
  rw [lastBody?, recent_concat]
  split_ifs
  · rfl
  · rw [List.findSome?_cons]
    cases event.bodyOf? identity <;> rfl

theorem lastBody?_concat_of_none {identity : Identity} (kept : event ≠ .emptied identity.context)
    (apart : event.bodyOf? identity = none) :
    lastBody? (history ++ [event]) identity = lastBody? history identity := by
  rw [lastBody?_concat, if_neg kept, apart, Option.none_or]

theorem lastBody?_self (history : List Event) (identity : Identity) (body : String) :
    lastBody? (history ++ [.element identity body]) identity = some body := by
  rw [lastBody?_concat, if_neg Event.noConfusion]
  simp [Event.bodyOf?]

/-! The events of one operation. -/

def planEvents (path : String) (planned : PlannedWrite) : List Event :=
  if planned.identity.label ∈ compared then
    [.element planned.identity (((planned.attributes.lookup "body").bind Cell.text?).getD ""),
      .held path planned.identity]
  else []

def fileEvents (here : Conditions) (elements : Elements) (path language context : String)
    (graph : Graph) : List Event :=
  match upsert here (.file path context) [] graph with
  | .error _ => []
  | .ok (_, begun) =>
    .file path context ::
      (succeeded (Indexing.tryPlan here elements path language context begun).1).flatMap
        (planEvents path)

def looseEvents (language context : String) (function : LooseFunction) : List Event :=
  let identity := Identity.named .function function.name language context
  let path := function.path.getD ""
  .element identity function.body ::
    if path = "" then [] else [.file path context, .held path identity]

def functionEvents (here : Conditions) (functions : List LooseFunction) (language context : String)
    (graph : Graph) : List Event :=
  (succeeded (tryAll (Indexing.writeFunction here language context) functions graph).1).flatMap
    (looseEvents language context)

/-- An event of a file is about its node or comes of an element whose write succeeded. -/
theorem file_event_cases {here : Conditions} {elements : Elements} {path language : String}
    {graph : Graph} (h : event ∈ fileEvents here elements path language context graph) :
    event = .file path context ∨ ∃ created begun planned,
      upsert here (.file path context) [] graph = .ok (created, begun) ∧
      planned ∈ succeeded (Indexing.tryPlan here elements path language context begun).1 ∧
      event ∈ planEvents path planned := by
  rw [fileEvents] at h
  cases put : upsert here (.file path context) [] graph with
  | error error => simp [put] at h
  | ok pair =>
    rw [put] at h
    rcases List.mem_cons.mp h with rfl | h
    · exact .inl rfl
    · obtain ⟨planned, mem, event⟩ := List.mem_flatMap.mp h
      exact .inr ⟨pair.1, pair.2, planned, rfl, mem, event⟩

theorem planned_of_event {path : String} {planned : PlannedWrite} {identity : Identity}
    {body : String} (h : .element identity body ∈ planEvents path planned) :
    planned.identity = identity ∧ identity.label ∈ compared := by
  unfold planEvents at h
  split_ifs at h with label
  · simp only [List.mem_cons, List.not_mem_nil, or_false, reduceCtorEq] at h
    obtain ⟨rfl, -⟩ := Event.element.inj h
    exact ⟨rfl, label⟩
  · cases h

theorem loose_of_event {language : String} {function : LooseFunction} {identity : Identity}
    {body : String} (h : .element identity body ∈ looseEvents language context function) :
    identity = .named .function function.name language context := by
  rcases List.mem_cons.mp h with event | event
  · exact (Event.element.inj event).1
  · split_ifs at event <;> simp at event

def Operation.events (here : Conditions) (graph : Graph) : Operation → List Event
  | indexFile file project branch =>
    match file.elements, Indexing.contextKey project branch with
    | .ok elements, .ok context =>
      fileEvents here elements file.path file.elementLanguage context graph
    | _, _ => []
  | indexElements elements path language project branch =>
    match Indexing.contextKey project branch with
    | .ok context => fileEvents here elements path language context graph
    | .error _ => []
  | indexFunctions functions language project branch =>
    match Indexing.contextKey project branch with
    | .ok context => functionEvents here functions language context graph
    | .error _ => []
  | administer .create _ _ => []
  | administer action project branch =>
    match Contexts.required action project branch with
    | .ok context => [.emptied context]
    | .error _ => []
  | _ => []

def eventsFrom : Graph → List Step → List Event
  | _, [] => []
  | graph, step :: steps =>
    step.operation.events step.here graph ++ eventsFrom (step.after graph) steps

def events (steps : List Step) : List Event := eventsFrom .empty steps

end CodeAtlas.Runs
