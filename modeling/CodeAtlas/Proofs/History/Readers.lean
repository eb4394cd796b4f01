import CodeAtlas.Proofs.History.FileDiff
import CodeAtlas.Proofs.History.Written
import CodeAtlas.Proofs.Isolation.Reads
import CodeAtlas.Proofs.Review.Comparison

/-! Three readers of one set. Snippets are looked up by id, branches are compared by scanning a
context, and reviews take their evidence from a context and a language; all of them see exactly the
functions and classes that the history says were written since their context was emptied. -/
namespace CodeAtlas.Runs

open CodeAtlas.Graph
open CodeAtlas.Indexing
open CodeAtlas.Review (Status)
open CodeAtlas.Source (Elements)

def Written (history : List Event) (identity : Identity) : Prop :=
  ∃ body, .element identity body ∈ recent identity.context history

variable {here : Conditions} {known : List Identity} {history more : List Event}
  {graph after : Graph} {identity : Identity} {path language context name : String} {label : Label}

theorem written_iff :
    Written history identity ↔ ∃ body, lastBody? history identity = some body := by
  rw [← Option.isSome_iff_exists, lastBody?, List.findSome?_isSome_iff]
  constructor
  · rintro ⟨body, mem⟩
    exact ⟨_, mem, by simp [Event.bodyOf?]⟩
  · rintro ⟨event, mem, is⟩
    cases event with
    | element written body =>
      by_cases same : written = identity
      · exact ⟨body, same ▸ mem⟩
      · simp [Event.bodyOf?, same] at is
    | _ => simp [Event.bodyOf?] at is

instance (history : List Event) (identity : Identity) : Decidable (Written history identity) :=
  decidable_of_iff _ (Option.isSome_iff_exists.trans written_iff.symm)

theorem written_append (kept : ∀ event ∈ more, event ≠ .emptied identity.context) :
    Written (history ++ more) identity ↔ identity ∈ wrote more ∨ Written history identity := by
  simp only [Written, recent_append kept, List.mem_append, List.mem_reverse, exists_or, mem_wrote]

theorem wrote_append (events more : List Event) :
    wrote (events ++ more) = wrote events ++ wrote more :=
  List.filterMap_append

theorem mem_wrote_of_written (h : Written history identity) : identity ∈ wrote history := by
  obtain ⟨body, mem⟩ := h
  exact mem_wrote.mpr ⟨body, mem_of_mem_recent mem⟩

/-! What the events of an operation are about. -/

theorem course_writes_known {course : Course} :
    ∀ identity ∈ wrote (course.events here graph),
      identity ∈ course.identities ∧ identity.label ∈ compared := by
  intro identity mem
  obtain ⟨body, event⟩ := mem_wrote.mp mem
  cases course with
  | elements found path language context =>
    rcases file_event_cases event with event | ⟨created, begun, planned, -, tried, event⟩
    · cases event
    · obtain ⟨rfl, labelled⟩ := planned_of_event event
      obtain ⟨value, tried⟩ := mem_succeeded.mp tried
      have mem := List.mem_map_of_mem (f := Prod.fst) tried
      rw [tryPlan, items_tryAll] at mem
      refine ⟨?_, labelled⟩
      exact List.mem_append_left _ (List.mem_cons_of_mem _ (List.mem_map_of_mem mem))
  | functions loose language context =>
    obtain ⟨function, tried, event⟩ := List.mem_flatMap.mp event
    obtain rfl := loose_of_event event
    obtain ⟨value, tried⟩ := mem_succeeded.mp tried
    have mem := List.mem_map_of_mem (f := Prod.fst) tried
    rw [items_tryAll] at mem
    exact ⟨List.mem_append_left _ (List.mem_flatMap.mpr ⟨function, mem, List.mem_cons_self⟩),
      List.mem_cons_self⟩
  | unchanged | library | names | extract => cases event
  | emptied => simp [Course.events] at event

theorem operation_writes_known {operation : Operation} (contextual : operation.IsContextual) :
    ∀ identity ∈ wrote (operation.events here graph),
      identity ∈ operation.identities here ∧ identity.label ∈ compared := by
  obtain ⟨course, follows⟩ := operation_course contextual here graph
  rw [follows.events]
  intro identity mem
  obtain ⟨own, labelled⟩ := course_writes_known identity mem
  exact ⟨follows.identities own, labelled⟩

theorem course_empties {course : Course} (mem : .emptied context ∈ course.events here graph) :
    course = .emptied context := by
  cases course with
  | elements found path language context' =>
    rcases file_event_cases mem with event | ⟨created, begun, planned, -, -, event⟩
    · cases event
    · exact absurd rfl (plan_events_kept _ event)
  | functions loose language context' =>
    obtain ⟨function, -, mem⟩ := List.mem_flatMap.mp mem
    rcases List.mem_cons.mp mem with event | event
    · cases event
    · split_ifs at event <;> simp at event
  | unchanged | library | names | extract => cases mem
  | emptied => rw [Event.emptied.inj (List.mem_singleton.mp mem)]

theorem operation_spares_defined (free : CollisionFree known) {operation : Operation}
    (contextual : operation.IsContextual) (confined : Confined known graph)
    (mem : identity ∈ known)
    (defined : Defined (operation.on here graph).2 identity.label identity.id) :
    ∀ event ∈ operation.events here graph, event ≠ .emptied identity.context := by
  obtain ⟨course, follows⟩ := operation_course contextual here graph
  rw [follows.after] at defined
  rw [follows.events]
  rintro event emptied rfl
  obtain rfl := course_empties emptied
  obtain ⟨node, inside, -, id, -⟩ := defined
  obtain ⟨inside, apart⟩ := mem_nodes_without.mp inside
  exact apart (confined.context_of_id free inside mem id)

/-! Stubs hold nothing. -/

/-- Nothing is known of a stub but what identifies it. -/
def BareStubs (graph : Graph) : Prop :=
  ∀ node ∈ graph.nodes, node.isStub = true → node.body? = none

theorem body_of_stub (identity : Identity) (now : Int) : (Node.stub identity now).body? = none := by
  have nothing : ∀ columns : List String, (((columns.zip (columns.map fun _ =>
      (none : Option Cell))).lookup "body").join) = none := by
    intro columns
    induction columns with
    | nil => rfl
    | cons column columns ih =>
      rw [List.map_cons, List.zip_cons_cons, List.lookup_cons]
      split <;> first | rfl | exact ih
  rw [Node.body?, Node.attribute?, Node.stub, nothing]
  rfl

theorem bare_moves (here : Conditions) :
    PrimitiveMoves here fun before after => BareStubs before → BareStubs after where
  refl _ h := h
  trans first second h := second (first h)
  upsert identity given _ graph created after done h node mem marked := by
    rcases upsert_cases done with ⟨-, -, -, rfl⟩ | ⟨old, -, -, -, rfl⟩
    · rcases List.mem_append.mp mem with mem | mem
      · exact h node mem marked
      · obtain rfl := List.mem_singleton.mp mem
        cases marked
    · rcases mem_setNode mem with rfl | ⟨mem, -⟩
      · cases marked
      · exact h node mem marked
  ensure identity _ graph created after done h node mem marked := by
    rcases ensure_cases done with ⟨-, -, rfl⟩ | ⟨-, -, -, rfl⟩
    · exact h node mem marked
    · rcases List.mem_append.mp mem with mem | mem
      · exact h node mem marked
      · obtain rfl := List.mem_singleton.mp mem
        exact body_of_stub identity here.now
  link type source target context properties graph value after done h node mem marked := by
    obtain ⟨-, -, -, rfl⟩ := link_cases done
    rw [nodes_joined] at mem
    exact h node mem marked

theorem run_bare (steps : List Step) : BareStubs (run steps) := by
  refine run_invariant (P := BareStubs) (by simp [BareStubs, empty]) fun step _ graph h => ?_
  have emptied : ∀ graph context, BareStubs graph → BareStubs (graph.without context) :=
    fun graph context h node mem => h node (mem_nodes_without.mp mem).1
  exact (bare_moves step.here).operation emptied step.operation graph h

/-! Runs. -/

/-- The history says of every defined function and class that it was written. -/
structure Attests (known : List Identity) (history : List Event) (graph : Graph) : Prop where
  tracks : Tracks known history graph
  occurs : ∀ identity ∈ wrote history, identity ∈ known ∧ identity.label ∈ compared
  written : ∀ identity ∈ known, identity.label ∈ compared →
    Defined graph identity.label identity.id → Written history identity

theorem attests_operation (free : CollisionFree known) {operation : Operation}
    (contextual : operation.IsContextual) (occur : operation.identities here ⊆ known)
    (h : Attests known history graph) :
    Attests known (history ++ operation.events here graph) (operation.on here graph).2 := by
  have wrote_known : ∀ identity ∈ wrote (operation.events here graph),
      identity ∈ known ∧ identity.label ∈ compared := by
    intro identity mem
    obtain ⟨inside, labelled⟩ := operation_writes_known contextual identity mem
    exact ⟨occur inside, labelled⟩
  refine ⟨tracks_operation free contextual occur h.tracks, ?_, ?_⟩
  · intro identity mem
    rw [wrote_append] at mem
    exact (List.mem_append.mp mem).elim (h.occurs identity) (wrote_known identity)
  · intro identity mem labelled defined
    have kept := operation_spares_defined free contextual h.tracks.confined mem defined
    refine (written_append kept).mpr ?_
    rcases introduces_operation contextual graph identity.label labelled identity.id defined with
      before | ⟨other, wrote, -, id⟩
    · exact .inr (h.written identity mem labelled before)
    · obtain rfl := free.eq_of_id (wrote_known other wrote).1 mem id
      exact .inl wrote

theorem run_attests (free : CollisionFree known) {steps : List Step}
    (contextual : ∀ step ∈ steps, step.operation.IsContextual) (occur : identities steps ⊆ known) :
    Attests known (events steps) (run steps) := by
  refine history_invariant ⟨empty_tracks known, by simp [wrote], ?_⟩ fun step mem past graph h => ?_
  · rintro identity - - ⟨node, mem, -⟩
    cases mem
  · refine attests_operation free (contextual step mem) (fun identity inside => occur ?_) h
    exact List.mem_flatMap.mpr ⟨step, mem, inside⟩

/-! What the readers see. -/

theorem Attests.node_of_body (free : CollisionFree known) (h : Attests known history graph)
    {body : String} (last : lastBody? history identity = some body) :
    ∃ node ∈ graph.nodes, node.identity = identity ∧ node.body? = some body := by
  obtain ⟨mem, labelled⟩ := h.occurs identity (mem_wrote_of_written (written_iff.mpr ⟨body, last⟩))
  obtain ⟨node, found, is⟩ := h.tracks.bodies identity mem labelled body last
  obtain ⟨inside, -, id⟩ := node?_eq_some found
  exact ⟨node, inside, h.tracks.confined.identity_of_id free inside mem id, is⟩

theorem Attests.written_of_defined (h : Attests known history graph) {node : Node}
    (inside : node ∈ graph.nodes) (labelled : node.label ∈ compared)
    (defined : node.isStub = false) : Written history node.identity :=
  h.written node.identity (h.tracks.confined.occurs node inside) labelled
    ⟨node, inside, rfl, h.tracks.confined.wellFormed.named node inside, defined⟩

/-- The body of a function or a class is the last one written of it, and a stub has none. -/
theorem Attests.body_of_node (free : CollisionFree known) (h : Attests known history graph)
    (bare : BareStubs graph) {node : Node} (inside : node ∈ graph.nodes)
    (labelled : node.label ∈ compared) : node.body? = lastBody? history node.identity := by
  cases last : lastBody? history node.identity with
  | some body =>
    obtain ⟨other, inside', same, is⟩ := h.node_of_body free last
    obtain rfl := h.tracks.confined.wellFormed.eq_of_identity inside' inside same
    exact is
  | none =>
    refine bare node inside (Bool.not_eq_false _ ▸ fun defined => ?_)
    obtain ⟨body, is⟩ := written_iff.mp (h.written_of_defined inside labelled defined)
    rw [last] at is
    cases is

theorem Attests.defined_iff (free : CollisionFree known) (h : Attests known history graph)
    (bare : BareStubs graph) {node : Node} (inside : node ∈ graph.nodes)
    (labelled : node.label ∈ compared) :
    node.isStub = false ↔ Written history node.identity := by
  refine ⟨h.written_of_defined inside labelled, fun written => ?_⟩
  refine Bool.not_eq_true _ ▸ fun marked => ?_
  obtain ⟨body, last⟩ := written_iff.mp written
  have none := bare node inside marked
  rw [h.body_of_node free bare inside labelled, last] at none
  cases none

theorem Attests.is_indexed_iff (free : CollisionFree known) (h : Attests known history graph)
    (bare : BareStubs graph) (mem : .named label name language context ∈ known)
    (labelled : label ∈ compared) :
    Review.isIndexed graph label name language context = true ↔
      Written history (.named label name language context) := by
  rw [Review.isIndexed]
  constructor
  · intro indexed
    split at indexed
    · next node found =>
      obtain ⟨inside, labels, id⟩ := node?_eq_some found
      have same := h.tracks.confined.identity_of_id free inside mem id
      rw [← same]
      exact (h.defined_iff free bare inside (labels ▸ labelled)).mp (by simpa using indexed)
    · cases indexed
  · intro written
    obtain ⟨body, last⟩ := written_iff.mp written
    obtain ⟨node, found, -⟩ := h.tracks.bodies _ mem labelled body last
    obtain ⟨inside, labels, id⟩ := node?_eq_some found
    have same := h.tracks.confined.identity_of_id free inside mem id
    rw [show graph.node? label _ = some node from found]
    simpa using (h.defined_iff free bare inside (labels ▸ labelled)).mpr (same ▸ written)

theorem Attests.compares_iff (free : CollisionFree known) (h : Attests known history graph)
    (bare : BareStubs graph) {element : Review.ComparedElement} :
    element ∈ Review.elementsOf graph context ↔
      ∃ language, Written history (.named element.label element.name language context) := by
  rw [Review.mem_elements_of]
  constructor
  · rintro ⟨labelled, node, inside, defined, labels, shows, rfl⟩
    rw [← labels] at labelled
    refine ⟨node.language, ?_⟩
    rw [← labels, ← shows, ← named_of_shown h.tracks.confined.wellFormed inside labelled]
    exact h.written_of_defined inside labelled defined
  · rintro ⟨language, written⟩
    have labelled := (h.occurs _ (mem_wrote_of_written written)).2
    obtain ⟨body, last⟩ := written_iff.mp written
    obtain ⟨node, inside, same, -⟩ := h.node_of_body free last
    obtain ⟨labels, shows, -, context⟩ := shown_of_named labelled same
    have defined := (h.defined_iff free bare inside (labels ▸ labelled)).mpr (same ▸ written)
    exact ⟨labelled, node, inside, defined, labels, shows, context⟩

theorem Attests.scans_iff (free : CollisionFree known) (h : Attests known history graph)
    (bare : BareStubs graph) {body : String} :
    (name, body) ∈ ((graph.nodesWith .function context).filter fun node =>
        node.language = language && !node.isStub).map
          (fun node => (node.displayName, node.body?.getD "")) ↔
      lastBody? history (.named .function name language context) = some body := by
  have labelled : Label.function ∈ compared := List.mem_cons_self
  simp only [List.mem_map, List.mem_filter, mem_nodesWith, Bool.and_eq_true, decide_eq_true_eq,
    Bool.not_eq_true', Prod.mk.injEq]
  constructor
  · rintro ⟨node, ⟨⟨inside, labels, rfl⟩, rfl, defined⟩, rfl, rfl⟩
    rw [← labels] at labelled
    obtain ⟨body, last⟩ := written_iff.mp (h.written_of_defined inside labelled defined)
    rw [h.body_of_node free bare inside labelled, last, Option.getD_some, ← last, ← labels,
      ← named_of_shown h.tracks.confined.wellFormed inside labelled]
  · intro last
    obtain ⟨node, inside, same, is⟩ := h.node_of_body free last
    obtain ⟨labels, shows, language, context⟩ := shown_of_named labelled same
    have defined := (h.defined_iff free bare inside (labels ▸ labelled)).mpr
      (written_iff.mpr ⟨body, same ▸ last⟩)
    exact ⟨node, ⟨⟨inside, labels, context⟩, language, defined⟩, shows, by rw [is]; rfl⟩

theorem Attests.evidence_iff (free : CollisionFree known) (h : Attests known history graph)
    (bare : BareStubs graph) {body : String} :
    (name, body) ∈ Quality.evidence graph language context ↔
      lastBody? history (.named .function name language context) = some body := by
  rw [Quality.evidence, mem_bindAll, h.scans_iff free bare]
  intro name body other first second
  exact Option.some.inj
    (((h.scans_iff free bare).mp first).symm.trans ((h.scans_iff free bare).mp second))

theorem Attests.look_up (free : CollisionFree known) (h : Attests known history graph)
    (bare : BareStubs graph) (mem : .named label name language context ∈ known)
    (labelled : label ∈ compared) :
    shown (Review.lookUp graph language context label name) = (label, name,
      if Written history (.named label name language context) then .found else .notFound) := by
  rw [Review.lookUp]
  by_cases written : Written history (.named label name language context)
  · rw [if_pos ((h.is_indexed_iff free bare mem labelled).mpr written), if_pos written]
    rfl
  · rw [if_neg fun indexed => written ((h.is_indexed_iff free bare mem labelled).mp indexed),
      if_neg written]
    rfl

/-- After any run in contexts, the three readers agree with the history. A snippet finds what was
written under its name and language, a branch shows what was written in any language, and a review
takes as evidence each function of its language once, with its last body. -/
theorem readers_agree (steps : List Step) (elements : Elements) (language context : String)
    (contextual : ∀ step ∈ steps, step.operation.IsContextual)
    (free : CollisionFree (Review.snippetIdentities elements language context ++
      identities steps)) :
    let graph := run steps
    let history := events steps
    let judged (label : Label) (name : String) : Label × String × Status :=
      (label, name, if Written history (.named label name language context)
        then .found else .notFound)
    (Review.validateSnippet graph elements language context).findings.map shown =
        elements.functions.map (fun function => judged .function function.name) ++
          elements.classes.map (fun classDef => judged .classDef classDef.name) ∧
      (∀ element, element ∈ Review.elementsOf graph context ↔
        ∃ language, Written history (.named element.label element.name language context)) ∧
      (∀ name body, (name, body) ∈ Quality.evidence graph language context ↔
        lastBody? history (.named .function name language context) = some body) ∧
      ((Quality.evidence graph language context).map Prod.fst).Nodup ∧
      ∀ node ∈ graph.nodes, node.label ∈ compared → node.isStub = true →
        ¬ Written history node.identity := by
  intro graph history judged
  have attests := run_attests free contextual (List.subset_append_right _ _)
  have bare : BareStubs graph := run_bare steps
  refine ⟨?_, fun _ => attests.compares_iff free bare, fun _ _ => attests.evidence_iff free bare,
    ?_, ?_⟩
  · rw [Review.validateSnippet, List.map_append, List.map_map, List.map_map]
    congr 1
    · refine List.map_congr_left fun function mem => ?_
      refine attests.look_up free bare (List.mem_append_left _ ?_) (by decide)
      exact List.mem_append_left _ (List.mem_map.mpr ⟨function, mem, rfl⟩)
    · refine List.map_congr_left fun classDef mem => ?_
      refine attests.look_up free bare (List.mem_append_left _ ?_) (by decide)
      exact List.mem_append_right _ (List.mem_map.mpr ⟨classDef, mem, rfl⟩)
  · rw [Quality.evidence, keys_bindAll]
    exact nodup_distinct _
  · intro node inside labelled marked written
    rw [(attests.defined_iff free bare inside labelled).mpr written] at marked
    cases marked

def twoLanguages : List Step :=
  [⟨{ now := 1 }, .indexFunctions [⟨"f", "{ g() }", none⟩] "python" none none⟩,
    ⟨{ now := 2 }, .indexFunctions [⟨"f", "x", none⟩] "typescript" none none⟩]

/-- The function called is not read, and each language keeps its body. -/
theorem two_languages_read :
    (Review.validateSnippet (run twoLanguages) { functions := [⟨"g", ""⟩, ⟨"f", ""⟩] } "python"
        "default:main").findings.map shown =
      [(.function, "g", .notFound), (.function, "f", .found)] ∧
      ⟨.function, "f"⟩ ∈ Review.elementsOf (run twoLanguages) "default:main" ∧
      ("f", "{ g() }") ∈ Quality.evidence (run twoLanguages) "python" "default:main" := by
  obtain ⟨told, free⟩ : events twoLanguages =
      [.element (.named .function "f" "python" "default:main") "{ g() }",
        .element (.named .function "f" "typescript" "default:main") "x"] ∧
      CollisionFree (Review.snippetIdentities { functions := [⟨"g", ""⟩, ⟨"f", ""⟩] } "python"
        "default:main" ++ identities twoLanguages) := by
    decide +kernel
  obtain ⟨found, compared, evidence, -⟩ := readers_agree twoLanguages
    { functions := [⟨"g", ""⟩, ⟨"f", ""⟩] } "python" "default:main"
    (by simp [twoLanguages, Operation.IsContextual]) free
  rw [found, compared, evidence, told]
  refine ⟨by decide, ⟨"python", by decide⟩, by decide⟩

end CodeAtlas.Runs
