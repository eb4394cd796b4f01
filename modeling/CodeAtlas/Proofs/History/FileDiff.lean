import CodeAtlas.Proofs.History.Runs

/-! Comparing a file with what is indexed under its path, judged by the history alone. Elements are
shared by all files of a context while each file holds its own, so an element is new when this file
has not been given it, and otherwise compared with its last body, whoever wrote that. -/
namespace CodeAtlas.Runs

open CodeAtlas.Graph
open CodeAtlas.Review (FileReport FileStatus Finding Status)
open CodeAtlas.Source (Elements)

variable {known : List Identity} {history : List Event} {graph : Graph}
  {path language context name : String} {label : Label}

/-- How the history judges an element of a file by its body. -/
def judged (history : List Event) (path language context : String) (label : Label)
    (name body : String) : Status :=
  let identity := Identity.named label name language context
  if .held path identity ∈ recent context history then
    if lastBody? history identity = some body then .same else .modified
  else .new

def judgements (history : List Event) (path language context : String) (label : Label)
    (bodies : List (String × String)) : List (Label × String × Status) :=
  (distinct (bodies.map Prod.fst)).map fun name =>
    (label, name, judged history path language context label name
      ((valueOf? name bodies.reverse).getD ""))

def reference (history : List Event) (path language context : String) (elements : Elements) :
    List (Label × String × Status) :=
  judgements history path language context .function
      (elements.functions.map fun function => (function.name, function.body))
    ++ judgements history path language context .classDef
      (elements.classes.map fun classDef => (classDef.name, classDef.body))

def referenceStatus (history : List Event) (path context : String) (statuses : List Status) :
    FileStatus :=
  if .file path context ∉ recent context history then .new
  else if .modified ∈ statuses then .modified
  else if .new ∈ statuses then .updated
  else .unchanged

theorem compared_columns (h : label ∈ compared) : label.keyColumns = ["name", "language"] := by
  simp only [compared, List.mem_cons, List.not_mem_nil, or_false] at h
  rcases h with rfl | rfl <;> rfl

theorem named_of_shown {node : Node} (wellFormed : WellFormed graph) (inside : node ∈ graph.nodes)
    (labelled : node.label ∈ compared) :
    node.identity = .named node.label node.displayName node.language node.context := by
  have key := key_of_shown (compared_columns labelled) (wellFormed.keyed node inside)
  rw [Node.identity, key]
  rfl

theorem shown_of_named {node : Node} (labelled : label ∈ compared)
    (identity : node.identity = .named label name language context) :
    node.label = label ∧ node.displayName = name ∧ node.language = language ∧
      node.context = context := by
  have labels : node.label = label := congrArg Identity.label identity
  have key : node.key = [name, language] := congrArg Identity.key identity
  refine ⟨labels, by rw [Node.displayName, key]; rfl, ?_, congrArg Identity.context identity⟩
  rw [Node.language, Node.keyValue, labels, compared_columns labelled, key]
  rfl

theorem contained_inside (free : CollisionFree known) (confined : Confined known graph)
    (file : Identity.file path context ∈ known) {node : Node}
    (mem : node ∈ Review.contained graph (Identity.file path context).id label) :
    node.context = context := by
  have placed : PlacedIn known context (.file path context) := ⟨file, rfl⟩
  obtain ⟨edge, known, found⟩ := List.mem_filterMap.mp mem
  split_ifs at found with contains
  rw [Bool.and_eq_true, decide_eq_true_eq, decide_eq_true_eq] at contains
  obtain ⟨inside, -, id⟩ := node?_eq_some found
  exact (confined.joined edge known node inside (.inr id)).trans
    (placed.edge_inside free confined edge known contains.2)

theorem contained_named (wellFormed : WellFormed graph) (labelled : label ∈ compared) {node : Node}
    (mem : node ∈ Review.namesakes graph (Identity.file path context).id label name language)
    (own : node.context = context) :
    node ∈ graph.nodes ∧ node.identity = .named label name language context ∧
      Holds graph path (.named label name language context) := by
  obtain ⟨mem, shows⟩ := List.mem_filter.mp mem
  rw [Bool.and_eq_true, decide_eq_true_eq, decide_eq_true_eq] at shows
  obtain ⟨edge, known, found⟩ := List.mem_filterMap.mp mem
  split_ifs at found with contains
  rw [Bool.and_eq_true, decide_eq_true_eq, decide_eq_true_eq] at contains
  obtain ⟨inside, labels, id⟩ := node?_eq_some found
  have identity := named_of_shown wellFormed inside (labels ▸ labelled)
  rw [labels, shows.1, shows.2, own] at identity
  refine ⟨inside, identity, List.mem_map.mpr ⟨edge, known, ?_⟩⟩
  rw [← identity, ← wellFormed.named node inside, id]
  simp [Edge.ends, contains, Node.identity, own]

theorem mem_contained {fileId id : String} {node : Node}
    (edge : (EdgeType.contains, fileId, id) ∈ graph.edges.map Edge.ends)
    (found : graph.node? label id = some node) : node ∈ Review.contained graph fileId label := by
  obtain ⟨edge, known, ends⟩ := List.mem_map.mp edge
  simp only [Edge.ends, Prod.mk.injEq] at ends
  refine List.mem_filterMap.mpr ⟨edge, known, ?_⟩
  rw [ends.2.2, if_pos (by simpa using ⟨ends.1, ends.2.1⟩)]
  exact found

theorem indexed_body_cases (graph : Graph) (fileId : String) (label : Label)
    (name language : String) :
    let known := Review.namesakes graph fileId label name language
    let body := Review.indexedBody graph fileId label name language
    (known = [] ∧ body = none) ∨ ∃ node ∈ known, body = node.body? := by
  intro known body
  have picked : body =
      (if label = .function then known.getLast? else known.head?).bind Node.body? := rfl
  by_cases none : known = []
  · refine .inl ⟨none, ?_⟩
    rw [picked, none]
    split_ifs <;> rfl
  · right
    split_ifs at picked
    · rw [List.getLast?_eq_some_getLast none] at picked
      exact ⟨_, List.getLast_mem none, picked⟩
    · rw [List.head?_eq_some_head none] at picked
      exact ⟨_, List.head_mem none, picked⟩

/-- The body that a comparison finds is that of the only node with the name and the language, as
long as the file contains nodes of its own context only. -/
theorem body_of_contained (wellFormed : WellFormed graph) (labelled : label ∈ compared)
    (own : ∀ node ∈ Review.contained graph (Identity.file path context).id label,
      node.context = context)
    {node : Node} (mem : node ∈ Review.contained graph (Identity.file path context).id label)
    (inside : node ∈ graph.nodes) (identity : node.identity = .named label name language context) :
    Review.indexedBody graph (Identity.file path context).id label name language = node.body? := by
  obtain ⟨-, shows, spoken, -⟩ := shown_of_named labelled identity
  have namesake : node ∈
      Review.namesakes graph (Identity.file path context).id label name language :=
    List.mem_filter.mpr ⟨mem, by simp [shows, spoken]⟩
  rcases indexed_body_cases graph (Identity.file path context).id label name language with
    ⟨none, -⟩ | ⟨other, known, found⟩
  · rw [none] at namesake
    cases namesake
  · obtain ⟨inside', identity', -⟩ := contained_named wellFormed labelled known
      (own other (List.mem_filter.mp known).1)
    rw [found, wellFormed.eq_of_identity inside' inside (identity'.trans identity.symm)]

theorem indexed_body_tracks (free : CollisionFree known) (h : Tracks known history graph)
    (file : Identity.file path context ∈ known) (labelled : label ∈ compared)
    (name language : String) :
    Review.indexedBody graph (Identity.file path context).id label name language =
      if .held path (.named label name language context) ∈ recent context history then
        lastBody? history (.named label name language context)
      else none := by
  have wellFormed := h.confined.wellFormed
  have own : ∀ node ∈ Review.contained graph (Identity.file path context).id label,
      node.context = context := fun node mem => contained_inside free h.confined file mem
  split_ifs with held
  · have mem := h.occurs path _ (mem_of_mem_recent held)
    obtain ⟨body, last⟩ := h.written path _ held
    obtain ⟨node, found, is⟩ := h.bodies _ mem labelled body last
    obtain ⟨inside, -, id⟩ := node?_eq_some found
    have contained := mem_contained ((h.held _ mem labelled path file).mpr held) found
    have identity := h.confined.identity_of_id free inside mem id
    rw [body_of_contained wellFormed labelled own contained inside identity, is, last]
  · rcases indexed_body_cases graph (Identity.file path context).id label name language with
      ⟨-, none⟩ | ⟨node, known, -⟩
    · exact none
    · obtain ⟨inside, identity, holds⟩ := contained_named wellFormed labelled known
        (own node (List.mem_filter.mp known).1)
      have mem := identity ▸ h.confined.occurs node inside
      exact absurd ((h.held _ mem labelled path file).mp holds) held

def shown (finding : Finding) : Label × String × Status :=
  (finding.label, finding.name, finding.status)

theorem classify_judged (free : CollisionFree known) (h : Tracks known history graph)
    (file : Identity.file path context ∈ known) (labelled : label ∈ compared)
    (name body : String) :
    shown (Review.classify label name body (Review.indexedBody graph
      (Identity.file path context).id label name language)) =
      (label, name, judged history path language context label name body) := by
  rw [indexed_body_tracks free h file labelled, judged]
  by_cases held : .held path (.named label name language context) ∈ recent context history
  · obtain ⟨known, last⟩ := h.written path _ held
    simp only [held, if_true, last, Option.some.injEq, Review.classify]
    split_ifs <;> rfl
  · simp only [held, if_false, Review.classify]
    rfl

theorem findings_judged (free : CollisionFree known) (h : Tracks known history graph)
    (file : Identity.file path context ∈ known) (labelled : label ∈ compared)
    (bodies : List (String × String)) :
    ((bindAll bodies).map fun (name, body) => Review.classify label name body
      (Review.indexedBody graph (Identity.file path context).id label name language)).map shown =
      judgements history path language context label bodies := by
  rw [bindAll_eq, List.map_map, List.map_map, judgements]
  exact List.map_congr_left fun name _ => classify_judged free h file labelled name _

theorem classify_status (label : Label) (name body : String) (indexed : Option String) :
    (Review.classify label name body indexed).status ∈ [Status.same, .modified, .new] := by
  unfold Review.classify
  split
  · simp
  · split_ifs <;> simp

theorem counts_add_up {findings : List Finding}
    (h : ∀ finding ∈ findings, finding.status ∈ [Status.same, .modified, .new]) :
    Review.countOf .same findings + Review.countOf .modified findings +
      Review.countOf .new findings = findings.length := by
  simp only [Review.countOf, ← List.countP_eq_length_filter]
  induction findings with
  | nil => rfl
  | cons finding findings ih =>
    have rest := ih fun other mem => h other (List.mem_cons_of_mem _ mem)
    have first := h finding List.mem_cons_self
    simp only [List.mem_cons, List.not_mem_nil, or_false] at first
    simp only [List.countP_cons, List.length_cons]
    rcases first with first | first | first <;> simp [first] <;> omega

theorem countOf_ne_zero {status : Status} {findings : List Finding} :
    (Review.countOf status findings != 0) = true ↔ status ∈ findings.map (·.status) := by
  rw [bne_iff_ne, Review.countOf, Ne, List.length_eq_zero_iff, List.filter_eq_nil_iff]
  simp

/-- After any run in contexts, comparing a file gives one judgement for each function name and then
for each class name, and all of it follows from the history. -/
theorem file_diff_follows_history (steps : List Step) (path language context : String)
    (elements : Elements) (contextual : ∀ step ∈ steps, step.operation.IsContextual)
    (free : CollisionFree (.file path context :: identities steps)) :
    let report := Review.validateFile (run steps) path elements language context
    let expected := reference (events steps) path language context elements
    report.findings.map shown = expected ∧
      (report.fileExists = true ↔ .file path context ∈ recent context (events steps)) ∧
      report.status = referenceStatus (events steps) path context (expected.map (·.2.2)) ∧
      report.same + report.modified + report.new = report.findings.length := by
  intro report expected
  have tracks := run_tracks free contextual (List.subset_cons_self _ _)
  have file : Identity.file path context ∈ Identity.file path context :: identities steps :=
    List.mem_cons_self
  have findings : report.findings.map shown = expected := by
    change List.map shown (_ ++ _) = _
    rw [List.map_append, findings_judged free tracks file (by decide),
      findings_judged free tracks file (by decide)]
    rfl
  have exists_iff : report.fileExists = true ↔ .file path context ∈ recent context (events steps) :=
    tracks.files path context file
  have statuses : expected.map (·.2.2) = report.findings.map (·.status) := by
    rw [← findings, List.map_map]
    rfl
  refine ⟨findings, exists_iff, ?_, counts_add_up ?_⟩
  · simp only [FileReport.status, referenceStatus, statuses, ← exists_iff, FileReport.modified,
      FileReport.new, countOf_ne_zero, Bool.not_eq_true']
    cases report.fileExists <;> simp
  · intro finding mem
    rcases List.mem_append.mp mem with mem | mem
    all_goals
      obtain ⟨pair, -, rfl⟩ := List.mem_map.mp mem
      exact classify_status _ _ _ _

def rewritten : List Step :=
  [⟨{ now := 1 }, .indexFunctions [⟨"f", "a", some "p"⟩, ⟨"g", "b", some "p"⟩] "python" none none⟩,
    ⟨{ now := 2 }, .indexFunctions [⟨"g", "c", none⟩] "python" none none⟩]

/-- A body is compared with the last one written, also when that was not written for the file. -/
theorem rewritten_judged :
    (Review.validateFile (run rewritten) "p"
        { functions := [⟨"g", "b"⟩, ⟨"f", "x"⟩, ⟨"h", ""⟩, ⟨"f", "a"⟩] } "python"
        "default:main").findings.map shown =
      [(.function, "g", .modified), (.function, "f", .same), (.function, "h", .new)] := by
  rw [(file_diff_follows_history rewritten "p" "python" "default:main"
    { functions := [⟨"g", "b"⟩, ⟨"f", "x"⟩, ⟨"h", ""⟩, ⟨"f", "a"⟩] }
    (by simp [rewritten, Operation.IsContextual]) (by decide +kernel)).1]
  decide +kernel

end CodeAtlas.Runs
