import CodeAtlas.Proofs.Quality.Likeness
import CodeAtlas.Proofs.Quality.Naming
import CodeAtlas.Proofs.Sorted
import CodeAtlas.Proofs.WellFormed
import Mathlib.Data.Prod.Lex
import Mathlib.Data.String.Basic

/-! What a review depends on. It reads the graph through the functions indexed in a context and a
language, by name and body, and every stage of it forgets the order in which they came. So two
graphs with the same code are reviewed alike, however they came about, and what is found about a
function can be told from that code alone. -/
namespace CodeAtlas.Quality

open CodeAtlas.Graph
open CodeAtlas.Runs (Operation Step run)
open CodeAtlas.Source (Elements FunctionElement)

def indexedCode (graph : Graph) (language context : String) : Set (String × String) :=
  { code | ∃ node ∈ graph.nodes, node.label = .function ∧ node.context = context ∧
    node.language = language ∧ node.isStub = false ∧
      (node.displayName, node.body?.getD "") = code }

variable {graph : Graph} {language context name body : String} {code other : String × String}
  {indexed reordered : List (String × String)} {function : FunctionElement}
  {convention : Option NamingStyle}

/-! Evidence. -/

theorem scanned_iff : code ∈ ((graph.nodesWith .function context).filter fun node =>
      node.language = language && !node.isStub).map
        (fun node => (node.displayName, node.body?.getD "")) ↔
    code ∈ indexedCode graph language context := by
  simp only [List.mem_map, List.mem_filter, mem_nodesWith, Bool.and_eq_true, decide_eq_true_eq,
    Bool.not_eq_true', indexedCode, Set.mem_ofPred_eq]
  constructor
  · rintro ⟨node, ⟨⟨inside, label, context⟩, language, defined⟩, shows⟩
    exact ⟨node, inside, label, context, language, defined, shows⟩
  · rintro ⟨node, inside, label, context, language, defined, shows⟩
    exact ⟨node, ⟨⟨inside, label, context⟩, language, defined⟩, shows⟩

/-- A name stands for one body, as there is one node for each name. -/
theorem body_unique (wellFormed : WellFormed graph)
    (first : (name, body) ∈ indexedCode graph language context) {body' : String}
    (second : (name, body') ∈ indexedCode graph language context) : body = body' := by
  obtain ⟨node, inside, label, rfl, rfl, -, shows⟩ := first
  obtain ⟨node', inside', label', context, language, -, shows'⟩ := second
  obtain ⟨rfl, rfl⟩ := Prod.mk.inj shows
  obtain ⟨names, rfl⟩ := Prod.mk.inj shows'
  have key := key_of_shown (by rw [label]; rfl) (wellFormed.keyed node inside)
  have key' := key_of_shown (by rw [label']; rfl) (wellFormed.keyed node' inside')
  have same : node.identity = node'.identity := by
    rw [Node.identity, Node.identity, key, key', label, label', names, language, context]
  rw [wellFormed.eq_of_identity inside inside' same]

theorem mem_evidence (wellFormed : WellFormed graph) :
    code ∈ evidence graph language context ↔ code ∈ indexedCode graph language context := by
  obtain ⟨name, body⟩ := code
  rw [evidence, mem_bindAll, scanned_iff]
  intro name body body' first second
  exact body_unique wellFormed (scanned_iff.mp first) (scanned_iff.mp second)

theorem nodup_names (graph : Graph) (language context : String) :
    ((evidence graph language context).map Prod.fst).Nodup := by
  rw [evidence, keys_bindAll]
  exact nodup_distinct _

theorem evidence_reordered {more : Graph} (wellFormed : WellFormed graph)
    (wellFormed' : WellFormed more)
    (same : indexedCode graph language context = indexedCode more language context) :
    (evidence graph language context).Perm (evidence more language context) := by
  have once := (nodup_names graph language context).of_map
  have once' := (nodup_names more language context).of_map
  apply (List.perm_ext_iff_of_nodup once once').mpr
  intro code
  rw [mem_evidence wellFormed, mem_evidence wellFormed', same]

/-! Near duplicates. -/

/-- What a function is placed by among the near duplicates of a body: how alike the bodies are, then
its name. -/
def closeness (body : String) (other : String × String) : ℚ ×ₗ String :=
  toLex (similarity body other.2, other.1)

def nearDuplicates (body : String) (others : List (String × String)) : List (String × String) :=
  (others.filter fun other => (Likeness.ofBodies body other.2).isDuplicate).mergeSort
    fun a b => moreAlike (Likeness.ofBodies body a.2, a.1) (Likeness.ofBodies body b.2, b.1)

theorem more_alike_reads_closeness (body : String) (a b : String × String) :
    moreAlike (Likeness.ofBodies body a.2, a.1) (Likeness.ofBodies body b.2, b.1) =
      decide (OrderDual.toDual (closeness body a) ≤ OrderDual.toDual (closeness body b)) := by
  have above (a b : String × String) :
      (Likeness.ofBodies body a.2).atLeast (Likeness.ofBodies body b.2) = true ↔
        similarity body b.2 ≤ similarity body a.2 := by
    rw [Likeness.at_least_iff (Likeness.total_pos _ _) (Likeness.total_pos _ _),
      Likeness.value_of_bodies, Likeness.value_of_bodies]
  rw [moreAlike, Bool.eq_iff_iff, decide_eq_true_eq, OrderDual.toDual_le_toDual, closeness,
    closeness, Prod.Lex.toLex_le_toLex]
  by_cases alike : similarity body a.2 = similarity body b.2
  · have both : ((Likeness.ofBodies body a.2).atLeast (Likeness.ofBodies body b.2) &&
        (Likeness.ofBodies body b.2).atLeast (Likeness.ofBodies body a.2)) = true := by
      rw [Bool.and_eq_true, above, above]
      exact ⟨alike.ge, alike.le⟩
    simp [both, alike]
  · have one : ¬ ((Likeness.ofBodies body a.2).atLeast (Likeness.ofBodies body b.2) &&
        (Likeness.ofBodies body b.2).atLeast (Likeness.ofBodies body a.2)) = true := by
      rw [Bool.and_eq_true, above, above]
      exact fun both => alike (le_antisymm both.2 both.1)
    rw [if_neg one, above, le_iff_lt_or_eq]
    have apart : similarity body b.2 ≠ similarity body a.2 := fun eq => alike eq.symm
    simp [apart]

theorem duplicates_eq (body : String) (others : List (String × String)) :
    duplicatesOf body others = (nearDuplicates body others).map Prod.fst := by
  let score (other : String × String) : Likeness × String :=
    (Likeness.ofBodies body other.2, other.1)
  have filtered : (others.map score).filter (fun scored => scored.1.isDuplicate) =
      (others.filter fun other => (Likeness.ofBodies body other.2).isDuplicate).map score := by
    rw [List.filter_map]
    rfl
  have sorted : (nearDuplicates body others).map score =
      ((others.map score).filter fun scored => scored.1.isDuplicate).mergeSort moreAlike := by
    rw [filtered]
    exact List.map_mergeSort fun a _ b _ => rfl
  calc duplicatesOf body others
      = (((others.map score).filter fun scored =>
          scored.1.isDuplicate).mergeSort moreAlike).map Prod.snd := rfl
    _ = (nearDuplicates body others).map Prod.fst := by
        rw [← sorted, List.map_map]
        rfl

theorem mem_near_duplicates : other ∈ nearDuplicates body indexed ↔
    other ∈ indexed ∧ 7 / 10 < similarity body other.2 := by
  rw [nearDuplicates, List.mem_mergeSort, List.mem_filter, Likeness.is_duplicate_iff]

theorem near_duplicates_descend (once : (indexed.map Prod.fst).Nodup) (body : String) :
    (nearDuplicates body indexed).Pairwise fun a b => closeness body b < closeness body a := by
  apply increasing_by_rank (β := (ℚ ×ₗ String)ᵒᵈ) fun a _ b _ => more_alike_reads_closeness body a b
  have names : ((indexed.filter fun other =>
      (Likeness.ofBodies body other.2).isDuplicate).map Prod.fst).Nodup :=
    once.sublist (List.filter_sublist.map _)
  refine List.Nodup.of_map (fun rank => (ofLex (OrderDual.ofDual rank)).2) ?_
  rw [List.map_map]
  exact names

/-! The order of the evidence is forgotten. -/

theorem near_duplicates_reordered (once : (indexed.map Prod.fst).Nodup)
    (perm : indexed.Perm reordered) (body : String) :
    nearDuplicates body indexed = nearDuplicates body reordered := by
  have once' : (reordered.map Prod.fst).Nodup := (perm.map Prod.fst).nodup_iff.mp once
  have descend := near_duplicates_descend once body
  have descend' := near_duplicates_descend once' body
  apply eq_of_increasing (β := (ℚ ×ₗ String)ᵒᵈ) descend descend'
  intro other
  rw [mem_near_duplicates, mem_near_duplicates, perm.mem_iff]

theorem resembling_reordered (once : (indexed.map Prod.fst).Nodup)
    (perm : indexed.Perm reordered) (name : String) :
    resembling name indexed = resembling name reordered := by
  have once' : (reordered.map Prod.fst).Nodup := (perm.map Prod.fst).nodup_iff.mp once
  rw [resembling, resembling]
  split
  · rfl
  · apply eq_of_increasing (sorted_increases (once.filter _)) (sorted_increases (once'.filter _))
    intro other
    rw [List.mem_mergeSort, List.mem_mergeSort, List.mem_filter, List.mem_filter,
      (perm.map Prod.fst).mem_iff]

def others (indexed : List (String × String)) (function : FunctionElement) :
    List (String × String) :=
  indexed.filter fun other => other.1 ≠ function.name

theorem issues_of_parts (indexed : List (String × String)) (convention : Option NamingStyle)
    (function : FunctionElement) : issuesOf indexed convention function =
      (namingIssue? convention function.name).toList ++
        (duplicateIssue? (others indexed function) function).toList ++
        (similarNameIssue? (others indexed function) function.name).toList := rfl

theorem mem_others : other ∈ others indexed function ↔
    other ∈ indexed ∧ other.1 ≠ function.name := by
  rw [others, List.mem_filter, decide_eq_true_eq]

theorem issues_reordered (once : (indexed.map Prod.fst).Nodup) (perm : indexed.Perm reordered)
    (convention : Option NamingStyle) (function : FunctionElement) :
    issuesOf indexed convention function = issuesOf reordered convention function := by
  have once : ((others indexed function).map Prod.fst).Nodup :=
    once.sublist (List.filter_sublist.map _)
  have perm : (others indexed function).Perm (others reordered function) := perm.filter _
  rw [issues_of_parts, issues_of_parts, duplicateIssue?, duplicateIssue?, duplicates_eq,
    duplicates_eq, near_duplicates_reordered once perm, similarNameIssue?, similarNameIssue?,
    resembling_reordered once perm]

theorem review_reordered {more : Graph}
    (perm : (evidence graph language context).Perm (evidence more language context))
    (elements : Elements) :
    review graph elements language context = review more elements language context := by
  have style := NamingStyle.dominant_reordered (perm.map Prod.fst)
  have each : ∀ convention, issuesOf (evidence graph language context) convention =
      issuesOf (evidence more language context) convention := by
    intro convention
    funext function
    exact issues_reordered (nodup_names graph language context) perm convention function
  rw [review, review, style, each]

/-! What is found about one function. -/

/-- The indexed functions other than the reviewed one that it nearly repeats. -/
def Repeats (code : Set (String × String)) (function : FunctionElement)
    (other : String × String) : Prop :=
  other ∈ code ∧ other.1 ≠ function.name ∧ 7 / 10 < similarity function.body other.2

/-- The issues of a function, told from the code that is indexed: at most one of each kind, in this
order. Its name is related to none of them, and what it repeats is listed with the closest first. -/
structure Findings (code : Set (String × String)) (function : FunctionElement)
    (issues : List Issue) : Prop where
  kinds : (issues.map Issue.kind).Sublist [.naming, .duplicate, .similarName]
  about : ∀ issue ∈ issues, issue.element = function.name
  others_related : ∀ issue ∈ issues, function.name ∉ issue.related
  duplicate_iff : (∃ issue ∈ issues, issue.kind = .duplicate) ↔ ∃ other, Repeats code function other
  closest_related : ∃ found : List (String × String),
    (∀ other, other ∈ found ↔ Repeats code function other) ∧
      found.Pairwise (fun a b => closeness function.body b < closeness function.body a) ∧
      ∀ issue ∈ issues, issue.kind = .duplicate → issue.related = (found.map Prod.fst).take 5

variable {issue : Issue}

theorem of_naming_issue (found : namingIssue? convention name = some issue) :
    issue.kind = .naming ∧ issue.element = name ∧ issue.related = [] := by
  unfold namingIssue? at found
  split at found
  · split at found
    · cases found
    · cases found
      exact ⟨rfl, rfl, rfl⟩
  · cases found

theorem of_similar_issue (found : similarNameIssue? indexed name = some issue) :
    issue.kind = .similarName ∧ issue.element = name ∧
      ∀ related ∈ issue.related, related ∈ indexed.map Prod.fst := by
  rw [similarNameIssue?] at found
  split at found
  · cases found
  · cases found
    refine ⟨rfl, rfl, ?_⟩
    intro related mem
    have resembles : related ∈ resembling name indexed := List.mem_of_mem_take mem
    rw [resembling] at resembles
    split at resembles
    · cases resembles
    · exact (List.mem_filter.mp (List.mem_mergeSort.mp resembles)).1

theorem of_duplicate_issue (found : duplicateIssue? indexed function = some issue) :
    issue.kind = .duplicate ∧ issue.element = function.name ∧
      issue.related = ((nearDuplicates function.body indexed).map Prod.fst).take 5 := by
  rw [duplicateIssue?, duplicates_eq] at found
  split at found
  · cases found
  · cases found
    exact ⟨rfl, rfl, rfl⟩

theorem duplicate_issue_none_iff :
    duplicateIssue? indexed function = none ↔ nearDuplicates function.body indexed = [] := by
  rw [duplicateIssue?, duplicates_eq]
  split
  case isTrue none => simpa using none
  case isFalse some => simpa using some

theorem mem_issues : issue ∈ issuesOf indexed convention function ↔
    namingIssue? convention function.name = some issue ∨
      duplicateIssue? (others indexed function) function = some issue ∨
      similarNameIssue? (others indexed function) function.name = some issue := by
  rw [issues_of_parts, List.mem_append, List.mem_append, Option.mem_toList, Option.mem_toList,
    Option.mem_toList, or_assoc]

theorem duplicate_issue_of_kind (mem : issue ∈ issuesOf indexed convention function)
    (duplicate : issue.kind = .duplicate) :
    duplicateIssue? (others indexed function) function = some issue := by
  rcases mem_issues.mp mem with naming | found | similar
  · rw [(of_naming_issue naming).1] at duplicate
    cases duplicate
  · exact found
  · rw [(of_similar_issue similar).1] at duplicate
    cases duplicate

theorem findings_of_issues {code : Set (String × String)} (once : (indexed.map Prod.fst).Nodup)
    (lists : ∀ other, other ∈ indexed ↔ other ∈ code) (convention : Option NamingStyle)
    (function : FunctionElement) :
    Findings code function (issuesOf indexed convention function) := by
  have repeated : ∀ other, other ∈ nearDuplicates function.body (others indexed function) ↔
      Repeats code function other := by
    intro other
    rw [mem_near_duplicates, mem_others, lists, Repeats, and_assoc]
  have apart : function.name ∉ (others indexed function).map Prod.fst := by
    rw [List.mem_map]
    rintro ⟨other, mem, name⟩
    exact (mem_others.mp mem).2 name
  constructor
  case kinds =>
    have kinds (part : Option Issue) (kind : IssueKind)
        (fixed : ∀ issue, part = some issue → issue.kind = kind) :
        (part.toList.map Issue.kind).Sublist [kind] := by
      cases part with
      | none => exact List.nil_sublist _
      | some issue => simp [fixed issue rfl]
    rw [issues_of_parts, List.map_append, List.map_append]
    exact ((kinds _ _ fun _ found => (of_naming_issue found).1).append
      (kinds _ _ fun _ found => (of_duplicate_issue found).1)).append
      (kinds _ _ fun _ found => (of_similar_issue found).1)
  case about =>
    intro issue mem
    rcases mem_issues.mp mem with naming | duplicate | similar
    · exact (of_naming_issue naming).2.1
    · exact (of_duplicate_issue duplicate).2.1
    · exact (of_similar_issue similar).2.1
  case others_related =>
    intro issue mem own
    rcases mem_issues.mp mem with naming | duplicate | similar
    · rw [(of_naming_issue naming).2.2] at own
      cases own
    · rw [(of_duplicate_issue duplicate).2.2] at own
      obtain ⟨other, found, name⟩ := List.mem_map.mp (List.mem_of_mem_take own)
      exact apart (List.mem_map.mpr ⟨other, mem_near_duplicates.mp found |>.1, name⟩)
    · exact apart ((of_similar_issue similar).2.2 _ own)
  case duplicate_iff =>
    constructor
    · rintro ⟨issue, mem, duplicate⟩
      have found := duplicate_issue_of_kind mem duplicate
      have some : nearDuplicates function.body (others indexed function) ≠ [] := by
        intro none
        rw [duplicate_issue_none_iff.mpr none] at found
        cases found
      obtain ⟨other, mem⟩ := List.exists_mem_of_ne_nil _ some
      exact ⟨other, (repeated other).mp mem⟩
    · rintro ⟨other, repeats⟩
      cases found : duplicateIssue? (others indexed function) function with
      | none =>
        have mem := (repeated other).mpr repeats
        rw [duplicate_issue_none_iff.mp found] at mem
        cases mem
      | some issue =>
        exact ⟨issue, mem_issues.mpr (.inr (.inl found)), (of_duplicate_issue found).1⟩
  case closest_related =>
    have once : ((others indexed function).map Prod.fst).Nodup :=
      once.sublist (List.filter_sublist.map _)
    refine ⟨_, repeated, near_duplicates_descend once function.body, ?_⟩
    intro issue mem duplicate
    exact (of_duplicate_issue (duplicate_issue_of_kind mem duplicate)).2.2

theorem passed_iff (report : Report) : report.passed = false ↔
    ∃ issue ∈ report.issues, issue.kind = .naming ∨ issue.kind = .duplicate := by
  have grave (issue : Issue) :
      ¬ decide (issue.severity = .low) = true ↔ issue.kind = .naming ∨ issue.kind = .duplicate := by
    rw [Issue.severity]
    cases issue.kind <;> decide
  rw [Report.passed, List.all_eq_false]
  exact exists_congr fun issue => and_congr_right fun _ => grave issue

/-! Reviews of a run. -/

theorem on_review (here : Conditions) {project branch : Option String}
    (settled : Indexing.contextKey project branch = .ok context) (elements : Elements)
    (graph : Graph) : (Operation.review elements language project branch).on here graph =
      (.ok (.reviewed (review graph elements language context)), graph) := by
  rw [Runs.on_eq_session, Operation.session, settled]
  rfl

/-- Two histories that leave the same code indexed in a context and a language are reviewed alike.
The report has, function after function, what is found about it, and it passes unless one of the
findings is above the lowest severity. -/
theorem review_reads_code_only (steps more : List Step) (here there : Conditions)
    (elements : Elements) (language : String) (project branch : Option String) (context : String)
    (settled : Indexing.contextKey project branch = .ok context)
    (same : indexedCode (run steps) language context = indexedCode (run more) language context) :
    let review : Operation := .review elements language project branch
    ∃ report,
      review.on here (run steps) = (.ok (.reviewed report), run steps) ∧
      review.on there (run more) = (.ok (.reviewed report), run more) ∧
      (∃ parts, report.issues = parts.flatten ∧ List.Forall₂
        (Findings (indexedCode (run steps) language context)) elements.functions parts) ∧
      (report.passed = false ↔
        ∃ issue ∈ report.issues, issue.kind = .naming ∨ issue.kind = .duplicate) := by
  intro review
  let indexed := evidence (run steps) language context
  let convention := NamingStyle.dominant? (indexed.map Prod.fst)
  have perm := evidence_reordered (Runs.run_well_formed steps).1 (Runs.run_well_formed more).1 same
  refine ⟨Quality.review (run steps) elements language context, on_review here settled elements _,
    ?_, ⟨elements.functions.map (issuesOf indexed convention), ?_, ?_⟩, passed_iff _⟩
  · rw [review_reordered perm]
    exact on_review there settled elements _
  · exact List.flatMap_def ..
  · rw [List.forall₂_map_right_iff]
    refine List.forall₂_same.mpr fun function _ => ?_
    exact findings_of_issues (nodup_names _ _ _)
      (fun _ => mem_evidence (Runs.run_well_formed steps).1) convention function

def indexedTogether : List Step :=
  [⟨{ now := 1 }, .indexFunctions [⟨"drawLine", "line(start, end)", none⟩,
    ⟨"drawArc", "arc(start, end, angle)", none⟩] "typescript" none none⟩]

/-- The same functions, the other one first and the first one only after an earlier text; besides a
function that is only called, and one of another language. -/
def indexedApart : List Step :=
  [⟨{ now := 2 }, .indexElements { functions := [⟨"drawArc", "arc(start, end, angle)"⟩] }
      "arc.ts" "typescript" none none⟩,
    ⟨{ now := 3 }, .indexFunctions [⟨"drawLine", "", none⟩] "typescript" none none⟩,
    ⟨{ now := 4 }, .indexFunctions [⟨"draw_line", "line(start, end)", none⟩] "python" none none⟩,
    ⟨{ now := 5 }, .indexFunctions [⟨"drawLine", "line(start, end)", none⟩] "typescript" none none⟩]

theorem together_evidence : evidence (run indexedTogether) "typescript" "default:main" =
    [("drawLine", "line(start, end)"), ("drawArc", "arc(start, end, angle)")] := by
  decide +kernel

theorem apart_evidence : evidence (run indexedApart) "typescript" "default:main" =
    [("drawArc", "arc(start, end, angle)"), ("drawLine", "line(start, end)")] := by
  decide +kernel

theorem same_code_apart : indexedCode (run indexedTogether) "typescript" "default:main" =
    indexedCode (run indexedApart) "typescript" "default:main" := by
  ext code
  rw [← mem_evidence (Runs.run_well_formed _).1, ← mem_evidence (Runs.run_well_formed _).1,
    together_evidence, apart_evidence]
  simp only [List.mem_cons, List.not_mem_nil, or_false]
  exact or_comm

/-- A function that repeats one of them is told so, whichever history there was. -/
theorem repeated_arc_reviewed :
    let review : Operation := .review { functions := [⟨"bend", "arc(start, end, angle, width)"⟩] }
      "typescript" none none
    ∃ report,
      review.on { now := 6 } (run indexedTogether) = (.ok (.reviewed report), run indexedTogether) ∧
      review.on { now := 7 } (run indexedApart) = (.ok (.reviewed report), run indexedApart) ∧
      ∃ issue ∈ report.issues, issue.kind = .duplicate ∧ issue.related = ["drawArc"] := by
  intro review
  obtain ⟨report, together, apart, ⟨parts, issues, found⟩, -⟩ :=
    review_reads_code_only indexedTogether indexedApart { now := 6 } { now := 7 } _ "typescript"
      none none "default:main" rfl same_code_apart
  refine ⟨report, together, apart, ?_⟩
  have lists (other : String × String) :
      other ∈ evidence (run indexedTogether) "typescript" "default:main" ↔
        other ∈ indexedCode (run indexedTogether) "typescript" "default:main" :=
    mem_evidence (Runs.run_well_formed indexedTogether).1
  rw [together_evidence] at lists
  have arc : 7 / 10 < similarity "arc(start, end, angle, width)" "arc(start, end, angle)" :=
    (Likeness.is_duplicate_iff _ _).mp (by decide +kernel)
  have line : ¬ 7 / 10 < similarity "arc(start, end, angle, width)" "line(start, end)" := by
    rw [← Likeness.is_duplicate_iff]
    decide +kernel
  obtain ⟨part, rfl, own⟩ : ∃ part, parts = [part] ∧ Findings
      (indexedCode (run indexedTogether) "typescript" "default:main")
      ⟨"bend", "arc(start, end, angle, width)"⟩ part := by
    obtain ⟨part, rest, first, none, rfl⟩ := List.forall₂_cons_left_iff.mp found
    obtain rfl := List.forall₂_nil_left_iff.mp none
    exact ⟨part, rfl, first⟩
  have repeats (other : String × String) : Repeats
      (indexedCode (run indexedTogether) "typescript" "default:main")
      ⟨"bend", "arc(start, end, angle, width)"⟩ other ↔
        other = ("drawArc", "arc(start, end, angle)") := by
    rw [Repeats, ← lists]
    constructor
    · rintro ⟨mem, -, alike⟩
      simp only [List.mem_cons, List.not_mem_nil, or_false] at mem
      rcases mem with rfl | rfl
      · exact absurd alike line
      · rfl
    · rintro rfl
      exact ⟨by simp, by decide, arc⟩
  obtain ⟨issue, mem, duplicate⟩ := own.duplicate_iff.mpr ⟨_, (repeats _).mpr rfl⟩
  obtain ⟨closest, all, descend, related⟩ := own.closest_related
  have alone : closest = [("drawArc", "arc(start, end, angle)")] :=
    eq_of_increasing (β := (ℚ ×ₗ String)ᵒᵈ) descend (List.pairwise_singleton _ _) fun other => by
      rw [all, repeats, List.mem_singleton]
  refine ⟨issue, ?_, duplicate, ?_⟩
  · rw [issues, List.flatten_singleton]
    exact mem
  · rw [related issue mem duplicate, alone]
    rfl

end CodeAtlas.Quality
