import CodeAtlas.Proofs.Indexing.Again
import CodeAtlas.Proofs.Indexing.Contained

/-! What was indexed without failures is found again. Of elements with one name the last write
counts, and so does the last body when a file is compared, so they agree whatever is repeated in the
file and whatever the graph held before: stubs, namesakes from other files, or an older version. -/
namespace CodeAtlas.Indexing

open CodeAtlas.Graph
open CodeAtlas.Review (Finding Status)
open CodeAtlas.Runs (body_overwritten compared)
open CodeAtlas.Source (Elements)

def bodiesOf (elements : Elements) : Label → List (String × String)
  | .function => elements.functions.map fun function => (function.name, function.body)
  | .classDef => elements.classes.map fun classDef => (classDef.name, classDef.body)
  | _ => []

def bodyWrite (label : Label) (language context : String) (element : String × String) :
    PlannedWrite where
  identity := .named label element.1 language context
  edge := .contains
  attributes := [("body", .text element.2)]

variable {known : List Identity} {graph : Graph} {elements : Elements}
  {path language context name body : String} {label : Label} {since : Int} {node : Node}

theorem plan_of_label (labelled : label ∈ compared) :
    (plan elements language context).filter (fun planned => planned.identity.label = label) =
      (bodiesOf elements label).map (bodyWrite label language context) := by
  simp only [compared, List.mem_cons, List.not_mem_nil, or_false] at labelled
  rcases labelled with rfl | rfl <;>
    simp [plan, bodiesOf, bodyWrite, Identity.named, List.filter_map, Function.comp_def]

theorem body_planned (labelled : label ∈ compared) (mem : (name, body) ∈ bodiesOf elements label) :
    bodyWrite label language context (name, body) ∈ plan elements language context := by
  have inside := List.mem_map_of_mem (f := bodyWrite label language context) mem
  rw [← plan_of_label labelled] at inside
  exact (List.mem_filter.mp inside).1

theorem rewritten_filled (writes : List NodeWrite) (now : Int)
    (filled : node.attributes.length = node.label.attributeColumns.length) :
    (node.rewritten writes now).attributes.length =
      (node.rewritten writes now).label.attributeColumns.length := by
  refine List.foldlRecOn writes _
    (motive := fun last : Node => last.attributes.length = last.label.attributeColumns.length)
    filled ?_
  intro last filled write _
  split_ifs
  · exact length_attributes_overwritten last write.2 now filled
  · exact filled

theorem rewritten_body {bodies : List (String × String)} (labelled : node.label ∈ compared)
    (filled : node.attributes.length = node.label.attributeColumns.length)
    (hits : ∀ element ∈ bodies,
      (bodyWrite label language context element).nodeWrite.Hits node ↔ element.1 = name)
    (last : valueOf? name bodies.reverse = some body) (now : Int) :
    let writes := bodies.map fun element => (bodyWrite label language context element).nodeWrite
    (node.rewritten writes now).body? = some body ∧
      (node.rewritten writes now).isStub = false := by
  induction bodies using List.reverseRecOn with
  | nil => cases last
  | append_singleton bodies element ih =>
    have hit := hits element (List.mem_append_right _ (List.mem_singleton_self _))
    rw [List.reverse_concat, valueOf?] at last
    rw [List.map_append, List.map_singleton]
    dsimp only [Node.rewritten]
    rw [overAll_concat]
    by_cases same : element.1 = name
    · rw [if_pos same] at last
      obtain rfl := Option.some.inj last
      rw [if_pos ((hits_overAll (hits_stable now)).mpr (hit.mpr same))]
      have label : (node.rewritten (bodies.map fun element =>
          (bodyWrite label language context element).nodeWrite) now).label = node.label :=
        rewritten_kept Node.label fun _ _ _ => rfl
      exact ⟨body_overwritten (label ▸ labelled) (rewritten_filled _ now filled) element.2 now, rfl⟩
    · rw [if_neg same] at last
      rw [if_neg fun hit' => same (hit.mp ((hits_overAll (hits_stable now)).mp hit'))]
      exact ih (fun other mem => hits other (List.mem_append_left _ mem)) last

theorem countOf_alike {findings : List Finding} {status : Status}
    (alike : ∀ finding ∈ findings, finding.status = status) (counted : Status) :
    Review.countOf counted findings = if status = counted then findings.length else 0 := by
  rw [Review.countOf]
  split_ifs with same
  · rw [List.filter_eq_self.mpr fun finding mem => by simpa [alike finding mem] using same]
  · rw [List.filter_eq_nil_iff.mpr fun finding mem => by simpa [alike finding mem] using same]
    rfl

/-! A graph in which all of a file is indexed. -/

section Indexed

variable (free : CollisionFree known) (wellFormed : WellFormed graph)
  (occurs : ∀ node ∈ graph.nodes, node.identity ∈ known)
  (occur : fileIdentities elements path language context ⊆ known)
  (indexed : Indexed elements path language context since graph)

include free wellFormed occurs occur indexed

theorem last_body_kept (labelled : label ∈ compared) (inside : node ∈ graph.nodes)
    (identity : node.identity = .named label name language context)
    (last : valueOf? name (bodiesOf elements label).reverse = some body) :
    node.body? = some body ∧ node.isStub = false := by
  have labels : node.label = label := congrArg Identity.label identity
  have id : node.id = (Identity.named label name language context).id :=
    identity ▸ wellFormed.named node inside
  have own : ((Identity.file path context, []) ::
      (plan elements language context).map PlannedWrite.nodeWrite).filter
        (fun write => write.1.label = label) =
      (bodiesOf elements label).map fun element =>
        (bodyWrite label language context element).nodeWrite := by
    have other : (Identity.file path context).label ≠ label := by
      rintro rfl
      simp [compared, Identity.file] at labelled
    rw [List.filter_cons_of_neg (by simpa using other), List.filter_map, Function.comp_def]
    exact (congrArg _ (plan_of_label labelled)).trans List.map_map
  have left : node.undated.rewritten ((bodiesOf elements label).map fun element =>
      (bodyWrite label language context element).nodeWrite) 0 = node.undated := by
    rw [← own, Node.rewritten, overAll_filter (hits_stable 0)]
    · exact (indexed.settled.nodes node inside).same
    · intro write _ hit
      simpa using hit.1.symm.trans labels
  have hits : ∀ element ∈ bodiesOf elements label,
      (bodyWrite label language context element).nodeWrite.Hits node.undated ↔
        element.1 = name := by
    intro element mem
    have place : (bodyWrite label language context element).nodeWrite.1.id =
        (Identity.named label element.1 language context).id := rfl
    refine ⟨fun hit => ?_, fun same => ⟨labels, by rw [place, same]; exact id⟩⟩
    have known : Identity.named label element.1 language context ∈ known := by
      refine occur (List.mem_append_left _ (List.mem_cons_of_mem _ ?_))
      exact List.mem_map_of_mem (f := PlannedWrite.identity) (body_planned labelled mem)
    have same := free.eq_of_id known (identity ▸ occurs node inside)
      (hit.2.symm.trans id)
    simpa [Identity.named] using same
  have same : node.undated.label ∈ compared := labels ▸ labelled
  have written := rewritten_body same (wellFormed.filled node inside) hits last 0
  dsimp only at written
  rwa [left] at written

theorem node_of_body (labelled : label ∈ compared) (mem : (name, body) ∈ bodiesOf elements label) :
    ∃ node ∈ graph.nodes, node.identity = .named label name language context ∧
      graph.node? label (Identity.named label name language context).id = some node := by
  have planned : bodyWrite label language context (name, body) ∈ plan elements language context :=
    body_planned labelled mem
  obtain ⟨node, found⟩ := Option.isSome_iff_exists.mp (indexed.held _ planned).1
  obtain ⟨inside, -, id⟩ := node?_eq_some found
  have named := (wellFormed.named node inside).symm.trans id
  refine ⟨node, inside, free.eq_of_id (occurs node inside) (occur ?_) named, found⟩
  refine List.mem_append_left _ (List.mem_cons_of_mem _ ?_)
  exact List.mem_map_of_mem (f := PlannedWrite.identity) planned

/-- Comparing the file finds the last body of every function and class. -/
theorem indexed_body_last (own : ContainsOwn graph path context) (labelled : label ∈ compared)
    (last : valueOf? name (bodiesOf elements label).reverse = some body) :
    Review.indexedBody graph (Identity.file path context).id label name language = some body := by
  have mem := List.mem_reverse.mp (mem_of_valueOf? last)
  obtain ⟨node, inside, identity, found⟩ :=
    node_of_body free wellFormed occurs occur indexed labelled mem
  have contained := Runs.mem_contained (indexed.held _ (body_planned labelled mem)).2 found
  rw [Runs.body_of_contained wellFormed labelled (own label labelled) contained inside identity]
  exact (last_body_kept free wellFormed occurs occur indexed labelled inside identity last).1

theorem all_same (own : ContainsOwn graph path context) (labelled : label ∈ compared) :
    ∀ finding ∈ (bindAll (bodiesOf elements label)).map fun (name, body) =>
        Review.classify label name body
          (Review.indexedBody graph (Identity.file path context).id label name language),
      finding.status = .same := by
  intro finding mem
  obtain ⟨⟨name, body⟩, bound, rfl⟩ := List.mem_map.mp mem
  dsimp only
  rw [indexed_body_last free wellFormed occurs occur indexed own labelled (valueOf?_of_bound bound),
    Review.classify, if_pos rfl]

theorem look_up_found (labelled : label ∈ compared)
    (mem : (name, body) ∈ bodiesOf elements label) :
    (Review.lookUp graph language context label name).status = .found := by
  obtain ⟨node, inside, identity, found⟩ :=
    node_of_body free wellFormed occurs occur indexed labelled mem
  obtain ⟨last, bound⟩ := valueOf?_of_mem (List.mem_reverse.mpr mem)
  have written := last_body_kept free wellFormed occurs occur indexed labelled inside identity bound
  have known : Review.isIndexed graph label name language context = true := by
    rw [Review.isIndexed, found]
    simp [written.2]
  rw [Review.lookUp, if_pos known]

/-- The indexed file compares as unchanged, unless it holds namesakes from another context. -/
theorem file_unchanged (own : ContainsOwn graph path context) :
    let report := Review.validateFile graph path elements language context
    report.fileExists = true ∧ ∀ finding ∈ report.findings, finding.status = .same := by
  refine ⟨indexed.filed, fun finding mem => ?_⟩
  rcases List.mem_append.mp mem with mem | mem
  · exact all_same free wellFormed occurs occur indexed own (by decide) finding mem
  · exact all_same free wellFormed occurs occur indexed own (by decide) finding mem

theorem snippet_found : ∀ finding ∈
    (Review.validateSnippet graph elements language context).findings, finding.status = .found := by
  intro finding mem
  rcases List.mem_append.mp mem with mem | mem
  · obtain ⟨function, inside, rfl⟩ := List.mem_map.mp mem
    exact look_up_found free wellFormed occurs occur indexed (by decide)
      (List.mem_map.mpr ⟨function, inside, rfl⟩)
  · obtain ⟨classDef, inside, rfl⟩ := List.mem_map.mp mem
    exact look_up_found free wellFormed occurs occur indexed (by decide)
      (List.mem_map.mpr ⟨classDef, inside, rfl⟩)

end Indexed

end CodeAtlas.Indexing
