import CodeAtlas.Proofs.Graph.Content
import CodeAtlas.Proofs.Indexing.Faultless
import CodeAtlas.Proofs.Isolation.Sessions
import CodeAtlas.Proofs.Stubs.Defined
import Mathlib.Data.List.Pairwise

/-! Files in any order. As long as the functions and classes of a context are of one language, a
name leads to the same place whether what it names is there, is a stub or is missing, so each write
of a file is an entry that does not depend on the graph. The entries of two files that share no
element with attributes commute: a reference before and after the write of its target comes to the
same, as do two writes of a shared module. -/
namespace CodeAtlas.Indexing

open CodeAtlas.Graph
open CodeAtlas.Relations (Relationship infer writeRelationship resolveTarget elementIdentity)
open CodeAtlas.Source (Elements)

structure ParsedFile where
  path : String
  elements : Elements

def indexAll (language context : String) (files : List (Conditions × ParsedFile)) :
    Session (List Report) :=
  files.mapM fun (here, file) => indexElements here file.elements file.path language context

def isClean : Except Error (List Report) → Bool
  | .ok reports => reports.all Report.success
  | .error _ => false

def OneLanguage (language context : String) (graph : Graph) : Prop :=
  ∀ node ∈ graph.nodes, node.label ∈ [Label.function, .classDef] → node.context = context →
    node.language = language

instance (language context : String) (graph : Graph) :
    Decidable (OneLanguage language context graph) :=
  inferInstanceAs (Decidable (∀ node ∈ graph.nodes, _ → _ → _))

/-- Whatever two files both write has no attributes. -/
def Apart (language context : String) (file other : ParsedFile) : Prop :=
  ∀ planned ∈ plan file.elements language context,
    ∀ planned' ∈ plan other.elements language context, planned.identity = planned'.identity →
      planned.identity.label.attributeColumns = []

instance (language context : String) (file other : ParsedFile) :
    Decidable (Apart language context file other) :=
  inferInstanceAs (Decidable (∀ planned ∈ plan file.elements language context, _))

/-! One language. -/

structure Uniform (language context : String) (graph : Graph) : Prop where
  wellFormed : WellFormed graph
  oneLanguage : OneLanguage language context graph

def OfLanguage (language context : String) (identity : Identity) : Prop :=
  identity.label ∈ [Label.function, .classDef] → identity.context = context →
    ∃ name, identity.key = [name, language]

variable {here : Conditions} {graph after : Graph} {identity : Identity} {given : Attributes}
  {path language context : String}

theorem language_of_key {node : Node} {name : String}
    (label : node.label ∈ [Label.function, .classDef]) (key : node.key = [name, language]) :
    node.language = language := by
  simp only [List.mem_cons, List.not_mem_nil, or_false] at label
  rcases label with label | label <;> rw [Node.language, Node.keyValue, label, key] <;> rfl

theorem OneLanguage.addNode (h : OneLanguage language context graph) {node : Node}
    (spoken : OfLanguage language context node.identity) :
    OneLanguage language context (graph.addNode node) := by
  intro other mem label inside
  rcases List.mem_append.mp mem with mem | mem
  · exact h other mem label inside
  · obtain rfl := List.mem_singleton.mp mem
    obtain ⟨name, key⟩ := spoken label inside
    exact language_of_key label key

theorem Uniform.upsert (h : Uniform language context graph) (proper : identity.Proper)
    (spoken : OfLanguage language context identity) {created : Bool}
    (done : upsert here identity given graph = .ok (created, after)) :
    Uniform language context after where
  wellFormed := (well_formed_moves here).upsert identity given proper _ _ _ done h.wellFormed
  oneLanguage := by
    rcases upsert_cases done with ⟨-, -, -, rfl⟩ | ⟨node, found, -, -, rfl⟩
    · exact h.oneLanguage.addNode spoken
    · intro other mem label inside
      rcases mem_setNode mem with rfl | ⟨mem, -⟩
      · exact h.oneLanguage node (node?_eq_some found).1 label inside
      · exact h.oneLanguage other mem label inside

theorem Uniform.ensure (h : Uniform language context graph) (proper : identity.Proper)
    (spoken : OfLanguage language context identity) {created : Bool}
    (done : ensureNode here identity graph = .ok (created, after)) :
    Uniform language context after where
  wellFormed := (well_formed_moves here).ensure identity proper _ _ _ done h.wellFormed
  oneLanguage := by
    rcases ensure_cases done with ⟨-, -, rfl⟩ | ⟨-, -, -, rfl⟩
    · exact h.oneLanguage
    · exact h.oneLanguage.addNode spoken

theorem Uniform.link (h : Uniform language context graph) {type : EdgeType}
    {source target : Endpoint} {edgeContext : String} {properties : Properties} {value : Unit}
    (done : link here type source target edgeContext properties graph = .ok (value, after)) :
    Uniform language context after where
  wellFormed := (well_formed_moves here).link _ _ _ _ _ _ _ _ done h.wellFormed
  oneLanguage := by
    obtain ⟨-, -, -, rfl⟩ := link_cases done
    rw [OneLanguage, nodes_joined]
    exact h.oneLanguage

theorem planned_of_language {elements : Elements} {planned : PlannedWrite}
    (mem : planned ∈ plan elements language context) :
    OfLanguage language context planned.identity := by
  intro label _
  obtain ⟨name, named⟩ := (plan_named mem label).1
  exact ⟨name, by rw [named]; rfl⟩

theorem element_of_language {label : Label} (name : String)
    (referable : label ∈ Relations.referable) :
    OfLanguage language context (elementIdentity label name language context) := by
  intro labelled _
  rw [Relations.label_elementIdentity] at labelled
  have named : label ≠ .interface := by
    rintro rfl
    simp at labelled
  exact ⟨name, by rw [elementIdentity, if_neg named]; rfl⟩

theorem known_target_id (h : Uniform language context graph) {label : Label} {name : String}
    (referable : label ∈ Relations.referable) {node : Node}
    (known : Relations.knownTarget? graph label name language context = some node) :
    node.id = (elementIdentity label name language context).id := by
  obtain ⟨mem, rfl, id | ⟨shows, inside⟩⟩ := Relations.target_node_known known
  · exact id
  · rw [h.wellFormed.named node mem]
    by_cases named : node.label = .interface
    · have one : node.key.length = 1 := by
        have keyed := h.wellFormed.keyed node mem
        simpa [Identity.Proper, Node.identity, named, Label.keyColumns] using keyed
      obtain ⟨first, key⟩ := List.length_eq_one_iff.mp one
      rw [elementIdentity, if_pos named, Node.identity, named, inside, ← shows, Node.displayName,
        key]
      rfl
    · have labelled : node.label ∈ [Label.function, .classDef] := by
        simp only [Relations.referable, List.mem_cons, List.not_mem_nil, or_false] at referable
        simp only [List.mem_cons, List.not_mem_nil, or_false]
        tauto
      have columns : node.label.keyColumns = ["name", "language"] := by
        simp only [List.mem_cons, List.not_mem_nil, or_false] at labelled
        rcases labelled with label | label <;> rw [label] <;> rfl
      rw [elementIdentity, if_neg named, Node.identity,
        key_of_shown columns (h.wellFormed.keyed node mem), shows,
        h.oneLanguage node mem labelled inside, inside]
      rfl

/-! The entries of a file. -/

def elementEntries (file : Identity) (context : String) (planned : PlannedWrite) :
    List Entry :=
  [.write planned.identity planned.attributes,
    .link planned.edge file planned.identity context planned.properties]

def relationshipEntries (language context : String) (relationship : Relationship) :
    List Entry :=
  [.refer (relationship.target language context),
    .link relationship.type (relationship.source language context)
      (relationship.target language context) context []]

def fileEntries (language context : String) (file : ParsedFile) : List Entry :=
  .write (.file file.path context) [] ::
    (plan file.elements language context).flatMap
      (elementEntries (.file file.path context) context)
    ++ (infer file.elements).flatMap (relationshipEntries language context)

theorem element_entered (h : Uniform language context graph) {file : Identity}
    (known : graph.hasNode file.label file.id = true) {elements : Elements} {planned : PlannedWrite}
    (mem : planned ∈ plan elements language context)
    (done : writeElement here file planned graph = .ok ((), after)) :
    (Uniform language context after ∧ after.hasNode file.label file.id = true) ∧
      after.content = (elementEntries file context planned).foldl Content.enter graph.content := by
  have fits := plan_fits mem
  have grows := (grows_moves here).element file planned fits.proper _ _ _ done
  obtain ⟨created, middle, put, linked⟩ := write_bind done
  have known' := ((grows_moves here).upsert _ _ fits.proper _ _ _ put).hasNode known
  refine ⟨⟨(h.upsert fits.proper (planned_of_language mem) put).link linked,
    grows.hasNode known⟩, ?_⟩
  obtain ⟨-, -, -, rfl⟩ := link_cases linked
  rw [content_joined known' (upsert_present put), content_upsert put, fits.context]
  rfl

theorem resolve_entered (h : Uniform language context graph) {label : Label} {name : String}
    (referable : label ∈ Relations.referable)
    (proper : (elementIdentity label name language context).Proper) {target : Endpoint}
    {created : Bool} (done : resolveTarget here label name language context graph =
      .ok ((target, created), after)) :
    Uniform language context after ∧
      target = (elementIdentity label name language context).endpoint ∧
      after.content = graph.content.enter (.refer (elementIdentity label name language context)) ∧
      after.hasNode target.label target.id = true := by
  rcases Relations.resolve_cases done with ⟨node, known, rfl, -, rfl⟩ | ⟨-, -, rfl, _, ensured⟩
  · have id := known_target_id h referable known
    obtain ⟨mem, labels, -⟩ := Relations.target_node_known known
    have found : after.node? (elementIdentity label name language context).label
        (elementIdentity label name language context).id = some node := by
      rw [Relations.label_elementIdentity, ← id, ← labels]
      exact h.wellFormed.node?_eq mem
    refine ⟨h, ?_, (content_known found).symm, has_node_iff.mpr ⟨node, mem, labels, rfl⟩⟩
    rw [Identity.endpoint, Relations.label_elementIdentity, id]
  · exact ⟨h.ensure proper (element_of_language name referable) ensured, rfl,
      content_ensure ensured, ensure_present ensured⟩

theorem relationship_entered (h : Uniform language context graph) {relationship : Relationship}
    (kind : relationship.kind ∈ Relations.inferredKinds)
    (known : graph.hasNode relationship.sourceLabel
      (relationship.source language context).id = true) {created : Bool}
    (done : writeRelationship here language context relationship graph = .ok (created, after)) :
    Uniform language context after ∧ after.content =
      (relationshipEntries language context relationship).foldl Content.enter graph.content := by
  obtain ⟨⟨target, fresh⟩, middle, resolved, done⟩ := write_bind done
  obtain ⟨_, last, linked, done⟩ := write_bind done
  obtain ⟨-, rfl⟩ := write_pure done
  have proper := Relations.target_proper kind language context
  have grows := (grows_moves here).resolve_target _ _ _ _ proper _ _ _ resolved
  obtain ⟨uniform, rfl, entered, present⟩ :=
    resolve_entered h (Relations.inferred_kinds_refer kind).1 proper resolved
  refine ⟨uniform.link linked, ?_⟩
  obtain ⟨-, -, -, rfl⟩ := link_cases linked
  have begins : middle.hasNode (relationship.source language context).label
      (relationship.source language context).id = true := by
    rw [Relationship.source, Relations.label_elementIdentity]
    exact grows.hasNode known
  exact (content_joined begins present).trans (by rw [entered]; rfl)

/-- A batch of which nothing failed enters what each of its items does. -/
theorem batch_entered {α β : Type} {write : α → Write β} {results : List (α × Except Error β)}
    {last : Graph} {I : Graph → Prop} (entries : α → List Entry)
    (tried : Tried write graph results last) (clean : failed results = [])
    (step : ∀ item ∈ results.map Prod.fst, ∀ {graph value next}, I graph →
      write item graph = .ok (value, next) →
        I next ∧ next.content = (entries item).foldl Content.enter graph.content)
    (start : I graph) : I last ∧
      last.content =
        ((results.map Prod.fst).flatMap entries).foldl Content.enter graph.content := by
  induction tried with
  | done graph => exact ⟨start, rfl⟩
  | succeeded attempted rest ih =>
    obtain ⟨held, entered⟩ := step _ List.mem_cons_self start attempted
    obtain ⟨held, later⟩ := ih clean (fun item mem => step item (List.mem_cons_of_mem _ mem)) held
    rw [entered] at later
    exact ⟨held, by rw [later, List.map_cons, List.flatMap_cons, List.foldl_append]⟩
  | failed attempted rest ih => simp at clean

theorem spared_clean {written : List (PlannedWrite × Except Error Unit)} {elements : Elements}
    (clean : failed written = []) : spared written elements = elements := by
  simp [spared, Spared, clean]

theorem index_entered (h : Uniform language context graph) {elements : Elements} {report : Report}
    (done : indexElements here elements path language context graph = (.ok report, after))
    (clean : report.success = true) : Uniform language context after ∧
      after.content = (fileEntries language context ⟨path, elements⟩).foldl Content.enter
        graph.content := by
  obtain ⟨written, related, itemised⟩ := itemised_of_report done
  obtain ⟨created, begun, ended, put, tried, followed⟩ := itemised.steps
  have failures := List.isEmpty_iff.mp clean
  rw [itemised.failures, List.append_eq_nil_iff, List.map_eq_nil_iff, List.map_eq_nil_iff]
    at failures
  have inferred := itemised.inferred
  rw [spared_clean failures.1] at inferred
  have fits : ∀ planned ∈ written.map Prod.fst, planned ∈ plan elements language context := by
    rw [itemised.planned]
    exact fun planned mem => mem
  have file : (Identity.file path context).Proper := rfl
  have uniform := h.upsert file (fun label => by simp [Identity.file] at label) put
  obtain ⟨⟨uniform, -⟩, elementsEntered⟩ := batch_entered
    (I := fun graph => Uniform language context graph ∧
      graph.hasNode (Identity.file path context).label (Identity.file path context).id = true)
    (elementEntries (.file path context) context) tried failures.1
    (fun planned mem {_ _ _} held done => element_entered held.1 held.2 (fits planned mem) done)
    ⟨uniform, upsert_present put⟩
  have sources : ∀ relationship ∈ related.map Prod.fst,
      ended.hasNode relationship.sourceLabel (relationship.source language context).id = true := by
    rw [itemised.inferred]
    exact fun relationship mem => (sources_defined tried itemised.planned mem).hasNode
  have kinds : ∀ relationship ∈ related.map Prod.fst,
      relationship.kind ∈ Relations.inferredKinds := by
    rw [inferred]
    exact fun relationship mem => Relations.infer_kind mem
  obtain ⟨⟨uniform, -⟩, relatedEntered⟩ := batch_entered
    (I := fun graph => Uniform language context graph ∧ ∀ relationship ∈ related.map Prod.fst,
      graph.hasNode relationship.sourceLabel (relationship.source language context).id = true)
    (relationshipEntries language context) followed failures.2
    (fun relationship mem {_ _ _} held done => by
      obtain ⟨uniform, entered⟩ :=
        relationship_entered held.1 (kinds relationship mem) (held.2 relationship mem) done
      have grows := relationship_grows (kinds relationship mem) done
      exact ⟨⟨uniform, fun other mem' => grows.hasNode (held.2 other mem')⟩, entered⟩)
    ⟨uniform, sources⟩
  refine ⟨uniform, ?_⟩
  rw [relatedEntered, elementsEntered, content_upsert put, inferred, itemised.planned, fileEntries,
    List.cons_append, List.foldl_cons, List.foldl_append]

theorem index_all_cons (language context : String) (file : Conditions × ParsedFile)
    (files : List (Conditions × ParsedFile)) :
    indexAll language context (file :: files) = (do
      let report ← indexElements file.1 file.2.elements file.2.path language context
      let reports ← indexAll language context files
      return report :: reports) :=
  List.mapM_cons

theorem index_all_faultless {files : List (Conditions × ParsedFile)}
    (faultless : ∀ file ∈ files, file.1.faults = []) (language context : String) (graph : Graph) :
    isClean (indexAll language context files graph).1 = true := by
  induction files generalizing graph with
  | nil => rfl
  | cons file files ih =>
    have success := index_elements_faultless (faultless file List.mem_cons_self) file.2.elements
      file.2.path language context graph
    rw [index_all_cons, session_bind_apply]
    rcases done : indexElements file.1 file.2.elements file.2.path language context graph with
      ⟨error | report, middle⟩ <;> rw [done] at success
    · cases success
    · have rest := ih (fun file mem => faultless file (List.mem_cons_of_mem _ mem)) middle
      dsimp only
      rw [session_bind_apply]
      rcases later : indexAll language context files middle with ⟨error | reports, last⟩ <;>
        rw [later] at rest
      · cases rest
      · change (report.success && reports.all Report.success) = true
        rw [Bool.and_eq_true]
        exact ⟨success, rest⟩

theorem index_all_entered {files : List (Conditions × ParsedFile)}
    (h : Uniform language context graph)
    (clean : isClean (indexAll language context files graph).1 = true) :
    Uniform language context (indexAll language context files graph).2 ∧
      (indexAll language context files graph).2.content =
        (files.map Prod.snd).foldl (fun content file =>
          (fileEntries language context file).foldl Content.enter content) graph.content := by
  induction files generalizing graph with
  | nil => exact ⟨h, rfl⟩
  | cons file files ih =>
    obtain ⟨here, file⟩ := file
    rw [index_all_cons, session_bind_apply] at clean ⊢
    dsimp only at clean ⊢
    rcases done : indexElements here file.elements file.path language context graph with
      ⟨error | report, middle⟩
    · simp [done, isClean] at clean
    · rw [done] at clean
      dsimp only at clean ⊢
      rw [session_bind_apply] at clean ⊢
      rcases rest : indexAll language context files middle with ⟨error | reports, last⟩
      · simp [rest, isClean] at clean
      · rw [rest] at clean
        obtain ⟨success, successes⟩ :
            report.success = true ∧ reports.all Report.success = true := by
          change (report.success && reports.all Report.success) = true at clean
          rwa [Bool.and_eq_true] at clean
        obtain ⟨uniform, entered⟩ := index_entered h done success
        obtain ⟨uniform, later⟩ := ih uniform (by rw [rest]; exact successes)
        rw [rest] at uniform later
        refine ⟨uniform, later.trans ?_⟩
        rw [entered]
        rfl

/-! Entries of two files. -/

variable {file other : ParsedFile}

def Writes (language context : String) (file : ParsedFile) (identity : Identity)
    (given : Attributes) : Prop :=
  (identity = .file file.path context ∧ given = []) ∨
    ∃ planned ∈ plan file.elements language context,
      planned.identity = identity ∧ planned.attributes = given

theorem mem_file_entries {entry : Entry} (h : entry ∈ fileEntries language context file) :
    (∃ identity given, entry = .write identity given ∧
      Writes language context file identity given) ∨
    (∃ relationship ∈ infer file.elements,
      entry = .refer (relationship.target language context)) ∨
    (∃ type source target properties, entry = .link type source target context properties ∧
      (source.label = .file ∨ source.label ∈ [Label.function, .classDef]) ∧
      ∃ given, Writes language context file source given) := by
  rcases List.mem_append.mp h with h | h
  · rcases List.mem_cons.mp h with rfl | h
    · exact .inl ⟨_, _, rfl, .inl ⟨rfl, rfl⟩⟩
    · obtain ⟨planned, mem, h⟩ := List.mem_flatMap.mp h
      simp only [elementEntries, List.mem_cons, List.not_mem_nil, or_false] at h
      rcases h with rfl | rfl
      · exact .inl ⟨_, _, rfl, .inr ⟨planned, mem, rfl, rfl⟩⟩
      · exact .inr (.inr ⟨_, _, _, _, rfl, .inl rfl, [], .inl ⟨rfl, rfl⟩⟩)
  · obtain ⟨relationship, mem, h⟩ := List.mem_flatMap.mp h
    simp only [relationshipEntries, List.mem_cons, List.not_mem_nil, or_false] at h
    rcases h with rfl | rfl
    · exact .inr (.inl ⟨relationship, mem, rfl⟩)
    · obtain ⟨planned, inside, source, label⟩ := source_planned language context mem
      exact .inr (.inr ⟨_, _, _, _, rfl, .inr (source ▸ label), _,
        .inr ⟨planned, inside, source, rfl⟩⟩)

/-- What two files both write carries no attributes. -/
theorem shared_bare (paths : file.path ≠ other.path) (apart : Apart language context file other)
    (h : Writes language context file identity given) {given' : Attributes}
    (h' : Writes language context other identity given') :
    identity.label ≠ .file ∧ identity.label.attributeColumns = [] ∧ given = [] ∧ given' = [] := by
  rcases h with ⟨rfl, rfl⟩ | ⟨planned, mem, rfl, rfl⟩
  · rcases h' with ⟨same, -⟩ | ⟨planned, mem, same, -⟩
    · exact absurd (by simpa [Identity.file] using same) paths
    · exact absurd (by rw [same]; rfl) (not_file_of_fits (plan_fits mem))
  · rcases h' with ⟨same, -⟩ | ⟨planned', mem', same, rfl⟩
    · exact absurd (by rw [same]; rfl) (not_file_of_fits (plan_fits mem))
    · have bare := apart planned mem planned' mem' same.symm
      exact ⟨not_file_of_fits (plan_fits mem), bare, plan_bare mem bare,
        plan_bare mem' (same ▸ bare)⟩

theorem writes_cover (h : Writes language context file identity given)
    (referable : identity.label ∈ Relations.referable) : Covers given identity.label := by
  rcases h with ⟨rfl, -⟩ | ⟨planned, mem, rfl, rfl⟩
  · simp [Identity.file, Relations.referable] at referable
  · have label : planned.identity.label ∈ [Label.function, .classDef] := by
      have fits := (plan_fits mem).edge
      simp only [Relations.referable, List.mem_cons, List.not_mem_nil, or_false] at referable ⊢
      rcases referable with label | label | label
      · exact .inl label
      · exact .inr label
      · rw [label] at fits
        cases edge : planned.edge <;> simp [edge, EdgeType.endpoints] at fits
    obtain ⟨-, -, -, body, attributes⟩ := plan_named mem label
    intro column listed
    simp only [List.mem_cons, List.not_mem_nil, or_false] at label
    rcases label with label | label <;> rw [label] at listed <;>
      simp_all [Label.attributeColumns]

theorem writes_occur (h : Writes language context file identity given) :
    identity ∈ fileIdentities file.elements file.path language context := by
  rcases h with ⟨rfl, -⟩ | ⟨planned, mem, rfl, -⟩
  · simp [fileIdentities]
  · exact List.mem_append_left _ (List.mem_cons_of_mem _ (List.mem_map_of_mem mem))

theorem targets_occur {relationship : Relationship} (h : relationship ∈ infer file.elements) :
    relationship.target language context ∈
      fileIdentities file.elements file.path language context := by
  refine List.mem_append_right _ (List.mem_flatMap.mpr ⟨relationship, h, ?_⟩)
  simp

theorem target_referable {relationship : Relationship} (h : relationship ∈ infer file.elements) :
    (relationship.target language context).label ∈ Relations.referable := by
  rw [Relationship.target, Relations.label_elementIdentity]
  exact (Relations.inferred_kinds_refer (Relations.infer_kind h)).1

theorem file_entries_commute {known : List Identity} (free : CollisionFree known)
    (paths : file.path ≠ other.path) (apart : Apart language context file other)
    (occur : fileIdentities file.elements file.path language context ⊆ known)
    (occur' : fileIdentities other.elements other.path language context ⊆ known) :
    ∀ entry ∈ fileEntries language context file, ∀ entry' ∈ fileEntries language context other,
      entry.Commutes entry' := by
  have same : ∀ {identity identity' : Identity}, identity ∈ known → identity' ∈ known →
      identity.endpoint = identity'.endpoint → identity = identity' :=
    fun mem mem' place => free.eq_of_id mem mem' (congrArg Endpoint.id place)
  intro entry mem entry' mem'
  rcases mem_file_entries mem with ⟨identity, given, rfl, writes⟩ | ⟨relationship, inferred, rfl⟩ |
      ⟨type, source, target, properties, rfl, label, given, writes⟩ <;>
    rcases mem_file_entries mem' with ⟨identity', given', rfl, writes'⟩ |
      ⟨relationship', inferred', rfl⟩ |
      ⟨type', source', target', properties', rfl, label', given', writes'⟩
  · refine write_write_comm fun place => ?_
    obtain rfl := same (occur (writes_occur writes)) (occur' (writes_occur writes')) place
    exact ⟨rfl, (shared_bare paths apart writes writes').2.2⟩
  · refine write_refer_comm fun place => ?_
    obtain rfl := same (occur (writes_occur writes)) (occur' (targets_occur inferred')) place
    exact ⟨rfl, writes_cover writes (target_referable inferred')⟩
  · exact fun content => rfl
  · refine (write_refer_comm fun place => ?_).symm
    obtain rfl := same (occur' (writes_occur writes')) (occur (targets_occur inferred)) place
    exact ⟨rfl, writes_cover writes' (target_referable inferred)⟩
  · refine refer_refer_comm fun place => ?_
    exact same (occur (targets_occur inferred)) (occur' (targets_occur inferred')) place
  · exact fun content => rfl
  · exact fun content => rfl
  · exact fun content => rfl
  · refine link_link_comm fun begins => ?_
    obtain rfl := free.eq_of_id (occur (writes_occur writes)) (occur' (writes_occur writes')) begins
    obtain ⟨notFile, bare, -⟩ := shared_bare paths apart writes writes'
    rcases label with label | label
    · exact notFile label
    · simp only [List.mem_cons, List.not_mem_nil, or_false] at label
      rcases label with label | label <;> simp [label, Label.attributeColumns] at bare

instance (language context : String) : Std.Symm (Apart language context) where
  symm file other h planned mem planned' mem' same := by
    rw [same]
    exact h planned' mem' planned mem same.symm

/-- In whichever order files are indexed, what they leave is the same. They have different paths,
none of them shares an element that carries attributes with another, all functions and classes of
the context are of the language in which they are indexed, and no write fails in either order. -/
theorem indexing_order_free (steps : List Runs.Step) (language context : String)
    (first second : List (Conditions × ParsedFile))
    (permuted : (first.map Prod.snd).Perm (second.map Prod.snd))
    (oneLanguage : OneLanguage language context (Runs.run steps))
    (paths : ((first.map Prod.snd).map ParsedFile.path).Nodup)
    (apart : (first.map Prod.snd).Pairwise (Apart language context))
    (free : CollisionFree ((first.map Prod.snd).flatMap fun file =>
      fileIdentities file.elements file.path language context))
    (clean : isClean (indexAll language context first (Runs.run steps)).1 = true)
    (clean' : isClean (indexAll language context second (Runs.run steps)).1 = true) :
    SameContent (indexAll language context first (Runs.run steps)).2
      (indexAll language context second (Runs.run steps)).2 := by
  have wf : WellFormed (Runs.run steps) :=
    Runs.run_invariant empty_well_formed fun step _ _ kept => Runs.step_well_formed step kept
  obtain ⟨uniform, entered⟩ := index_all_entered ⟨wf, oneLanguage⟩ clean
  obtain ⟨uniform', entered'⟩ := index_all_entered ⟨wf, oneLanguage⟩ clean'
  refine same_content uniform.wellFormed uniform'.wellFormed ?_
  rw [entered, entered']
  -- it is enough that two files can be swapped
  refine permuted.foldl_eq' (fun file mem other mem' content => ?_) _
  by_cases eq : file = other
  · rw [eq]
  · have differ : file.path ≠ other.path :=
      fun same => eq (List.inj_on_of_nodup_map paths mem mem' same)
    refine enter_all_comm (file_entries_commute free differ
      (apart.forall mem mem' eq) ?_ ?_) content
    · exact fun identity inside => List.mem_flatMap.mpr ⟨file, mem, inside⟩
    · exact fun identity inside => List.mem_flatMap.mpr ⟨other, mem', inside⟩

def ping : ParsedFile :=
  ⟨"a.py", { functions := [⟨"ping", "{ pong() }"⟩], imports := [⟨"time", ["sleep"]⟩] }⟩

def pong : ParsedFile :=
  ⟨"b.py", { functions := [⟨"pong", "{ ping() }"⟩], imports := [⟨"time", []⟩] }⟩

/-- Which of the two functions is a stub for a while depends on the order, what is left does not. -/
theorem ping_pong_in_either_order :
    SameContent
      (indexAll "python" "main" [({ now := 1 }, ping), ({ now := 2 }, pong)] (Runs.run [])).2
      (indexAll "python" "main" [({ now := 3 }, pong), ({ now := 4 }, ping)] (Runs.run [])).2 :=
  indexing_order_free [] "python" "main" [({ now := 1 }, ping), ({ now := 2 }, pong)]
    [({ now := 3 }, pong), ({ now := 4 }, ping)] (List.Perm.swap pong ping [])
    (by decide) (by decide) (by decide) (by decide +kernel)
    (index_all_faultless (by decide) ..) (index_all_faultless (by decide) ..)

end CodeAtlas.Indexing
