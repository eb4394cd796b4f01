import CodeAtlas.Proofs.Indexing.Matching
import CodeAtlas.Proofs.Isolation.Keyed
import CodeAtlas.Proofs.Review.Relations

/-! What a report says of the imports of a file that was just indexed. The statements about one
module share one edge, and each of them goes over what the one before it supplied. So a module is
listed once, with the names of the last statement about it. -/
namespace CodeAtlas.Indexing

open CodeAtlas.Graph
open CodeAtlas.Review (EdgeKind Relation RelationshipReport relation?)
open CodeAtlas.Source (Elements)

def importKind : EdgeKind := ⟨.imports, .file, .importedModule⟩

/-- Every edge belongs to the context of the nodes at its ends. -/
def JoinsInside (graph : Graph) : Prop :=
  ∀ edge ∈ graph.edges, ∀ node ∈ graph.nodes,
    node.id = edge.source ∨ node.id = edge.target → node.context = edge.context

instance (graph : Graph) : Decidable (JoinsInside graph) :=
  inferInstanceAs (Decidable (∀ edge ∈ graph.edges, ∀ node ∈ graph.nodes, _))

instance (graph : Graph) : Decidable (ListsReadable graph) :=
  decidable_of_iff (∀ edge ∈ graph.edges, (decodeList edge.imports).toOption.isSome = true) <|
    forall₂_congr fun edge _ => by cases decodeList edge.imports <;> simp [Except.toOption]

theorem keyed_run_joins_inside {steps : List Runs.Step}
    (keyed : ∀ step ∈ steps, step.operation.IsKeyed) (free : CollisionFree (Runs.named steps)) :
    JoinsInside (Runs.run steps) :=
  (Runs.keyed_run_confined keyed (List.Subset.refl _) free).joined

variable {known : List Identity} {graph : Graph} {elements : Elements}
  {path language context name : String} {since : Int} {front rest : List Source.Import}
  {statement : Source.Import} {edge : Edge}

theorem key_of_display {node : Node} (column : node.label.keyColumns.length = 1)
    (keyed : node.identity.Proper) : node.key = [node.displayName] := by
  obtain ⟨value, key⟩ := List.length_eq_one_iff.mp (keyed.trans column)
  have same : node.key = [value] := key
  rw [Node.displayName, same]
  rfl

def importEnds (path context : String) (statement : Source.Import) : EdgeType × String × String :=
  ((importWrite context statement).edgeWrite (.file path context)).1

theorem import_planned (mem : statement ∈ elements.imports) :
    importWrite context statement ∈ plan elements language context := by
  have inside := List.mem_map_of_mem (f := importWrite context) mem
  rw [← plan_of_imports elements language context] at inside
  exact (List.mem_filter.mp inside).1

theorem ends_of_listed {relation : Relation} (confined : Confined known graph)
    (mem : edge ∈ graph.edges)
    (listed : relation? graph importKind context none edge = some (.ok relation))
    (source : relation.source = path) (target : relation.target = statement.source) :
    edge.ends = importEnds path context statement := by
  obtain ⟨type, inside, first, second, begins, ends, -, shown⟩ := Review.relation_eq_some.mp listed
  obtain ⟨known, label, id⟩ := node?_eq_some begins
  obtain ⟨known', label', id'⟩ := node?_eq_some ends
  obtain ⟨within, within'⟩ := confined.same_context mem known known' id id'
  obtain ⟨first_shown, second_shown⟩ :
      relation.source = first.displayName ∧ relation.target = second.displayName := by
    cases details : Review.detailsOf edge with
    | error error =>
      rw [details] at shown
      cases shown
    | ok value =>
      rw [details] at shown
      obtain rfl := Except.ok.inj shown
      exact ⟨rfl, rfl⟩
  have file : first.identity = .file path context := by
    have key := key_of_display (label ▸ rfl) (confined.wellFormed.keyed first known)
    rw [Node.identity, label, key, ← first_shown, source, within, inside]
    rfl
  have imported : second.identity = ⟨.importedModule, [statement.source], context⟩ := by
    have key := key_of_display (label' ▸ rfl) (confined.wellFormed.keyed second known')
    rw [Node.identity, label', key, ← second_shown, target, within', inside]
    rfl
  have start : edge.source = (Identity.file path context).id :=
    file ▸ id.symm.trans (confined.wellFormed.named first known)
  have stop : edge.target = (Identity.mk .importedModule [statement.source] context).id :=
    imported ▸ id'.symm.trans (confined.wellFormed.named second known')
  rw [Edge.ends, type, start, stop]
  rfl

theorem filter_filterMap_alone {α β γ : Type} {view : α → β} {value? : α → Option γ}
    (passes : γ → Bool) {items : List α} {item : α} {value : γ}
    (distinct : (items.map view).Nodup) (mem : item ∈ items)
    (only : ∀ other ∈ items, ∀ found, value? other = some found → passes found = true →
      view other = view item)
    (given : value? item = some value) (passed : passes value = true) :
    (items.filterMap value?).filter passes = [value] := by
  induction items with
  | nil => cases mem
  | cons head items ih =>
    rw [List.map_cons, List.nodup_cons] at distinct
    rcases List.mem_cons.mp mem with rfl | mem
    · have nothing : (items.filterMap value?).filter passes = [] := by
        refine List.filter_eq_nil_iff.mpr fun found inside passed => distinct.1 ?_
        obtain ⟨other, mem, gives⟩ := List.mem_filterMap.mp inside
        have same := only other (List.mem_cons_of_mem _ mem) found gives passed
        exact List.mem_map.mpr ⟨other, mem, same⟩
      rw [List.filterMap_cons_some given, List.filter_cons_of_pos passed, nothing]
    · have rest := ih distinct.2 mem fun other inside => only other (List.mem_cons_of_mem _ inside)
      cases gives : value? head with
      | none => rw [List.filterMap_cons_none gives, rest]
      | some found =>
        have refused : ¬ passes found = true := fun passed => distinct.1 (List.mem_map.mpr
          ⟨item, mem, (only head List.mem_cons_self found gives passed).symm⟩)
        rw [List.filterMap_cons_some gives, List.filter_cons_of_neg refused, rest]

theorem import_links (file : Identity) :
    ((plan elements language context).map (·.edgeWrite file)).filter
        (fun link => link.1.1 = .imports) =
      elements.imports.map fun statement => (importWrite context statement).edgeWrite file := by
  rw [List.filter_map, Function.comp_def]
  exact (congrArg _ (plan_of_imports elements language context)).trans List.map_map

section Indexed

variable (free : CollisionFree known)
  (occur : fileIdentities elements path language context ⊆ known)
  (indexed : Indexed elements path language context since graph)

include free occur

theorem source_of_ends {other : Source.Import} (mem : statement ∈ elements.imports)
    (mem' : other ∈ elements.imports)
    (same : importEnds path context other = importEnds path context statement) :
    other.source = statement.source := by
  have within : ∀ statement ∈ elements.imports, (importWrite context statement).identity ∈ known :=
    fun statement mem => occur (List.mem_append_left _ (List.mem_cons_of_mem _
      (List.mem_map_of_mem (f := PlannedWrite.identity) (import_planned mem))))
  have ids : (importWrite context other).identity.id =
      (importWrite context statement).identity.id :=
    congrArg (fun ends => ends.2.2) same
  have identity := free.eq_of_id (within other mem') (within statement mem) ids
  simpa [importWrite] using identity

include indexed

/-- Of several statements about a module the last one is what its edge supplies. -/
theorem last_import_kept (imports : elements.imports = front ++ statement :: rest)
    (last : ∀ later ∈ rest, later.source ≠ statement.source) (mem : edge ∈ graph.edges)
    (ends : edge.ends = importEnds path context statement) :
    edge.imports = some (encodeList statement.names) := by
  have settled := indexed.settled.edges edge mem
  have type : edge.type = .imports := congrArg Prod.fst ends
  have passed : ∀ link ∈ (plan elements language context).map (·.edgeWrite (.file path context)),
      edge.ends = link.1 → decide (link.1.1 = .imports) = true := fun link _ hit =>
    decide_eq_true ((congrArg Prod.fst hit).symm.trans type)
  rw [Edge.relinkedAll, ← overAll_filter links_stable passed, import_links, imports,
    List.map_append, List.map_cons, overAll_last links_stable ends] at settled
  · rw [← settled]
    rfl
  · intro link mem' hit
    obtain ⟨later, inside, rfl⟩ := List.mem_map.mp mem'
    have stated : statement ∈ elements.imports := by simp [imports]
    have stated' : later ∈ elements.imports := by simp [imports, inside]
    exact last later inside (source_of_ends free occur stated stated' (hit.symm.trans ends))

theorem import_listed (confined : Confined known graph) (mem : edge ∈ graph.edges)
    (stated : statement ∈ elements.imports)
    (ends : edge.ends = importEnds path context statement) :
    relation? graph importKind context none edge =
      some ((Review.detailsOf edge).map (⟨path, statement.source, .imports, ·⟩)) := by
  have filed : Identity.file path context ∈ known := occur List.mem_cons_self
  have planned : importWrite context statement ∈ plan elements language context :=
    import_planned stated
  obtain ⟨source, begins⟩ := Option.isSome_iff_exists.mp indexed.filed
  obtain ⟨target, arrives⟩ := Option.isSome_iff_exists.mp (indexed.held _ planned).1
  obtain ⟨known, -, id⟩ := node?_eq_some begins
  obtain ⟨known', -, id'⟩ := node?_eq_some arrives
  have file : source.identity = .file path context := confined.identity_of_id free known filed id
  have imported : target.identity = ⟨.importedModule, [statement.source], context⟩ :=
    confined.identity_of_id free known' (occur (List.mem_append_left _ (List.mem_cons_of_mem _
      (List.mem_map_of_mem (f := PlannedWrite.identity) planned)))) id'
  have type : edge.type = .imports := congrArg Prod.fst ends
  have start : edge.source = (Identity.file path context).id := congrArg (·.2.1) ends
  have stop : edge.target = (importWrite context statement).identity.id := congrArg (·.2.2) ends
  have inside : edge.context = context :=
    (confined.joined edge mem source known (.inl (id.trans start.symm))).symm.trans
      (congrArg Identity.context file)
  have shown : source.displayName = path := by
    rw [Node.displayName, show source.key = [path] from congrArg Identity.key file]
    rfl
  have shown' : target.displayName = statement.source := by
    rw [Node.displayName, show target.key = [statement.source] from congrArg Identity.key imported]
    rfl
  refine Review.relation_eq_some.mpr ⟨type, inside, source, target, ?_, ?_, rfl, ?_⟩
  · rw [start]
    exact begins
  · rw [stop]
    exact arrives
  · rw [shown, shown']
    rfl

theorem imported_once (confined : Confined known graph)
    (imports : elements.imports = front ++ statement :: rest)
    (last : ∀ later ∈ rest, later.source ≠ statement.source) {found : List Relation}
    (listed : Review.relations graph importKind context none = .ok found) :
    found.filter (fun relation => relation.source = path && relation.target = statement.source) =
      [⟨path, statement.source, .imports, Json.texts statement.names⟩] := by
  have stated : statement ∈ elements.imports := by simp [imports]
  obtain ⟨edge, mem, ends⟩ := List.mem_map.mp (indexed.held _ (import_planned stated)).2
  have type : edge.type = .imports := congrArg Prod.fst ends
  have shown : relation? graph importKind context none edge =
      some (.ok ⟨path, statement.source, .imports, Json.texts statement.names⟩) := by
    rw [import_listed free occur indexed confined mem stated ends, Review.detailsOf, if_pos type,
      last_import_kept free occur indexed imports last mem ends, decodeList_encodeList]
    rfl
  let between : Except Error Relation → Bool
    | .ok relation => relation.source = path && relation.target = statement.source
    | .error _ => false
  have alone := filter_filterMap_alone between confined.wellFormed.distinct_edges mem
    (fun other inside result given passed => by
      cases result with
      | error error => cases passed
      | ok relation =>
        simp only [between, Bool.and_eq_true, decide_eq_true_eq] at passed
        exact (ends_of_listed confined inside given passed.1 passed.2).trans ends.symm)
    shown (by simp [between])
  rw [Review.listed_of_relations listed, List.filter_map] at alone
  obtain ⟨relation, only, same⟩ := List.map_eq_singleton_iff.mp alone
  obtain rfl := Except.ok.inj same
  exact only

end Indexed

/-- Each module that elements import is listed once, with the names of the last statement. -/
def ListsLastStatements (elements : Elements) (path : String) (report : RelationshipReport) :
    Prop :=
  ∀ front statement rest, elements.imports = front ++ statement :: rest →
    (∀ later ∈ rest, later.source ≠ statement.source) →
      report.relations.filter (fun relation =>
        relation.source = path && relation.target = statement.source) =
          [⟨path, statement.source, .imports, Json.texts statement.names⟩]

theorem indexed_imports_listed {here : Conditions} (wf : WellFormed graph)
    (free : CollisionFree
      (graph.nodes.map Node.identity ++ fileIdentities elements path language context))
    (joins : JoinsInside graph) (readable : ListsReadable graph)
    (clean : isSuccess (indexElements here elements path language context graph).1 = true) :
    ∃ report, Review.analyzeContext (indexElements here elements path language context graph).2
        context .imports none = .ok report ∧ ListsLastStatements elements path report := by
  have occur : fileIdentities elements path language context ⊆
      graph.nodes.map Node.identity ++ fileIdentities elements path language context :=
    List.subset_append_right _ _
  have confined : Confined
      (graph.nodes.map Node.identity ++ fileIdentities elements path language context) graph :=
    ⟨wf, fun node mem => List.mem_append_left _ (List.mem_map_of_mem mem), joins⟩
  have isolated : SessionIsolated _ context (indexElements here elements path language context) :=
    isolated_elements free occur
  have ended := (isolated.keeps confined).1
  have kept := (sessions_keep_lists here).elements elements path language context graph readable
  obtain ⟨-, _, _, _, _, completed⟩ := completed_of_success clean
  obtain ⟨report, analysed⟩ := Review.analysis_answers kept context .imports none
  refine ⟨report, analysed, fun front statement rest imports last => ?_⟩
  exact imported_once free occur completed.indexed ended imports last
    (Review.imports_analysed analysed)

theorem on_index_elements {here : Conditions} {project branch : Option String}
    (settled : contextKey project branch = .ok context) (graph : Graph) :
    (Runs.Operation.indexElements elements path language project branch).on here graph =
      ((indexElements here elements path language context graph).1.map .indexed,
        (indexElements here elements path language context graph).2) := by
  rw [Runs.on_eq_session, Runs.Operation.session, settled]
  change ((do return Runs.Answer.indexed (← indexElements here elements path language context) :
    Session Runs.Answer) graph) = _
  rw [session_bind_apply]
  rcases indexElements here elements path language context graph with ⟨error | report, last⟩ <;> rfl

theorem on_analyze (later : Conditions) {project branch : Option String}
    (settled : contextKey project branch = .ok context) (analysis : Review.AnalysisType)
    (element : Option String) (graph : Graph) :
    (Runs.Operation.analyze analysis.name element project branch).on later graph =
      ((Review.analyzeContext graph context analysis element).map .relationships, graph) := by
  rw [Runs.Operation.on, Runs.Operation.perform, Runs.access_bind_apply,
    Review.analyze_settled settled]
  cases Review.analyzeContext graph context analysis element <;> rfl

/-- A file that was indexed without failures has every module it imports reported once, with the
names of the last statement about it, whatever the graph was before: edges between contexts apart,
which only a link by bare ids can draw, and lists apart that only such a link can spoil. -/
theorem last_statement_reported (steps : List Runs.Step) (here later : Conditions)
    (elements : Elements) (path language : String) (project branch : Option String) :
    let graph := Runs.run steps
    let index : Runs.Operation := .indexElements elements path language project branch
    let after := (index.on here graph).2
    CollisionFree (graph.nodes.map Node.identity ++ index.identities here) → JoinsInside graph →
      ListsReadable graph →
      ∀ report, (index.on here graph).1 = .ok (.indexed report) → report.success = true →
        ∃ analysis, (Runs.Operation.analyze "imports" none project branch).on later after =
            (.ok (.relationships analysis), after) ∧ analysis.context = report.context ∧
          ListsLastStatements elements path analysis := by
  intro graph index after free joins readable report done success
  have wf : WellFormed graph :=
    Runs.run_invariant empty_well_formed fun step _ _ kept => Runs.step_well_formed step kept
  cases settled : contextKey project branch with
  | error error =>
    rw [Runs.on_eq_session, Runs.Operation.session, settled] at done
    cases done
  | ok context =>
    have inside : index.context? = some context := Runs.toOption_of_ok settled
    rw [Runs.identities_of_context inside] at free
    have run : index.on here graph = _ := on_index_elements settled graph
    have left : after = (indexElements here elements path language context graph).2 :=
      congrArg Prod.snd run
    have reported : (indexElements here elements path language context graph).1 = .ok report := by
      rw [run] at done
      cases indexed : (indexElements here elements path language context graph).1 with
      | error error =>
        rw [indexed] at done
        cases done
      | ok other =>
        rw [indexed] at done
        obtain rfl := Runs.Answer.indexed.inj (Except.ok.inj done)
        rfl
    have clean : isSuccess (indexElements here elements path language context graph).1 = true := by
      rw [reported]
      exact success
    obtain ⟨analysis, analysed, listed⟩ := indexed_imports_listed wf free joins readable clean
    obtain ⟨same, -⟩ := completed_of_success clean
    refine ⟨analysis, ?_, ?_, listed⟩
    · have performed : (Runs.Operation.analyze "imports" none project branch).on later after = _ :=
        on_analyze later settled .imports none after
      rw [performed, left, analysed]
      rfl
    · rw [(Review.analysis_ok analysed).1, Except.ok.inj (reported.symm.trans same)]
      rfl

def twoStatements : Elements where
  imports := [⟨"m", ["a"]⟩, ⟨"m", ["b"]⟩]

def statementsText : String := "import { a } from 'm';\nimport { b } from 'm';"

theorem two_statements_parsed : Source.parseElements statementsText "ts" = twoStatements := by
  decide +kernel

def indexStatements : Runs.Operation := .indexElements twoStatements "a.ts" "typescript" none none

theorem two_statements_free : CollisionFree
    ((Runs.run []).nodes.map Node.identity ++ indexStatements.identities { now := 1 }) := by
  decide +kernel

theorem two_statements_clean : isSuccess (indexElements { now := 1 } twoStatements "a.ts"
    "typescript" "default:main" (Runs.run [])).1 = true :=
  index_elements_faultless rfl ..

theorem two_statements_indexed : (indexStatements.on { now := 1 } (Runs.run [])).1 =
    .ok (.indexed (cleanReport twoStatements "a.ts" "typescript" "default:main")) := by
  have settled : contextKey none none = .ok "default:main" := rfl
  rw [indexStatements, on_index_elements settled, (completed_of_success two_statements_clean).1]
  rfl

/-- The module is reported with the names of the second statement. -/
theorem second_statement_reported :
    let index : Runs.Operation :=
      .indexElements (Source.parseElements statementsText "ts") "a.ts" "typescript" none none
    let after := (index.on { now := 1 } (Runs.run [])).2
    ∃ analysis, (Runs.Operation.analyze "imports" none none none).on { now := 1 } after =
        (.ok (.relationships analysis), after) ∧
      analysis.relations.filter
          (fun relation => relation.source = "a.ts" && relation.target = "m") =
        [⟨"a.ts", "m", .imports, Json.texts ["b"]⟩] := by
  intro index after
  have index_eq : index = indexStatements :=
    congrArg (Runs.Operation.indexElements · "a.ts" "typescript" none none) two_statements_parsed
  have left : after = (indexStatements.on { now := 1 } (Runs.run [])).2 := by rw [← index_eq]
  have joins : JoinsInside (Runs.run []) := by decide
  have readable : ListsReadable (Runs.run []) := by decide
  obtain ⟨analysis, analysed, -, listed⟩ :=
    last_statement_reported [] { now := 1 } { now := 1 } twoStatements "a.ts" "typescript" none none
      two_statements_free joins readable _ two_statements_indexed rfl
  rw [left]
  exact ⟨analysis, analysed, listed [⟨"m", ["a"]⟩] ⟨"m", ["b"]⟩ [] rfl (by simp)⟩

/-- The names of the first statement are reported nowhere. -/
theorem first_statement_lost :
    ¬ ∀ (steps : List Runs.Step) (here later : Conditions) (elements : Elements)
      (path language : String) (project branch : Option String),
      let index : Runs.Operation := .indexElements elements path language project branch
      let after := (index.on here (Runs.run steps)).2
      ∀ report, (index.on here (Runs.run steps)).1 = .ok (.indexed report) → report.success = true →
        ∀ analysis, ((Runs.Operation.analyze "imports" none project branch).on later after).1 =
            .ok (.relationships analysis) →
          ∀ statement ∈ elements.imports, ∃ names, statement.names ⊆ names ∧
            analysis.relations.filter (fun relation =>
              relation.source = path && relation.target = statement.source) =
                [⟨path, statement.source, .imports, Json.texts names⟩] := by
  intro claimed
  have settled : contextKey none none = .ok "default:main" := rfl
  let after := (indexStatements.on { now := 1 } (Runs.run [])).2
  have left : after = (indexElements { now := 1 } twoStatements "a.ts" "typescript" "default:main"
      (Runs.run [])).2 := congrArg Prod.snd (on_index_elements settled (Runs.run []))
  obtain ⟨analysis, analysed, listed⟩ := indexed_imports_listed empty_well_formed
    two_statements_free (by decide) (by decide) two_statements_clean
  have second := listed [⟨"m", ["a"]⟩] ⟨"m", ["b"]⟩ [] rfl (by simp)
  have answered : ((Runs.Operation.analyze "imports" none none none).on { now := 1 } after).1 =
      .ok (.relationships analysis) := by
    have performed := on_analyze { now := 1 } settled .imports none after
    rw [left] at performed ⊢
    exact (congrArg Prod.fst performed).trans
      (congrArg (Except.map Runs.Answer.relationships) analysed)
  obtain ⟨names, kept, alone⟩ :=
    claimed [] { now := 1 } { now := 1 } twoStatements "a.ts" "typescript" none none _
      two_statements_indexed rfl analysis answered ⟨"m", ["a"]⟩ List.mem_cons_self
  have same : Json.texts names = Json.texts ["b"] := by
    rw [alone] at second
    simpa using second
  rw [Json.compact_texts_inj (congrArg Json.compact same)] at kept
  simp at kept

end CodeAtlas.Indexing
