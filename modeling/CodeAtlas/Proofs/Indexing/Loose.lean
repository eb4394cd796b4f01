import CodeAtlas.Proofs.Graph.Rewriting
import CodeAtlas.Proofs.Indexing.Order

/-! Loose functions and the functions of a file. Nodes of files and edges from files stand in tables
of their own, which no function and no relationship reads. So it does not matter whether the file is
written once before all functions or again after each of them, and functions without a file leave
all other tables as the file would. -/
namespace CodeAtlas.Indexing

open CodeAtlas.Graph
open CodeAtlas.Relations (Relationship infer writeRelationship resolveTarget knownTarget?
  elementIdentity)
open CodeAtlas.Source (Elements FunctionElement)

variable {here : Conditions} {graph other after : Graph} {labels : Label → Prop}
  {types : EdgeType → Prop} {path language context : String} {function : LooseFunction}

/-! Relationships. -/

theorem relationship_spares {relationship : Relationship} {created : Bool}
    (done : writeRelationship here language context relationship graph = .ok (created, after))
    (spared : ¬ labels relationship.targetLabel) (spared' : ¬ types relationship.type) :
    SameRows labels types after graph := by
  obtain ⟨⟨target, fresh⟩, middle, resolved, done⟩ := write_bind done
  obtain ⟨_, joined, linked, done⟩ := write_bind done
  obtain ⟨-, rfl⟩ := write_pure done
  obtain ⟨-, -, -, rfl⟩ := link_cases linked
  refine (joined_spares _ _ _ _ spared').trans ?_
  rcases Relations.resolve_cases resolved with ⟨_, -, -, -, rfl⟩ | ⟨-, -, -, _, ensured⟩
  · exact .refl middle
  · refine ensure_spares ensured ?_
    rw [Relations.label_elementIdentity]
    exact spared

/-! Files. -/

def Settled (here : Conditions) (file : Identity) (graph : Graph) : Prop :=
  ∃ node, graph.node? file.label file.id = some node ∧ node.overwritten [] here.now = node ∧
    ∀ old ∈ graph.nodes, old.label = file.label → old.id = file.id → old = node

theorem settled_upsert (faultless : here.faults = []) {file : Identity}
    (settled : Settled here file graph) : upsert here file [] graph = .ok (false, graph) := by
  obtain ⟨node, found, current, only⟩ := settled
  have same : graph.setNode file.label file.id node = graph := by
    refine eq_of_lists ((List.map_congr_left fun old mem => ?_).trans (List.map_id _)) rfl
    by_cases hit : old.label = file.label ∧ old.id = file.id
    · rw [if_pos (by simpa using hit)]
      exact (only old mem hit.1 hit.2).symm
    · rw [if_neg (by simpa using hit), id]
  rw [upsert_apply, found]
  simp only [faultless_updates faultless, current, same]
  rfl

theorem file_settles {file : Identity} {created : Bool}
    (bare : file.label.attributeColumns = [])
    (done : upsert here file [] graph = .ok (created, after)) : Settled here file after := by
  refine ⟨_, upsert_self done, ?_, ?_⟩
  · cases found : graph.node? file.label file.id with
    | none => exact overwritten_created file [] here.now
    | some node =>
      refine overwritten_overwritten [] (fun column mem => ?_) here.now
      rw [(node?_eq_some found).2.1, bare] at mem
      cases mem
  · intro old mem label id
    rcases upsert_cases done with ⟨absent, -, -, rfl⟩ | ⟨node, found, -, -, rfl⟩
    · rw [absent]
      rcases List.mem_append.mp mem with mem | mem
      · exact absurd id (node?_eq_none.mp absent old mem label)
      · exact List.mem_singleton.mp mem
    · rw [found]
      exact (mem_setNode mem).resolve_right fun missed => missed.2 ⟨label, id⟩

theorem settled_of_nodes {file : Identity} (nodes : after.nodes = graph.nodes)
    (settled : Settled here file graph) : Settled here file after := by
  rwa [Settled, node?, nodes]

/-! Functions. -/

def LooseFunction.element (function : LooseFunction) : FunctionElement :=
  ⟨function.name, function.body⟩

def LooseFunction.identity (function : LooseFunction) (language context : String) : Identity :=
  .named .function function.name language context

def functionWrite (language context : String) (function : LooseFunction) : PlannedWrite where
  identity := function.identity language context
  edge := .contains
  attributes := [("body", .text function.body)]

theorem loose_elements {functions : List FunctionElement} {loose : List LooseFunction}
    (same : loose.map LooseFunction.element = functions) : looseElements loose = { functions } := by
  rw [← same]
  rfl

theorem plan_looseElements (functions : List LooseFunction) (language context : String) :
    plan (looseElements functions) language context =
      functions.map (functionWrite language context) := by
  simp [plan, looseElements, functionWrite, LooseFunction.identity, Identity.named,
    Function.comp_def]

theorem function_fits (path language context : String) (function : LooseFunction) :
    ((Identity.file path context).endpoint.label,
      (function.identity language context).endpoint.label) ∈ EdgeType.contains.endpoints := by
  simp [Identity.endpoint, Identity.file, LooseFunction.identity, Identity.named,
    EdgeType.endpoints]

theorem write_function_placed (placed : function.path = some path) (named : path ≠ "")
    (language context : String) : writeFunction here language context function = (do
      let _ ← upsert here (function.identity language context) [("body", .text function.body)]
      let _ ← upsert here (.file path context) []
      link here .contains (Identity.file path context).endpoint
        (function.identity language context).endpoint context) := by
  simp only [writeFunction, placed, Option.getD_some, if_neg named]
  rfl

theorem write_function_apart (loose : function.path.getD "" = "") (language context : String) :
    writeFunction here language context function = (do
      let _ ← upsert here (function.identity language context) [("body", .text function.body)]
      return ()) := by
  simp only [writeFunction, loose]
  rfl

/-- Where writing the file first makes a graph like another one, a function with the file makes it
like that one with the function, and settles the file. -/
theorem placed_function (faultless : here.faults = []) (named : path ≠ "")
    (placed : function.path = some path) (language : String) {created : Bool} {ready : Graph}
    (put : upsert here (.file path context) [] other = .ok (created, ready))
    (alike : SameTables graph ready) :
    ∃ after after', writeElement here (.file path context)
        (functionWrite language context function) graph = .ok ((), after) ∧
      writeFunction here language context function other = .ok ((), after') ∧
      SameTables after after' ∧ Settled here (.file path context) after' := by
  have label : (function.identity language context).label = .function := rfl
  have others : SameRows (· ≠ .file) (fun _ => True) graph other :=
    (alike.mono (fun _ _ => trivial) fun _ _ => trivial).trans
      (upsert_spares put (not_not.mpr rfl))
  obtain ⟨fresh, held, held', done, done', others⟩ :=
    upsert_both faultless (function.identity language context) [("body", .text function.body)]
      (by simp [label]) graph other others
  have files : SameRows (· = .file) (fun _ => False) held graph :=
    upsert_spares done (by simp [label])
  have files' : SameRows (· = .file) (fun _ => False) held' other :=
    upsert_spares done' (by simp [label])
  obtain ⟨again, ready', last, put', done'', same⟩ :=
    (upsert_both faultless (.file path context) [] rfl :
      Both (SameRows (· = .file) fun _ => False) _ _) other held' files'.symm
  obtain ⟨rfl, rfl⟩ := Prod.mk.inj (Except.ok.inj (put.symm.trans put'))
  have both : SameTables held last := by
    have kept : SameRows (· ≠ .file) (fun _ => True) last held' :=
      upsert_spares done'' (not_not.mpr rfl)
    constructor
    · intro label _
      by_cases file : label = .file
      · exact (files.nodes label file).trans
          ((alike.nodes label trivial).trans (same.nodes label file))
      · exact (others.nodes label file).trans (kept.nodes label file).symm
    · intro type _
      exact (others.edges type trivial).trans (kept.edges type trivial).symm
  have fits := function_fits path language context function
  let linked (graph : Graph) : Graph := joined here graph .contains
    (Identity.file path context).endpoint (function.identity language context).endpoint context []
  refine ⟨linked held, linked last, ?_, ?_, both.joined trivial trivial trivial context [],
    settled_of_nodes (nodes_joined _ _ _ _ _) (file_settles rfl done'')⟩
  · rw [writeElement, write_bind_apply]
    simp only [functionWrite, done]
    exact link_done faultless fits (List.forall_mem_nil _) context held
  · rw [write_function_placed placed named, write_bind_apply, done']
    dsimp only
    rw [write_bind_apply, done'']
    exact link_done faultless fits (List.forall_mem_nil _) context last

theorem placed_both (faultless : here.faults = []) (named : path ≠ "")
    (placed : function.path = some path) (language : String) :
    Both (fun graph other => SameTables graph other ∧ Settled here (.file path context) other)
      (writeElement here (.file path context) (functionWrite language context function))
      (writeFunction here language context function) := by
  rintro graph other ⟨alike, settled⟩
  obtain ⟨after, after', done, done', both⟩ :=
    placed_function faultless named placed language (settled_upsert faultless settled) alike
  exact ⟨(), after, after', done, done', both⟩

theorem apart_both (faultless : here.faults = []) (loose : function.path.getD "" = "")
    (path language context : String) :
    Both (SameRows (· ≠ .file) (· ≠ .contains))
      (writeElement here (.file path context) (functionWrite language context function))
      (writeFunction here language context function) := by
  rw [write_function_apart loose]
  refine (upsert_both faultless _ _ (by simp [functionWrite, LooseFunction.identity,
    Identity.named])).bind fun _ => ?_
  intro graph other alike
  have linked := link_done faultless (function_fits path language context function)
    (List.forall_mem_nil _) context graph
  exact ⟨(), _, other, linked, rfl,
    (joined_spares _ _ _ _ (not_not.mpr rfl)).trans alike⟩

theorem apart_spares (loose : function.path.getD "" = "") {value : Unit}
    (done : writeFunction here language context function graph = .ok (value, after)) :
    SameRows (· = .file) (· = .contains) after graph := by
  rw [write_function_apart loose] at done
  obtain ⟨created, middle, put, rest⟩ := write_bind done
  obtain ⟨-, rfl⟩ := write_pure rest
  exact upsert_spares put (by simp [LooseFunction.identity, Identity.named])

/-! Functions together. -/

theorem infer_tables {functions : List LooseFunction} {relationship : Relationship}
    (mem : relationship ∈ infer (looseElements functions)) :
    relationship.kind ∈ Relations.inferredKinds ∧ relationship.sourceLabel ≠ .file ∧
      relationship.targetLabel ≠ .file ∧ relationship.type ≠ .contains := by
  have kind := Relations.infer_kind mem
  have apart : ∀ kind ∈ Relations.inferredKinds,
      kind.2.1 ≠ .file ∧ kind.2.2 ≠ .file ∧ kind.1 ≠ .contains := by decide
  exact ⟨kind, apart _ kind⟩

/-- Two reports of the same counts and relationships, neither with a failure. -/
structure Matches (report other : Report) : Prop where
  clean : report.failures = []
  clean' : other.failures = []
  counts : other.counts = report.counts
  relationships : other.relationships = report.relationships

def writeFiled (here : Conditions) (path language context : String) (function : LooseFunction) :
    Write Unit :=
  writeElement here (.file path context) (functionWrite language context function)

theorem record_clean {α : Type} (label : α → Label) (name : α → String)
    {results : List (α × Except Error Unit)} (clean : failed results = [])
    (filePath : Option String) (context : String) :
    results.foldl (fun report item => Report.record report (label item.1) (name item.1) item.2)
        ⟨filePath, context, [], [], []⟩ =
      ⟨filePath, context, tally ((results.map Prod.fst).map label), [], []⟩ := by
  rw [record_results, clean, succeeded_of_clean clean]
  rfl

section Clean

variable {functions : List LooseFunction}

theorem index_filed_apply {created : Bool} {begun : Graph}
    (put : upsert here (.file path context) [] graph = .ok (created, begun))
    (clean : failed (tryAll (writeFiled here path language context) functions begun).1 = []) :
    indexElements here (looseElements functions) path language context graph =
      let related := tryRelated here (looseElements functions) language context
        (tryAll (writeFiled here path language context) functions begun).2
      (.ok ((Report.mk (some path) context (tally (functions.map fun _ => .function)) []
        []).withRelationships (outcomeOf related.1)), related.2) := by
  have planned : tryPlan here (looseElements functions) path language context begun =
      ((tryAll (writeFiled here path language context) functions begun).1.map
          (Prod.map (functionWrite language context) fun result => result),
        (tryAll (writeFiled here path language context) functions begun).2) := by
    rw [tryPlan, plan_looseElements]
    exact tryAll_map (functionWrite language context) _ functions begun
  have whole : failed (tryPlan here (looseElements functions) path language context begun).1 =
      [] := by
    rw [planned, failed_map, clean]
    rfl
  have report := record_clean (·.identity.label) PlannedWrite.name whole (some path) context
  have labels : ((tryPlan here (looseElements functions) path language context begun).1.map
      Prod.fst).map (·.identity.label) = functions.map fun _ => .function := by
    rw [tryPlan, items_tryAll, plan_looseElements, List.map_map]
    rfl
  rw [index_elements_apply, put]
  dsimp only
  rw [spared_clean whole, reportOf, report, labels, planned]

theorem index_loose_apply
    (clean : failed (tryAll (writeFunction here language context) functions graph).1 = []) :
    indexFunctions here functions language context graph =
      let related := tryRelated here (looseElements functions) language context
        (tryAll (writeFunction here language context) functions graph).2
      (.ok ((Report.mk none context (tally (functions.map fun _ => .function)) []
        []).withRelationships (outcomeOf related.1)), related.2) := by
  have report := record_clean (fun _ => .function) LooseFunction.name clean none context
  rw [items_tryAll] at report
  have whole : writtenFunctions ⟨none, context, tally (functions.map fun _ => .function), [], []⟩
      functions = functions := by
    simp [writtenFunctions, Report.hasFailed]
  rw [index_functions_apply]
  dsimp only
  rw [looseReportOf, report, whole]

theorem indexed_alike (faultless : here.faults = []) (all : ∀ label, label ≠ .file → labels label)
    (all' : ∀ type, type ≠ .contains → types type) {created : Bool} {begun : Graph}
    (put : upsert here (.file path context) [] graph = .ok (created, begun))
    (written : SideBySide (SameRows labels types)
      (tryAll (writeFiled here path language context) functions begun)
      (tryAll (writeFunction here language context) functions graph)) :
    ∃ report after report' after',
      indexElements here (looseElements functions) path language context graph =
        (.ok report, after) ∧
      indexFunctions here functions language context graph = (.ok report', after') ∧
      Matches report report' ∧ SameRows labels types after after' := by
  obtain ⟨same, clean, alike⟩ := written
  have each : ∀ relationship ∈ infer (looseElements functions), Both (SameRows labels types)
      (writeRelationship here language context relationship)
      (writeRelationship here language context relationship) := by
    intro relationship mem
    obtain ⟨kind, begins, ends, between⟩ := infer_tables mem
    exact relationship_both faultless kind (all _ begins) (all _ ends) (all' _ between)
  obtain ⟨results, followed, last⟩ := Both.batch each alike
  refine ⟨_, _, _, _, index_filed_apply put clean, index_loose_apply (same ▸ clean), ?_, last⟩
  have failures : ∀ related : List (Relationship × Except Error Bool), failed related = [] →
      (outcomeOf related).failures = [] := fun related clean => by
    rw [outcomeOf, (record_relationships related {}).2, clean]
    rfl
  exact
    { clean := failures _ followed
      clean' := failures _ (results.symm ▸ followed)
      counts := rfl
      relationships := congrArg (fun related => (outcomeOf related).counts) results }

/-- What functions leave, compared with what indexing them as the elements of a file has left. -/
theorem indexed_as {elements : List FunctionElement} {report : Report} {filed : Graph}
    (indexed : indexElements here { functions := elements } path language context graph =
      (.ok report, filed))
    (same : functions.map LooseFunction.element = elements) (faultless : here.faults = [])
    (all : ∀ label, label ≠ .file → labels label) (all' : ∀ type, type ≠ .contains → types type)
    {created : Bool} {begun : Graph}
    (put : upsert here (.file path context) [] graph = .ok (created, begun))
    (written : SideBySide (SameRows labels types)
      (tryAll (writeFiled here path language context) functions begun)
      (tryAll (writeFunction here language context) functions graph)) :
    ∃ report' after, indexFunctions here functions language context graph = (.ok report', after) ∧
      Matches report report' ∧ SameRows labels types filed after := by
  obtain ⟨again, left, report', after, indexed', done, matched, alike⟩ :=
    indexed_alike faultless all all' put written
  rw [loose_elements same, indexed] at indexed'
  obtain ⟨reports, rfl⟩ := Prod.mk.inj indexed'
  obtain rfl := Except.ok.inj reports
  exact ⟨report', after, done, matched, alike⟩

theorem placed_written (faultless : here.faults = []) (given : functions ≠ []) (named : path ≠ "")
    (placed : ∀ function ∈ functions, function.path = some path) (language : String)
    {created : Bool} {begun : Graph}
    (put : upsert here (.file path context) [] graph = .ok (created, begun)) :
    SideBySide SameTables (tryAll (writeFiled here path language context) functions begun)
      (tryAll (writeFunction here language context) functions graph) := by
  cases functions with
  | nil => exact absurd rfl given
  | cons function functions =>
    obtain ⟨after, after', done, done', both⟩ := placed_function faultless named
      (placed function List.mem_cons_self) language put (.refl begun)
    have filed : writeFiled here path language context function begun = .ok ((), after) := done
    have rest := Both.batch (fun other mem =>
      placed_both faultless named (placed other (List.mem_cons_of_mem _ mem)) language) both
    simp only [tryAll, filed, done']
    exact SideBySide.cons ⟨rest.results, rest.clean, rest.related.1⟩ function ()

theorem apart_written (faultless : here.faults = [])
    (loose : ∀ function ∈ functions, function.path.getD "" = "") (language : String)
    {created : Bool} {begun : Graph}
    (put : upsert here (.file path context) [] graph = .ok (created, begun)) :
    SideBySide (SameRows (· ≠ .file) (· ≠ .contains))
      (tryAll (writeFiled here path language context) functions begun)
      (tryAll (writeFunction here language context) functions graph) :=
  Both.batch (fun function mem => apart_both faultless (loose function mem) path language context)
    (upsert_spares put (not_not.mpr rfl))

theorem index_apart_spares (loose : ∀ function ∈ functions, function.path.getD "" = "")
    (language context : String) (graph : Graph) : SameRows (· = .file) (· = .contains) graph
      (indexFunctions here functions language context graph).2 := by
  rw [index_functions_apply]
  have start : SameRows (· = .file) (· = .contains) graph graph := .refl graph
  have held : SameRows (· = .file) (· = .contains) graph
      (tryAll (writeFunction here language context) functions graph).2 := by
    apply (tried_tryAll (writeFunction here language context) functions graph).invariant start
    intro function mem before value after kept done
    rw [items_tryAll] at mem
    exact kept.trans (apart_spares (loose function mem) done).symm
  apply (tried_tryAll (writeRelationship here language context) _ _).invariant held
  intro relationship mem before created after kept done
  rw [items_tryAll] at mem
  obtain ⟨-, -, ends, between⟩ := infer_tables mem
  exact kept.trans (relationship_spares done ends between).symm

end Clean

/-- Without faults, functions of one file are indexed alike by themselves and as the elements of the
file: the same nodes and edges, counts and relationships. Without a file all is the same but for the
nodes of files and the edges from them, and these stay as they were. -/
theorem functions_indexed_alike (faultless : here.faults = []) {functions : List FunctionElement}
    (given : functions ≠ []) (named : path ≠ "") (language context : String) (graph : Graph) :
    ∃ report after,
      indexElements here { functions } path language context graph = (.ok report, after) ∧
      (∀ placed : List LooseFunction, placed.map LooseFunction.element = functions →
        (∀ function ∈ placed, function.path = some path) →
        ∃ report' after',
          indexFunctions here placed language context graph = (.ok report', after') ∧
          Matches report report' ∧ after.nodes.Perm after'.nodes ∧ after.edges.Perm after'.edges) ∧
      (∀ loose : List LooseFunction, loose.map LooseFunction.element = functions →
        (∀ function ∈ loose, function.path.getD "" = "") →
        ∃ report' after',
          indexFunctions here loose language context graph = (.ok report', after') ∧
          Matches report report' ∧ SameRows (· ≠ .file) (· ≠ .contains) after after' ∧
          SameRows (· = .file) (· = .contains) graph after') := by
  obtain ⟨created, begun, put⟩ := upsert_answers faultless (.file path context) [] graph
  let bare : List LooseFunction := functions.map fun function =>
    ⟨function.name, function.body, none⟩
  have elements : bare.map LooseFunction.element = functions := by
    rw [List.map_map]
    exact List.map_id functions
  have nowhere : ∀ function ∈ bare, function.path.getD "" = "" := by
    intro function mem
    obtain ⟨element, -, rfl⟩ := List.mem_map.mp mem
    rfl
  obtain ⟨report, after, -, -, indexed, -⟩ := indexed_alike faultless (fun _ apart => apart)
    (fun _ apart => apart) put (apart_written faultless nowhere language put)
  rw [loose_elements elements] at indexed
  refine ⟨report, after, indexed, fun placed same paths => ?_, fun loose same paths => ?_⟩
  · have some : placed ≠ [] := fun none => given (by rw [← same, none]; rfl)
    obtain ⟨report', after', done, matched, alike⟩ :=
      indexed_as indexed same faultless (fun _ _ => trivial) (fun _ _ => trivial) put
        (placed_written faultless some named paths language put)
    exact ⟨report', after', done, matched, alike.perm⟩
  · obtain ⟨report', after', done, matched, alike⟩ :=
      indexed_as indexed same faultless (fun _ apart => apart) (fun _ apart => apart) put
        (apart_written faultless paths language put)
    have spared : SameRows (· = .file) (· = .contains) graph
        (indexFunctions here loose language context graph).2 :=
      index_apart_spares paths language context graph
    rw [done] at spared
    exact ⟨report', after', done, matched, alike, spared⟩

def greetings : List FunctionElement :=
  [⟨"greet", "{ greet(); salute(); }"⟩, ⟨"greet", "{}"⟩]

def saluted : Graph := Runs.run [⟨{ now := 1 }, .ensureNode ⟨"Function",
  [("name", .text "salute"), ("language", .text "python")], [], "default:main"⟩⟩]

/-- The greetings are the same with their file and one by one, though the file comes first in one
graph and after a function in the other. -/
theorem greetings_indexed_alike :
    (∃ report after,
      indexElements { now := 5 } { functions := greetings } "hello.ts" "typescript" "default:main"
        saluted = (.ok report, after) ∧
      (∃ report' after',
        indexFunctions { now := 5 } (greetings.map fun function =>
            ⟨function.name, function.body, some "hello.ts"⟩) "typescript" "default:main"
          saluted = (.ok report', after') ∧
        Matches report report' ∧ after.nodes.Perm after'.nodes ∧ after.edges.Perm after'.edges) ∧
      ∃ report' after',
        indexFunctions { now := 5 } (greetings.map fun function =>
            ⟨function.name, function.body, none⟩) "typescript" "default:main" saluted =
          (.ok report', after') ∧
        Matches report report' ∧ SameRows (· ≠ .file) (· ≠ .contains) after after' ∧
        SameRows (· = .file) (· = .contains) saluted after') ∧
    (indexElements { now := 5 } { functions := greetings } "hello.ts" "typescript" "default:main"
      saluted).2.nodes.map Node.displayName = ["salute", "hello.ts", "greet"] ∧
    (indexFunctions { now := 5 } (greetings.map fun function =>
        ⟨function.name, function.body, some "hello.ts"⟩) "typescript" "default:main"
      saluted).2.nodes.map Node.displayName = ["salute", "greet", "hello.ts"] := by
  refine ⟨?_, by decide +kernel, by decide +kernel⟩
  obtain ⟨report, after, indexed, placed, loose⟩ := functions_indexed_alike
    (rfl : ({ now := 5 } : Conditions).faults = []) (by decide : greetings ≠ [])
    (by decide : "hello.ts" ≠ "") "typescript" "default:main" saluted
  exact ⟨report, after, indexed, placed _ rfl (by decide), loose _ rfl (by decide)⟩

end CodeAtlas.Indexing
