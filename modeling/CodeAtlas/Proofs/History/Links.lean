import CodeAtlas.Proofs.Indexing.Itemised
import CodeAtlas.Proofs.Indexing.Libraries

/-! The history of a run as far as edges go: which links were committed between nodes that were
there, and which nodes went with their context. An edge is told by the links of its two ends since
one of them was last removed: the first one made it, and each later one changed what it supplied. -/
namespace CodeAtlas.Runs

open CodeAtlas.Graph
open CodeAtlas.Indexing
open CodeAtlas.Relations (Relationship infer resolveTarget writeRelationship)
open CodeAtlas.Source (Elements)

structure Link where
  now : Int
  ends : EdgeType × String × String
  context : String
  properties : Properties
  deriving DecidableEq, Repr

inductive Change where
  | linked (link : Link)
  /-- The nodes of these ids were removed. -/
  | removed (ids : List String)
  deriving DecidableEq, Repr

def Severs (ids : List String) (ends : EdgeType × String × String) : Prop :=
  ends.2.1 ∈ ids ∨ ends.2.2 ∈ ids

instance (ids : List String) (ends : EdgeType × String × String) : Decidable (Severs ids ends) :=
  inferInstanceAs (Decidable (_ ∨ _))

def Change.follow (ends : EdgeType × String × String) (story : List Link) : Change → List Link
  | linked link => if link.ends = ends then story ++ [link] else story
  | removed ids => if Severs ids ends then [] else story

def Change.Spares (ends : EdgeType × String × String) : Change → Prop
  | linked _ => True
  | removed ids => ¬ Severs ids ends

instance (ends : EdgeType × String × String) : (change : Change) → Decidable (change.Spares ends)
  | .linked _ => inferInstanceAs (Decidable True)
  | .removed ids => inferInstanceAs (Decidable (¬ Severs ids ends))

/-- The links between two nodes since one of them was last removed, in order. -/
def story (ends : EdgeType × String × String) (history : List Change) : List Link :=
  history.foldl (Change.follow ends) []

/-- The value that the last link to supply a property gave it. -/
def supplied (property : String) (links : List Link) : Option String :=
  (links.reverse.findSome? (·.properties.lookup property)).join

/-- The edge that some links between the same nodes lead to. -/
def edgeOf? : List Link → Option Edge
  | [] => none
  | first :: rest => some
    { type := first.ends.1
      source := first.ends.2.1
      target := first.ends.2.2
      context := first.context
      createdAt := first.now
      imports := supplied "imports" (first :: rest) }

variable {here : Conditions} {graph next after last : Graph} {history : List Change}
  {ends : EdgeType × String × String} {language context : String} {α β : Type}

theorem story_append (ends : EdgeType × String × String) (history more : List Change) :
    story ends (history ++ more) = more.foldl (Change.follow ends) (story ends history) :=
  List.foldl_append

/-- While neither end is removed a story only goes on. -/
theorem story_goes_on {more : List Change} (spared : ∀ change ∈ more, change.Spares ends) :
    ∃ links, story ends (history ++ more) = story ends history ++ links := by
  induction more using List.reverseRecOn with
  | nil => exact ⟨[], by simp⟩
  | append_singleton more change ih =>
    obtain ⟨links, told⟩ := ih fun earlier mem => spared earlier (List.mem_append_left _ mem)
    have last : change.Spares ends := spared change (by simp)
    rw [← List.append_assoc, story_append, told, List.foldl_cons, List.foldl_nil]
    cases change with
    | linked link =>
      rw [Change.follow]
      split_ifs
      · exact ⟨links ++ [link], List.append_assoc _ _ _⟩
      · exact ⟨links, rfl⟩
    | removed ids => exact ⟨links, by rw [Change.follow, if_neg last]⟩

theorem supplied_concat (property : String) (links : List Link) (link : Link) :
    supplied property (links ++ [link]) =
      (link.properties.lookup property).getD (supplied property links) := by
  rw [supplied, List.reverse_append, List.reverse_singleton, List.singleton_append,
    List.findSome?_cons]
  cases link.properties.lookup property <;> rfl

theorem edgeOf?_concat {links : List Link} {edge : Edge} (told : edgeOf? links = some edge)
    (link : Link) : edgeOf? (links ++ [link]) = some (edge.relinked link.properties) := by
  cases links with
  | nil => cases told
  | cons first rest =>
    obtain rfl := Option.some.inj told
    have last := supplied_concat "imports" (first :: rest) link
    rw [List.cons_append] at last ⊢
    rw [edgeOf?, last]
    rfl

/-! What single writes change. -/

def linkChanges (here : Conditions) (type : EdgeType) (source target : Endpoint) (context : String)
    (properties : Properties) (graph : Graph) : List Change :=
  if graph.hasNode source.label source.id && graph.hasNode target.label target.id then
    [.linked ⟨here.now, (type, source.id, target.id), context, properties⟩]
  else []

def afterwards (write : Write α) (changes : α → Graph → List Change) (graph : Graph) :
    List Change :=
  match write graph with
  | .ok (value, next) => changes value next
  | .error _ => []

def requestChanges (here : Conditions) (type : String) (source target : EndRequest)
    (context : String) (properties : List (String × Json)) (graph : Graph) : List Change :=
  match source.idIn here context, target.idIn here context, EdgeType.ofName type,
    Label.ofName? source.label, Label.ofName? target.label with
  | .ok sourceId, .ok targetId, .ok type, some sourceLabel, some targetLabel =>
    linkChanges here type ⟨sourceLabel, sourceId⟩ ⟨targetLabel, targetId⟩ context
      (properties.map fun (name, value) => (name, propertyText value)) graph
  | _, _, _, _, _ => []

def elementChanges (here : Conditions) (file : Identity) (planned : PlannedWrite) :
    Graph → List Change :=
  afterwards (upsert here planned.identity planned.attributes) fun _ =>
    linkChanges here planned.edge file.endpoint planned.identity.endpoint planned.identity.context
      planned.properties

def relationshipChanges (here : Conditions) (language context : String)
    (relationship : Relationship) : Graph → List Change :=
  afterwards (resolveTarget here relationship.targetLabel relationship.targetName language context)
    fun target => linkChanges here relationship.type
      (relationship.source language context).endpoint target.1 context []

def looseChanges (here : Conditions) (language context : String) (function : LooseFunction) :
    Graph → List Change :=
  let identity := Identity.named .function function.name language context
  let path := function.path.getD ""
  if path = "" then fun _ => []
  else
    let file := Identity.file path context
    afterwards (upsert here identity [("body", .text function.body)]) fun _ =>
      afterwards (upsert here file []) fun _ =>
        linkChanges here .contains file.endpoint identity.endpoint context []

def memberChanges (here : Conditions) (library : Identity) (member : Label × String) :
    Graph → List Change :=
  let identity : Identity := ⟨member.1, [member.2, library.key.headD ""], library.context⟩
  afterwards (upsert here identity []) fun _ =>
    linkChanges here .provides library.endpoint identity.endpoint library.context []

/-! What batches, operations and runs change. -/

def batchChanges (write : α → Write β) (changes : α → Graph → List Change) :
    List α → Graph → List Change
  | [], _ => []
  | item :: items, graph =>
    match write item graph with
    | .ok (_, next) => changes item graph ++ batchChanges write changes items next
    | .error _ => batchChanges write changes items graph

def extractChanges (here : Conditions) (elements : Elements) (language context : String) :
    Graph → List Change :=
  batchChanges (writeRelationship here language context)
    (relationshipChanges here language context) (infer elements)

def fileChanges (here : Conditions) (elements : Elements) (path language context : String) :
    Graph → List Change :=
  let file := Identity.file path context
  afterwards (upsert here file []) fun _ begun =>
    let written := tryPlan here elements path language context begun
    batchChanges (writeElement here file) (elementChanges here file)
        (plan elements language context) begun
      ++ extractChanges here (spared written.1 elements) language context written.2

def functionChanges (here : Conditions) (functions : List LooseFunction) (language context : String)
    (graph : Graph) : List Change :=
  let written := tryAll (writeFunction here language context) functions graph
  batchChanges (writeFunction here language context) (looseChanges here language context) functions
      graph
    ++ extractChanges here
      (looseElements (writtenFunctions (looseReportOf context written.1) functions)) language
      context written.2

def libraryChanges (here : Conditions) (api : Library.Api) (context projectPath : String) :
    Graph → List Change :=
  let library : Identity := ⟨.library, [api.name], context⟩
  afterwards (writeLibrary here api context projectPath) fun _ =>
    batchChanges (fun member => writeMember here library member.1 member.2)
      (memberChanges here library) (members api)

def nameChanges (here : Conditions) (context projectPath : String) :
    List Library.Name → Graph → List Change
  | [], _ => []
  | name :: names, graph =>
    match Library.find? name with
    | none => nameChanges here context projectPath names graph
    | some api => libraryChanges here api context projectPath graph ++
      match indexLibrary here api context projectPath graph with
      | (.ok _, next) => nameChanges here context projectPath names next
      | (.error _, _) => []

def Operation.changes (here : Conditions) (graph : Graph) : Operation → List Change
  | link type source target context properties =>
    match linkRequest here type source target context properties graph with
    | .ok _ => requestChanges here type source target context properties graph
    | .error _ => []
  | indexLibrary api context projectPath => libraryChanges here api context projectPath graph
  | extract elements language context => extractChanges here elements language context graph
  | indexFile file project branch =>
    match file.elements, contextKey project branch with
    | .ok elements, .ok context =>
      fileChanges here elements file.path file.elementLanguage context graph
    | _, _ => []
  | indexElements elements path language project branch =>
    match contextKey project branch with
    | .ok context => fileChanges here elements path language context graph
    | .error _ => []
  | indexFunctions functions language project branch =>
    match contextKey project branch with
    | .ok context => functionChanges here functions language context graph
    | .error _ => []
  | indexDependencies manifest projectPath project branch =>
    match contextKey project branch with
    | .ok context =>
      nameChanges here context projectPath (Library.dependencyNames here.stack manifest) graph
    | .error _ => []
  | administer .create _ _ => []
  | administer action project branch =>
    match Contexts.required action project branch with
    | .ok context => [.removed ((graph.nodesOf context).map (·.id))]
    | .error _ => []
  | _ => []

def changesFrom : Graph → List Step → List Change
  | _, [] => []
  | graph, step :: steps =>
    step.operation.changes step.here graph ++ changesFrom (step.after graph) steps

def changes (steps : List Step) : List Change := changesFrom .empty steps

theorem changesFrom_append (steps more : List Step) (graph : Graph) :
    changesFrom graph (steps ++ more) = changesFrom graph steps ++
      changesFrom (steps.foldl (fun graph step => step.after graph) graph) more := by
  induction steps generalizing graph with
  | nil => rfl
  | cons step steps ih =>
    rw [List.cons_append, changesFrom, ih, changesFrom, List.append_assoc, List.foldl_cons]

end CodeAtlas.Runs
