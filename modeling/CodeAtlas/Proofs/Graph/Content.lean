import CodeAtlas.Proofs.Graph.Effects
import CodeAtlas.Proofs.WellFormed
import Mathlib.Logic.Function.Basic

/-! What a graph holds apart from its times and the order of its nodes and edges: at most one node
at each end point and at most one edge between two. A successful write is an entry at one place, and
two entries commute when they are made at different places or say the same about what is there. -/
namespace CodeAtlas.Graph

def Node.timeless (node : Node) : Node := { node with createdAt := 0, updatedAt := 0 }

def Edge.timeless (edge : Edge) : Edge := { edge with createdAt := 0 }

/-- The same nodes and the same edges, up to their times and their order. -/
def SameContent (graph other : Graph) : Prop :=
  (graph.nodes.map Node.timeless).Perm (other.nodes.map Node.timeless) ∧
    (graph.edges.map Edge.timeless).Perm (other.edges.map Edge.timeless)

instance (graph other : Graph) : Decidable (SameContent graph other) :=
  inferInstanceAs (Decidable (_ ∧ _))

@[ext] structure Content where
  node : Endpoint → Option Node
  edge : EdgeType × String × String → Option Edge

def content (graph : Graph) : Content where
  node place := (graph.node? place.label place.id).map Node.timeless
  edge ends := (graph.edge? ends.1 ends.2.1 ends.2.2).map Edge.timeless

/-- What a successful write says about one place. -/
inductive Entry where
  | write (identity : Identity) (given : Attributes)
  | refer (identity : Identity)
  | link (type : EdgeType) (source target : Identity) (context : String) (properties : Properties)

def written (identity : Identity) (given : Attributes) : Option Node → Node
  | none => .created identity given 0
  | some node => node.overwritten given 0

def referred (identity : Identity) : Option Node → Node
  | none => .stub identity 0
  | some node => node

def linked (type : EdgeType) (source target context : String) (properties : Properties) :
    Option Edge → Edge
  | none => .fresh { now := 0 } type source target context properties
  | some edge => edge.relinked properties

namespace Content

def changeNode (content : Content) (place : Endpoint) (change : Option Node → Node) : Content :=
  { content with node := Function.update content.node place (change (content.node place)) }

def changeEdge (content : Content) (ends : EdgeType × String × String)
    (change : Option Edge → Edge) : Content :=
  { content with edge := Function.update content.edge ends (change (content.edge ends)) }

def enter (content : Content) : Entry → Content
  | .write identity given => content.changeNode identity.endpoint (written identity given)
  | .refer identity => content.changeNode identity.endpoint (referred identity)
  | .link type source target context properties =>
    content.changeEdge (type, source.id, target.id)
      (linked type source.id target.id context properties)

theorem changeNode_comm {place place' : Endpoint} {change change' : Option Node → Node}
    (agree : place = place' → ∀ held, change' (change held) = change (change' held))
    (content : Content) :
    (content.changeNode place change).changeNode place' change' =
      (content.changeNode place' change').changeNode place change := by
  by_cases same : place = place'
  · subst same
    simp [changeNode, agree rfl]
  · simp only [changeNode, Function.update_of_ne same, Function.update_of_ne (Ne.symm same)]
    rw [Function.update_comm same]

theorem changeEdge_comm {ends ends' : EdgeType × String × String}
    {change change' : Option Edge → Edge} (apart : ends ≠ ends') (content : Content) :
    (content.changeEdge ends change).changeEdge ends' change' =
      (content.changeEdge ends' change').changeEdge ends change := by
  simp only [changeEdge, Function.update_of_ne apart, Function.update_of_ne (Ne.symm apart)]
  rw [Function.update_comm apart]

end Content

/-- The order of two entries does not show in the content. -/
def Entry.Commutes (first second : Entry) : Prop :=
  ∀ content : Content, (content.enter first).enter second = (content.enter second).enter first

variable {identity other : Identity} {given given' : Attributes}

theorem Entry.Commutes.symm {first second : Entry} (h : first.Commutes second) :
    second.Commutes first := fun content => (h content).symm

/-- Writes of two elements commute when they are apart or nothing is given for either. -/
theorem write_write_comm (same : identity.endpoint = other.endpoint →
    identity = other ∧ given = [] ∧ given' = []) :
    (Entry.write identity given).Commutes (.write other given') :=
  Content.changeNode_comm fun place held => by
    obtain ⟨rfl, rfl, rfl⟩ := same place
    rfl

/-- Everything that a write may give for a label is given. -/
def Covers (given : Attributes) (label : Label) : Prop :=
  ∀ column ∈ label.attributeColumns, (given.lookup column).isSome

theorem overwritten_stub (covers : Covers given identity.label) :
    (Node.stub identity 0).overwritten given 0 = Node.created identity given 0 := by
  simp only [Node.overwritten, Node.stub, Node.created]
  congr 1
  refine List.ext_getElem (by simp) fun index h h' => ?_
  have inside : index < identity.label.attributeColumns.length := by simpa using h'
  have known := covers identity.label.attributeColumns[index] (List.getElem_mem inside)
  obtain ⟨value, found⟩ := Option.isSome_iff_exists.mp known
  simp [found]

theorem write_refer_comm (same : identity.endpoint = other.endpoint →
    identity = other ∧ Covers given identity.label) :
    (Entry.write identity given).Commutes (.refer other) :=
  Content.changeNode_comm fun place held => by
    obtain ⟨rfl, covers⟩ := same place
    cases held with
    | none => exact (overwritten_stub covers).symm
    | some node => rfl

theorem refer_refer_comm (same : identity.endpoint = other.endpoint → identity = other) :
    (Entry.refer identity).Commutes (.refer other) :=
  Content.changeNode_comm fun place held => by rw [same place]

theorem link_link_comm {type type' : EdgeType} {source target source' target' : Identity}
    {context context' : String} {properties properties' : Properties}
    (apart : source.id ≠ source'.id) :
    (Entry.link type source target context properties).Commutes
      (.link type' source' target' context' properties') :=
  Content.changeEdge_comm fun same => apart (congrArg (·.2.1) same)

/-- Entries commute with later entries when each does. -/
theorem enter_all_comm {first second : List Entry}
    (comm : ∀ entry ∈ first, ∀ entry' ∈ second, entry.Commutes entry') (content : Content) :
    second.foldl Content.enter (first.foldl Content.enter content) =
      first.foldl Content.enter (second.foldl Content.enter content) := by
  -- one entry moves past a list of entries, and the first list goes entry by entry
  have past : ∀ (entry : Entry) (entries : List Entry) (content : Content),
      (∀ entry' ∈ entries, entry.Commutes entry') →
        entries.foldl Content.enter (content.enter entry) =
          (entries.foldl Content.enter content).enter entry := by
    intro entry entries
    induction entries with
    | nil => exact fun content _ => rfl
    | cons next entries ih =>
      intro content comm
      rw [List.foldl_cons, comm next List.mem_cons_self, ih _ fun entry' mem =>
        comm entry' (List.mem_cons_of_mem _ mem)]
      rfl
  induction first generalizing content with
  | nil => rfl
  | cons entry first ih =>
    rw [List.foldl_cons, ih fun other mem => comm other (List.mem_cons_of_mem _ mem),
      past entry second content (comm entry List.mem_cons_self)]
    rfl

/-! What the primitive writes enter. -/

variable {here : Conditions} {graph after : Graph} {created : Bool}

theorem content_upsert (h : upsert here identity given graph = .ok (created, after)) :
    after.content = graph.content.enter (.write identity given) := by
  refine Content.ext (funext fun place => ?_) (funext fun ends => ?_)
  · by_cases hit : place = identity.endpoint
    · subst hit
      change (after.node? identity.label identity.id).map Node.timeless = _
      simp only [upsert_self h, Content.enter, Content.changeNode, Function.update_self, content,
        Identity.endpoint]
      cases graph.node? identity.label identity.id with
      | none => rfl
      | some node => simp [written, Node.timeless, Node.overwritten]
    · have other : ¬ (place.label = identity.label ∧ place.id = identity.id) := by
        rintro ⟨labels, ids⟩
        exact hit (by cases place; simp_all [Identity.endpoint])
      simp only [content, upsert_other h other, Content.enter, Content.changeNode,
        Function.update_of_ne hit]
  · simp only [content, edge?, upsert_edges h, Content.enter, Content.changeNode]

theorem content_ensure (h : ensureNode here identity graph = .ok (created, after)) :
    after.content = graph.content.enter (.refer identity) := by
  refine Content.ext (funext fun place => ?_) (funext fun ends => ?_)
  · by_cases hit : place = identity.endpoint
    · subst hit
      simp only [content, ensure_lookup h, Content.enter, Content.changeNode, Function.update_self,
        Identity.endpoint]
      cases graph.node? identity.label identity.id with
      | none => simp [referred, Node.timeless, Node.stub]
      | some node => rfl
    · have other : ¬ (identity.label = place.label ∧ identity.id = place.id) := by
        rintro ⟨labels, ids⟩
        exact hit (by cases place; simp_all [Identity.endpoint])
      simp only [content, ensure_lookup h, if_neg other, Option.or_none, Content.enter,
        Content.changeNode, Function.update_of_ne hit]
  · simp only [content, edge?, ensure_edges h, Content.enter, Content.changeNode]

theorem content_known {node : Node}
    (found : graph.node? identity.label identity.id = some node) :
    graph.content.enter (.refer identity) = graph.content := by
  refine Content.ext (funext fun place => ?_) rfl
  simp only [Content.enter, Content.changeNode, content, Identity.endpoint, found, Option.map_some,
    referred]
  by_cases hit : place = ⟨identity.label, identity.id⟩
  · subst hit
    simp [found]
  · rw [Function.update_of_ne hit]

theorem content_joined {type : EdgeType} {source target : Identity} {context : String}
    {properties : Properties} (begins : graph.hasNode source.label source.id = true)
    (ends : graph.hasNode target.label target.id = true) :
    (joined here graph type source.endpoint target.endpoint context properties).content =
      graph.content.enter (.link type source target context properties) := by
  have nodes : (joined here graph type source.endpoint target.endpoint context properties).nodes =
      graph.nodes := nodes_joined _ _ _ _ _
  refine Content.ext (funext fun place => ?_) (funext fun ends => ?_)
  · simp only [content, node?, nodes, Content.enter, Content.changeEdge]
  · obtain ⟨type', source', target'⟩ := ends
    simp only [joined, Identity.endpoint, begins, ends, Bool.and_true, if_true, content,
      Content.enter, Content.changeEdge]
    by_cases hit : (type', source', target') = (type, source.id, target.id)
    · obtain ⟨rfl, rfl, rfl⟩ : type' = type ∧ source' = source.id ∧ target' = target.id := by
        simpa using hit
      rw [Function.update_self]
      cases found : graph.edge? type' source.id target.id with
      | none =>
        rw [edge?_addEdge, found]
        simp [linked, Edge.fresh, Edge.ends, Edge.timeless]
      | some edge =>
        obtain ⟨-, ends⟩ := edge?_eq_some found
        dsimp only
        have same : (type', source.id, target.id) = (edge.relinked properties).ends := ends.symm
        rw [edge?_setEdge, if_pos same, found]
        rfl
    · rw [Function.update_of_ne hit]
      cases found : graph.edge? type source.id target.id with
      | none =>
        rw [edge?_addEdge, if_neg, Option.or_none]
        exact fun same => hit same.symm
      | some edge =>
        obtain ⟨-, ends⟩ := edge?_eq_some found
        dsimp only
        have apart : (type', source', target') ≠ (edge.relinked properties).ends :=
          fun same => hit (same.trans ends)
        rw [edge?_setEdge, if_neg apart]

/-! Equal contents are the same nodes and edges. -/

theorem WellFormed.node?_eq (h : WellFormed graph) {node : Node} (mem : node ∈ graph.nodes) :
    graph.node? node.label node.id = some node := by
  cases found : graph.node? node.label node.id with
  | none => exact absurd rfl (node?_eq_none.mp found node mem rfl)
  | some other =>
    obtain ⟨known, -, id⟩ := node?_eq_some found
    rw [h.eq_of_id known mem id]

theorem WellFormed.edge?_eq (h : WellFormed graph) {edge : Edge} (mem : edge ∈ graph.edges) :
    graph.edge? edge.type edge.source edge.target = some edge := by
  cases found : graph.edge? edge.type edge.source edge.target with
  | none => exact absurd rfl (edge?_eq_none.mp found edge mem)
  | some other =>
    obtain ⟨known, ends⟩ := edge?_eq_some found
    rw [List.inj_on_of_nodup_map h.distinct_edges known mem ends]

theorem nodes_of_content {other : Graph} (h : WellFormed graph)
    (same : graph.content = other.content) :
    graph.nodes.map Node.timeless ⊆ other.nodes.map Node.timeless := by
  intro node mem
  obtain ⟨node, known, rfl⟩ := List.mem_map.mp mem
  have held : other.content.node ⟨node.label, node.id⟩ = some node.timeless := by
    rw [← same]
    simp [content, h.node?_eq known]
  obtain ⟨there, found, eq⟩ := Option.map_eq_some_iff.mp held
  exact eq ▸ List.mem_map_of_mem (node?_eq_some found).1

theorem edges_of_content {other : Graph} (h : WellFormed graph)
    (same : graph.content = other.content) :
    graph.edges.map Edge.timeless ⊆ other.edges.map Edge.timeless := by
  intro edge mem
  obtain ⟨edge, known, rfl⟩ := List.mem_map.mp mem
  have held : other.content.edge edge.ends = some edge.timeless := by
    rw [← same]
    simp [content, Edge.ends, h.edge?_eq known]
  obtain ⟨there, found, eq⟩ := Option.map_eq_some_iff.mp held
  exact eq ▸ List.mem_map_of_mem (edge?_eq_some found).1

theorem same_content {other : Graph} (h : WellFormed graph) (h' : WellFormed other)
    (same : graph.content = other.content) : SameContent graph other := by
  have nodes : ∀ graph : Graph, WellFormed graph → (graph.nodes.map Node.timeless).Nodup := by
    intro graph h
    refine List.Nodup.of_map Node.id ?_
    rw [List.map_map]
    exact h.distinct_ids
  have edges : ∀ graph : Graph, WellFormed graph → (graph.edges.map Edge.timeless).Nodup := by
    intro graph h
    refine List.Nodup.of_map Edge.ends ?_
    rw [List.map_map]
    exact h.distinct_edges
  constructor
  · exact (List.perm_ext_iff_of_nodup (nodes graph h) (nodes other h')).mpr fun node =>
      ⟨fun mem => nodes_of_content h same mem, fun mem => nodes_of_content h' same.symm mem⟩
  · exact (List.perm_ext_iff_of_nodup (edges graph h) (edges other h')).mpr fun edge =>
      ⟨fun mem => edges_of_content h same mem, fun mem => edges_of_content h' same.symm mem⟩

end CodeAtlas.Graph
