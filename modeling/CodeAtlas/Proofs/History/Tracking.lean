import CodeAtlas.Proofs.Graph.Effects
import CodeAtlas.Proofs.History.Events
import CodeAtlas.Proofs.Isolation.Writes

/-! The graph keeps track of the history: which files are known, what they hold and with which body.
Each primitive write either brings about one event or is quiet about all of this. -/
namespace CodeAtlas.Runs

open CodeAtlas.Graph

def Holds (graph : Graph) (path : String) (identity : Identity) : Prop :=
  (EdgeType.contains, (Identity.file path identity.context).id, identity.id) ∈
    graph.edges.map Edge.ends

structure Tracks (known : List Identity) (history : List Event) (graph : Graph) : Prop where
  confined : Confined known graph
  occurs : ∀ path identity, .held path identity ∈ history → identity ∈ known
  files : ∀ path context, Identity.file path context ∈ known →
    (graph.hasNode .file (Identity.file path context).id = true ↔
      .file path context ∈ recent context history)
  held : ∀ identity ∈ known, identity.label ∈ compared →
    ∀ path, Identity.file path identity.context ∈ known →
      (Holds graph path identity ↔ .held path identity ∈ recent identity.context history)
  bodies : ∀ identity ∈ known, identity.label ∈ compared →
    ∀ body, lastBody? history identity = some body →
      ∃ node, graph.node? identity.label identity.id = some node ∧ node.body? = some body
  written : ∀ path identity, .held path identity ∈ recent identity.context history →
    ∃ body, lastBody? history identity = some body

/-- A change that no event tells of. -/
structure Quiet (known : List Identity) (before after : Graph) : Prop where
  files : ∀ path context, Identity.file path context ∈ known →
    after.hasNode .file (Identity.file path context).id =
      before.hasNode .file (Identity.file path context).id
  held : ∀ identity ∈ known, identity.label ∈ compared →
    ∀ path, Holds after path identity ↔ Holds before path identity
  bodies : ∀ identity ∈ known, identity.label ∈ compared →
    ∀ node, before.node? identity.label identity.id = some node →
      after.node? identity.label identity.id = some node

variable {here : Conditions} {known : List Identity} {history : List Event} {graph after : Graph}
  {identity : Identity} {given : Attributes} {path context : String}

theorem empty_tracks (known : List Identity) : Tracks known [] .empty where
  confined := empty_confined known
  occurs := by simp
  files := by simp [hasNode, node?, empty]
  held := by simp [Holds, empty]
  bodies := by simp [lastBody?]
  written := by simp

theorem Quiet.refl (known : List Identity) (graph : Graph) : Quiet known graph graph :=
  ⟨fun _ _ _ => rfl, fun _ _ _ _ => Iff.rfl, fun _ _ _ _ found => found⟩

theorem Quiet.trans {first second third : Graph} (h : Quiet known first second)
    (rest : Quiet known second third) : Quiet known first third where
  files path context mem := (rest.files path context mem).trans (h.files path context mem)
  held identity mem label path := (rest.held identity mem label path).trans
    (h.held identity mem label path)
  bodies identity mem label node found := rest.bodies identity mem label node
    (h.bodies identity mem label node found)

theorem Tracks.quiet (h : Tracks known history graph) (confined : Confined known after)
    (quiet : Quiet known graph after) : Tracks known history after where
  confined := confined
  occurs := h.occurs
  files path context mem := by
    rw [quiet.files path context mem]
    exact h.files path context mem
  held identity mem label path file :=
    (quiet.held identity mem label path).trans (h.held identity mem label path file)
  bodies identity mem label body last := by
    obtain ⟨node, found, is⟩ := h.bodies identity mem label body last
    exact ⟨node, quiet.bodies identity mem label node found, is⟩
  written := h.written

/-! Quiet writes. -/

theorem upsert_elsewhere (free : CollisionFree known) (mem : identity ∈ known) {created : Bool}
    (done : upsert here identity given graph = .ok (created, after)) {other : Identity}
    (mem' : other ∈ known) (ne : other ≠ identity) :
    after.node? other.label other.id = graph.node? other.label other.id :=
  upsert_other done fun same => ne (free.eq_of_id mem' mem same.2)

theorem quiet_upsert (free : CollisionFree known) (mem : identity ∈ known)
    (label : identity.label ∉ .file :: compared) {created : Bool}
    (h : upsert here identity given graph = .ok (created, after)) : Quiet known graph after where
  files path context mem' := by
    have ne : Identity.file path context ≠ identity := by
      rintro rfl
      simp [Identity.file] at label
    exact congrArg Option.isSome (upsert_elsewhere free mem h mem' ne)
  held other _ _ path := by rw [Holds, Holds, upsert_edges h]
  bodies other mem' label' node found := by
    have ne : other ≠ identity := by
      rintro rfl
      exact label (List.mem_cons_of_mem _ label')
    rw [upsert_elsewhere free mem h mem' ne]
    exact found

theorem quiet_ensure (label : identity.label ≠ .file) {created : Bool}
    (h : ensureNode here identity graph = .ok (created, after)) : Quiet known graph after where
  files path context _ := by
    simp [hasNode, ensure_lookup h, label]
  held other _ _ path := by rw [Holds, Holds, ensure_edges h]
  bodies other _ _ node found := by rw [ensure_lookup h, found, Option.some_or]

theorem quiet_link {source target : Endpoint} {type : EdgeType}
    (apart : type = .contains → ∀ other ∈ known, other.label ∈ compared → other.id ≠ target.id)
    {properties : Properties} {value : Unit}
    (h : link here type source target context properties graph = .ok (value, after)) :
    Quiet known graph after := by
  obtain ⟨-, -, -, rfl⟩ := link_cases h
  have nodes : (joined here graph type source target context properties).nodes = graph.nodes :=
    nodes_joined type source target context properties
  constructor
  · intro path context _
    rw [hasNode, node?, nodes]
    rfl
  · intro other mem' label path
    rw [Holds, mem_ends_joined]
    refine ⟨fun h => h.elim id fun added => ?_, .inl⟩
    obtain ⟨_, _, ends⟩ := added
    simp only [Prod.mk.injEq] at ends
    exact absurd ends.2.2 (apart ends.1.symm other mem' label)
  · intro other _ _ node found
    rw [node?, nodes]
    exact found

/-! Writes that bring about an event. -/

theorem tracks_file (free : CollisionFree known) (h : Tracks known history graph)
    (mem : Identity.file path context ∈ known) {created : Bool}
    (done : upsert here (.file path context) given graph = .ok (created, after)) :
    Tracks known (history ++ [.file path context]) after := by
  have placed : PlacedIn known context (.file path context) := ⟨mem, rfl⟩
  constructor
  · exact ((isolated_upsert placed free rfl given).keeps h.confined done).2.1
  · simpa using h.occurs
  · intro path' context' mem'
    rw [mem_recent_concat Event.noConfusion]
    by_cases same : Identity.file path' context' = .file path context
    · obtain ⟨rfl, rfl⟩ : path' = path ∧ context' = context := by
        simpa [Identity.file] using same
      exact iff_of_true (upsert_present done) (.inl rfl)
    · have missed : ¬ (Event.file path' context' = .file path context) := by
        rintro ⟨⟩
        exact same rfl
      rw [hasNode, show Label.file = (Identity.file path' context').label from rfl,
        upsert_elsewhere free mem done mem' same, or_iff_right missed]
      exact h.files path' context' mem'
  · intro other mem' label path' file
    rw [mem_recent_concat_of_ne Event.noConfusion Event.noConfusion, Holds, upsert_edges done]
    exact h.held other mem' label path' file
  · intro other mem' label body last
    rw [lastBody?_concat_of_none Event.noConfusion rfl] at last
    have ne : other ≠ .file path context := by
      rintro rfl
      simp [compared, Identity.file] at label
    rw [upsert_elsewhere free mem done mem' ne]
    exact h.bodies other mem' label body last
  · intro path' other inside
    rw [mem_recent_concat_of_ne Event.noConfusion Event.noConfusion] at inside
    rw [lastBody?_concat_of_none Event.noConfusion rfl]
    exact h.written path' other inside

theorem body_of_attributes {node : Node} {body : String} (label : node.label ∈ compared)
    (attributes : node.attributes = [some (.text body)]) : node.body? = some body := by
  simp only [compared, List.mem_cons, List.not_mem_nil, or_false] at label
  rcases label with label | label <;>
    simp [Node.body?, Node.attribute?, label, attributes, Label.attributeColumns, Cell.text?]

theorem compared_attributes {label : Label} (h : label ∈ compared) :
    label.attributeColumns = ["body"] := by
  simp only [compared, List.mem_cons, List.not_mem_nil, or_false] at h
  rcases h with rfl | rfl <;> rfl

theorem body_overwritten {node : Node} (label : node.label ∈ compared)
    (filled : node.attributes.length = node.label.attributeColumns.length) (body : String)
    (now : Int) : (node.overwritten [("body", .text body)] now).body? = some body := by
  rw [compared_attributes label] at filled
  obtain ⟨old, attributes⟩ := List.length_eq_one_iff.mp filled
  refine body_of_attributes label ?_
  simp [Node.overwritten, compared_attributes label, attributes]

theorem body_written {created : Bool} {body : String} (wf : WellFormed graph)
    (label : identity.label ∈ compared)
    (done : upsert here identity [("body", .text body)] graph = .ok (created, after)) :
    ∃ node, after.node? identity.label identity.id = some node ∧ node.body? = some body := by
  refine ⟨_, upsert_self done, ?_⟩
  cases found : graph.node? identity.label identity.id with
  | none =>
    refine body_of_attributes label ?_
    simp [Node.created, compared_attributes label]
  | some node =>
    obtain ⟨mem, labels, -⟩ := node?_eq_some found
    exact body_overwritten (labels ▸ label) (wf.filled node mem) body here.now

theorem tracks_element (free : CollisionFree known) (h : Tracks known history graph)
    (mem : identity ∈ known) (proper : identity.Proper) (label : identity.label ∈ compared)
    {body : String} {created : Bool}
    (done : upsert here identity [("body", .text body)] graph = .ok (created, after)) :
    Tracks known (history ++ [.element identity body]) after := by
  constructor
  · exact ((isolated_upsert ⟨mem, rfl⟩ free proper _).keeps h.confined done).2.1
  · simpa using h.occurs
  · intro path context mem'
    rw [mem_recent_concat_of_ne Event.noConfusion Event.noConfusion]
    have ne : Identity.file path context ≠ identity := by
      rintro rfl
      simp [compared, Identity.file] at label
    rw [hasNode, show Label.file = (Identity.file path context).label from rfl,
      upsert_elsewhere free mem done mem' ne]
    exact h.files path context mem'
  · intro other mem' label path file
    rw [mem_recent_concat_of_ne Event.noConfusion Event.noConfusion, Holds, upsert_edges done]
    exact h.held other mem' label path file
  · intro other mem' label' body' last
    rw [lastBody?_concat, if_neg Event.noConfusion] at last
    by_cases same : identity = other
    · obtain rfl := same
      obtain rfl : body = body' := by simpa [Event.bodyOf?] using last
      exact body_written h.confined.wellFormed label done
    · rw [upsert_elsewhere free mem done mem' (Ne.symm same)]
      exact h.bodies other mem' label' body' (by simpa [Event.bodyOf?, same] using last)
  · intro path other inside
    rw [mem_recent_concat_of_ne Event.noConfusion Event.noConfusion] at inside
    rw [lastBody?_concat, if_neg Event.noConfusion]
    by_cases same : identity = other
    · exact ⟨body, by simp [Event.bodyOf?, same]⟩
    · obtain ⟨body', last⟩ := h.written path other inside
      exact ⟨body', by simp [Event.bodyOf?, same, last]⟩

theorem tracks_held (free : CollisionFree known) (h : Tracks known history graph)
    (mem : identity ∈ known) (label : identity.label ∈ compared)
    (inside : identity.context = context) (file : Identity.file path context ∈ known)
    (filed : .file path context ∈ recent context history) {body : String}
    (last : lastBody? history identity = some body) {value : Unit}
    (done : link here .contains (Identity.file path context).endpoint identity.endpoint context []
      graph = .ok (value, after)) :
    Tracks known (history ++ [.held path identity]) after := by
  subst inside
  have confined :=
    ((isolated_link ⟨file, rfl⟩ ⟨mem, rfl⟩ free .contains []).keeps h.confined done).2.1
  obtain ⟨-, -, -, rfl⟩ := link_cases done
  have nodes : (joined here graph .contains (Identity.file path identity.context).endpoint
      identity.endpoint identity.context []).nodes = graph.nodes := nodes_joined _ _ _ _ _
  have begins := (h.files path identity.context file).mpr filed
  have ends : graph.hasNode identity.label identity.id = true := by
    obtain ⟨node, found, -⟩ := h.bodies identity mem label body last
    rw [hasNode, found]
    rfl
  constructor
  · exact confined
  · intro path' other mem'
    rcases List.mem_append.mp mem' with mem' | mem'
    · exact h.occurs path' other mem'
    · obtain ⟨-, rfl⟩ := Event.held.inj (List.mem_singleton.mp mem')
      exact mem
  · intro path' context' mem'
    rw [mem_recent_concat_of_ne Event.noConfusion Event.noConfusion, hasNode, node?, nodes]
    exact h.files path' context' mem'
  · intro other mem' label' path' file'
    rw [mem_recent_concat Event.noConfusion, Holds, mem_ends_joined,
      ← h.held other mem' label' path' file', Holds, or_comm]
    refine or_congr_left ⟨?_, ?_⟩
    · rintro ⟨-, -, same⟩
      simp only [Prod.mk.injEq, true_and] at same
      obtain rfl := free.eq_of_id mem' mem same.2
      obtain ⟨rfl, -⟩ : path' = path ∧ other.context = other.context := by
        simpa [Identity.file] using free.eq_of_id file' file same.1
      rfl
    · rintro ⟨⟩
      exact ⟨begins, ends, rfl⟩
  · intro other mem' label' body' last'
    rw [lastBody?_concat_of_none Event.noConfusion rfl] at last'
    rw [node?, nodes]
    exact h.bodies other mem' label' body' last'
  · intro path' other inside
    rw [lastBody?_concat_of_none Event.noConfusion rfl]
    rw [mem_recent_concat Event.noConfusion] at inside
    rcases inside with same | inside
    · obtain ⟨-, rfl⟩ := Event.held.inj same
      exact ⟨body, last⟩
    · exact h.written path' other inside

theorem holds_inside (free : CollisionFree known) (confined : Confined known graph)
    (file : Identity.file path identity.context ∈ known) : Holds graph path identity ↔
      ∃ edge ∈ graph.edgesWith .contains identity.context,
        edge.ends = (.contains, (Identity.file path identity.context).id, identity.id) := by
  have placed : PlacedIn known identity.context (.file path identity.context) := ⟨file, rfl⟩
  rw [Holds, List.mem_map]
  constructor
  · rintro ⟨edge, mem, ends⟩
    have inside := placed.edge_inside free confined edge mem (congrArg (·.2.1) ends)
    exact ⟨edge, mem_edgesWith.mpr ⟨mem, congrArg (·.1) ends, inside⟩, ends⟩
  · rintro ⟨edge, mem, ends⟩
    exact ⟨edge, (mem_edgesWith.mp mem).1, ends⟩

theorem node?_without (free : CollisionFree known) (confined : Confined known graph)
    (mem : identity ∈ known) :
    (graph.without identity.context).node? identity.label identity.id = none := by
  rw [node?_eq_none]
  intro node inside _ id
  obtain ⟨inside, apart⟩ := mem_nodes_without.mp inside
  exact apart (confined.context_of_id free inside mem id)

theorem tracks_emptied (free : CollisionFree known) (h : Tracks known history graph)
    (context : String) :
    Tracks known (history ++ [.emptied context]) (graph.without context) := by
  have confined := h.confined.without context
  have spares : Spares context graph (graph.without context) := spares_without h.confined
  have others : ∀ other ∈ known, other.context ≠ context →
      (graph.without context).node? other.label other.id = graph.node? other.label other.id := by
    intro other mem apart
    have placed : PlacedIn known other.context other := ⟨mem, rfl⟩
    exact (placed.node? free h.confined confined (spares.agreeOn apart) other.label).symm
  constructor
  · exact confined
  · simpa using h.occurs
  · intro path elsewhere mem
    by_cases here : elsewhere = context
    · subst here
      have gone : (graph.without elsewhere).node? .file (Identity.file path elsewhere).id = none :=
        node?_without free h.confined mem
      rw [recent_concat, if_pos rfl, hasNode, gone]
      simp
    · rw [mem_recent_concat_of_ne (emptied_ne here) Event.noConfusion, hasNode,
        show Label.file = (Identity.file path elsewhere).label from rfl, others _ mem here]
      exact h.files path elsewhere mem
  · intro other mem label path file
    by_cases here : other.context = context
    · subst here
      rw [recent_concat, if_pos rfl]
      refine iff_of_false (fun holds => ?_) List.not_mem_nil
      obtain ⟨edge, inside, -⟩ := (holds_inside free confined file).mp holds
      rw [edgesWith_without h.confined] at inside
      cases inside
    · rw [mem_recent_concat_of_ne (emptied_ne here) Event.noConfusion,
        ← h.held other mem label path file, holds_inside free confined file,
        holds_inside free h.confined file, (spares.agreeOn here).edges]
  · intro other mem label body last
    rw [lastBody?_concat] at last
    split_ifs at last with gone
    have here : other.context ≠ context := fun same => gone (by rw [same])
    rw [others other mem here]
    exact h.bodies other mem label body last
  · intro path other inside
    have here : other.context ≠ context := by
      rintro rfl
      rw [recent_concat, if_pos rfl] at inside
      cases inside
    rw [lastBody?_concat_of_none (emptied_ne here) rfl]
    rw [mem_recent_concat_of_ne (emptied_ne here) Event.noConfusion] at inside
    exact h.written path other inside

end CodeAtlas.Runs
