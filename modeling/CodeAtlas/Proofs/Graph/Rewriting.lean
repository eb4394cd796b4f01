import CodeAtlas.Proofs.Graph.Content

/-! Writing over what is there. A write that gives all columns makes every earlier write of its node
irrelevant, and so does a link that supplies the properties of its edge. What a list of such writes
left is therefore not changed by writing the list again, the time of change apart. -/
namespace CodeAtlas.Graph

section Absorbing

variable {σ ω : Type} (hits : ω → σ → Prop) [∀ write held, Decidable (hits write held)]
  (act : ω → σ → σ)

/-- What is left after each of some writes went over it that hits it. -/
def overAll (writes : List ω) (held : σ) : σ :=
  writes.foldl (fun held write => if hits write held then act write held else held) held

variable {hits act} {writes : List ω} {write : ω} {held : σ}

theorem overAll_concat (writes : List ω) (write : ω) (held : σ) :
    overAll hits act (writes ++ [write]) held =
      if hits write (overAll hits act writes held) then
        act write (overAll hits act writes held)
      else overAll hits act writes held := by
  rw [overAll, List.foldl_append]
  rfl

theorem overAll_eq_self (same : ∀ write ∈ writes, hits write held → act write held = held) :
    overAll hits act writes held = held := by
  induction writes with
  | nil => rfl
  | cons write writes ih =>
    have first : (if hits write held then act write held else held) = held := by
      split_ifs with hit
      · exact same write List.mem_cons_self hit
      · rfl
    rw [overAll, List.foldl_cons, first]
    exact ih fun other mem => same other (List.mem_cons_of_mem _ mem)

theorem overAll_invariant {β : Type} {view : σ → β}
    (kept : ∀ write held, view (act write held) = view held) :
    view (overAll hits act writes held) = view held := by
  refine List.foldlRecOn writes _ (motive := fun last => view last = view held) rfl ?_
  intro last same write _
  split_ifs
  · exact (kept write last).trans same
  · exact same

theorem hits_overAll (stable : ∀ write other held, hits write (act other held) ↔ hits write held) :
    hits write (overAll hits act writes held) ↔ hits write held :=
  iff_of_eq (overAll_invariant fun other held => propext (stable write other held))

theorem overAll_filter
    (stable : ∀ write other held, hits write (act other held) ↔ hits write held)
    {keep : ω → Bool} (kept : ∀ write ∈ writes, hits write held → keep write = true) :
    overAll hits act (writes.filter keep) held = overAll hits act writes held := by
  induction writes generalizing held with
  | nil => rfl
  | cons write writes ih =>
    have rest : ∀ other ∈ writes, hits other (if hits write held then act write held else held) →
        keep other = true := by
      intro other mem hit
      refine kept other (List.mem_cons_of_mem _ mem) ?_
      split_ifs at hit
      · exact (stable other write held).mp hit
      · exact hit
    cases keeps : keep write with
    | true =>
      rw [List.filter_cons_of_pos keeps, overAll, overAll, List.foldl_cons, List.foldl_cons]
      exact ih rest
    | false =>
      have missed : ¬ hits write held := fun hit =>
        Bool.false_ne_true (keeps.symm.trans (kept write List.mem_cons_self hit))
      rw [if_neg missed] at rest
      rw [List.filter_cons_of_neg (by simp [keeps]), ih rest, overAll, overAll, List.foldl_cons,
        if_neg missed]

theorem overAll_last
    (stable : ∀ write other held, hits write (act other held) ↔ hits write held)
    {front rest : List ω} (hit : hits write held) (missed : ∀ later ∈ rest, ¬ hits later held) :
    overAll hits act (front ++ write :: rest) held = act write (overAll hits act front held) := by
  have parts : overAll hits act (front ++ write :: rest) held =
      overAll hits act rest (overAll hits act (front ++ [write]) held) := by
    rw [List.append_cons, overAll, List.foldl_append]
    rfl
  rw [parts, overAll_concat, if_pos ((hits_overAll stable).mpr hit)]
  refine overAll_eq_self fun later mem hit' => absurd ?_ (missed later mem)
  exact (hits_overAll stable).mp ((stable later write _).mp hit')

theorem act_overAll
    (stable : ∀ write other held, hits write (act other held) ↔ hits write held)
    (absorbs : ∀ other ∈ writes, ∀ held, hits write held → hits other held →
      act write (act other held) = act write held)
    (hit : hits write held) : act write (overAll hits act writes held) = act write held := by
  refine (List.foldlRecOn writes _ (motive := fun last => hits write last ∧
    act write last = act write held) ⟨hit, rfl⟩ ?_).2
  rintro last ⟨hit, same⟩ other mem
  split_ifs with hit'
  · exact ⟨(stable write other last).mpr hit, (absorbs other mem last hit hit').trans same⟩
  · exact ⟨hit, same⟩

/-- What a write left is settled for all writes up to it. -/
theorem overAll_settled
    (stable : ∀ write other held, hits write (act other held) ↔ hits write held)
    (absorbs : ∀ other ∈ writes, ∀ held, hits write held → hits other held →
      act write (act other held) = act write held)
    (hit : hits write held) (left : act write held = held) :
    overAll hits act (writes ++ [write]) held = held := by
  rw [overAll_concat, if_pos ((hits_overAll stable).mpr hit), act_overAll stable absorbs hit]
  exact left

theorem overAll_missed
    (stable : ∀ write other held, hits write (act other held) ↔ hits write held)
    (missed : ¬ hits write held) (settled : overAll hits act writes held = held) :
    overAll hits act (writes ++ [write]) held = held := by
  rw [overAll_concat, if_neg (mt (hits_overAll stable).mp missed)]
  exact settled

end Absorbing

/-! Nodes. -/

abbrev NodeWrite := Identity × Attributes

def NodeWrite.Hits (write : NodeWrite) (node : Node) : Prop :=
  node.label = write.1.label ∧ node.id = write.1.id

instance (write : NodeWrite) (node : Node) : Decidable (write.Hits node) :=
  inferInstanceAs (Decidable (_ ∧ _))

def Node.rewritten (writes : List NodeWrite) (now : Int) (node : Node) : Node :=
  overAll NodeWrite.Hits (fun write node => node.overwritten write.2 now) writes node

def Node.undated (node : Node) : Node := { node with updatedAt := 0 }

variable {here : Conditions} {graph after : Graph} {node : Node} {writes : List NodeWrite}
  {write : NodeWrite} {now since : Int}

theorem hits_stable (now : Int) (write other : NodeWrite) (node : Node) :
    write.Hits (node.overwritten other.2 now) ↔ write.Hits node := Iff.rfl

theorem overwritten_overwritten {given : Attributes} (given' : Attributes)
    (covers : Covers given node.label) (now : Int) :
    (node.overwritten given' now).overwritten given now = node.overwritten given now := by
  simp only [Node.overwritten, ← max_assoc, max_self]
  congr 1
  refine List.ext_getElem (by simp) fun index h h' => ?_
  have inside : index < node.label.attributeColumns.length := by
    simp only [List.length_map, List.length_zip] at h'
    omega
  have known := covers node.label.attributeColumns[index] (List.getElem_mem inside)
  obtain ⟨value, found⟩ := Option.isSome_iff_exists.mp known
  simp [found]

theorem overwritten_created (identity : Identity) (given : Attributes) (now : Int) :
    (Node.created identity given now).overwritten given now = .created identity given now := by
  simp only [Node.overwritten, Node.created, max_self]
  congr 1
  refine List.ext_getElem (by simp) fun index h h' => ?_
  have inside : index < identity.label.attributeColumns.length := by simpa using h'
  cases found : given.lookup identity.label.attributeColumns[index] <;> simp [found]

theorem undated_overwritten (node : Node) (given : Attributes) (now : Int) :
    (node.overwritten given now).undated = node.undated.overwritten given 0 := rfl

theorem undated_rewritten (writes : List NodeWrite) (now : Int) (node : Node) :
    (node.rewritten writes now).undated = node.undated.rewritten writes 0 := by
  induction writes generalizing node with
  | nil => rfl
  | cons write writes ih =>
    rw [Node.rewritten, Node.rewritten, overAll, overAll, List.foldl_cons, List.foldl_cons]
    refine (ih _).trans ?_
    by_cases hit : write.Hits node
    · have hit' : write.Hits node.undated := hit
      rw [if_pos hit, if_pos hit']
      rfl
    · have missed : ¬ write.Hits node.undated := hit
      rw [if_neg hit, if_neg missed]
      rfl

theorem rewritten_kept {β : Type} (view : Node → β)
    (kept : ∀ node given now, view (Node.overwritten node given now) = view node) :
    view (node.rewritten writes now) = view node :=
  overAll_invariant fun write held => kept held write.2 now

theorem rewritten_stub (marked : (node.rewritten writes now).isStub = true) :
    node.rewritten writes now = node := by
  induction writes using List.reverseRecOn with
  | nil => rfl
  | append_singleton writes write ih =>
    rw [Node.rewritten, overAll_concat] at marked ⊢
    split_ifs at marked ⊢
    · cases marked
    · exact ih marked

/-- The writes of a list leave a node as it is, but for its time of change; that is not before the
time of those that hit it. -/
structure Node.Settled (writes : List NodeWrite) (since : Int) (node : Node) : Prop where
  same : node.undated.rewritten writes 0 = node.undated
  changed : ∀ write ∈ writes, write.Hits node → since ≤ node.updatedAt

theorem eq_of_undated {other : Node} (same : node.undated = other.undated)
    (updatedAt : node.updatedAt = other.updatedAt) : node = other := by
  cases node
  cases other
  simp_all [Node.undated]

theorem Node.Settled.rewritten (h : node.Settled writes since) (now : Int) :
    (node.rewritten writes now).undated = node.undated ∧
      (now ≤ since → node.rewritten writes now = node) := by
  have same := (undated_rewritten writes now node).trans h.same
  refine ⟨same, fun early => ?_⟩
  by_cases hit : ∃ write ∈ writes, write.Hits node
  · obtain ⟨write, mem, hit⟩ := hit
    have changed : now ≤ node.updatedAt := early.trans (h.changed write mem hit)
    refine eq_of_undated same ?_
    refine (List.foldlRecOn writes _ (motive := fun last : Node => now ≤ last.updatedAt ∧
      last.updatedAt = node.updatedAt) ⟨changed, rfl⟩ ?_).2
    rintro last ⟨late, kept⟩ write -
    split_ifs
    · have stays : max now last.updatedAt = last.updatedAt := max_eq_right late
      exact ⟨late.trans_eq stays.symm, stays.trans kept⟩
    · exact ⟨late, kept⟩
  · exact overAll_eq_self fun write mem hit' => absurd ⟨write, mem, hit'⟩ hit

theorem Node.settled_missed (since : Int) (missed : ∀ write ∈ writes, ¬ write.Hits node) :
    node.Settled writes since where
  same := overAll_eq_self fun write mem hit => absurd hit (missed write mem)
  changed write mem hit := absurd hit (missed write mem)

theorem upsert_settles {identity : Identity} {given : Attributes} {created : Bool}
    (covers : Covers given identity.label)
    (settled : ∀ node ∈ graph.nodes, node.Settled writes here.now)
    (done : upsert here identity given graph = .ok (created, after)) :
    ∀ node ∈ after.nodes, node.Settled (writes ++ [(identity, given)]) here.now := by
  have left : ∀ node : Node, NodeWrite.Hits (identity, given) node →
      node.undated.overwritten given 0 = node.undated → here.now ≤ node.updatedAt →
        node.Settled (writes ++ [(identity, given)]) here.now := by
    intro node hit left changed
    refine ⟨overAll_settled (hits_stable 0) (fun other _ held hit' _ => ?_) hit left, ?_⟩
    · exact overwritten_overwritten other.2 (hit'.1 ▸ covers) 0
    · exact fun _ _ _ => changed
  have others : ∀ node ∈ graph.nodes, ¬ NodeWrite.Hits (identity, given) node →
      node.Settled (writes ++ [(identity, given)]) here.now := by
    intro node mem missed
    refine ⟨overAll_missed (hits_stable 0) missed (settled node mem).same, ?_⟩
    intro write mem' hit
    rcases List.mem_append.mp mem' with mem' | mem'
    · exact (settled node mem).changed write mem' hit
    · obtain rfl := List.mem_singleton.mp mem'
      exact absurd hit missed
  intro node mem
  rcases upsert_cases done with ⟨absent, -, -, rfl⟩ | ⟨old, found, -, -, rfl⟩
  · rcases List.mem_append.mp mem with mem | mem
    · exact others node mem fun hit => node?_eq_none.mp absent node mem hit.1 hit.2
    · obtain rfl := List.mem_singleton.mp mem
      refine left _ ⟨rfl, rfl⟩ ?_ (Int.le_refl _)
      rw [← undated_overwritten _ _ here.now, overwritten_created]
  · obtain ⟨-, labels, ids⟩ := node?_eq_some found
    rcases mem_setNode mem with rfl | ⟨mem, missed⟩
    · refine left _ ⟨labels, ids⟩ ?_ (le_max_left _ _)
      rw [← undated_overwritten _ _ here.now, overwritten_overwritten given (labels ▸ covers)]
    · exact others node mem missed

theorem upsert_known (wf : WellFormed graph) {identity : Identity} {given : Attributes}
    {created : Bool} (known : graph.hasNode identity.label identity.id = true)
    (done : upsert here identity given graph = .ok (created, after)) :
    after.nodes = graph.nodes.map fun node =>
      if NodeWrite.Hits (identity, given) node then node.overwritten given here.now else node := by
  rcases upsert_cases done with ⟨absent, -, -, -⟩ | ⟨old, found, -, -, rfl⟩
  · simp [hasNode, absent] at known
  · obtain ⟨mem, labels, ids⟩ := node?_eq_some found
    refine List.map_congr_left fun node mem' => ?_
    by_cases hit : NodeWrite.Hits (identity, given) node
    · obtain rfl := wf.eq_of_id mem' mem (hit.2.trans ids.symm)
      rw [if_pos hit, if_pos (by simpa using And.intro labels ids)]
    · have missed : ¬ (node.label = identity.label ∧ node.id = identity.id) := hit
      rw [if_neg hit, if_neg (by simpa using missed)]

/-! Edges. -/

abbrev EdgeWrite := (EdgeType × String × String) × Properties

def EdgeWrite.Hits (write : EdgeWrite) (edge : Edge) : Prop := edge.ends = write.1

instance (write : EdgeWrite) (edge : Edge) : Decidable (write.Hits edge) :=
  inferInstanceAs (Decidable (_ = _))

/-- Links of imports supply what is imported, and no other does. -/
def EdgeWrite.Full (write : EdgeWrite) : Prop :=
  write.2.lookup "imports" = none ↔ write.1.1 ≠ .imports

def Edge.relinkedAll (links : List EdgeWrite) (edge : Edge) : Edge :=
  overAll EdgeWrite.Hits (fun link edge => edge.relinked link.2) links edge

variable {links : List EdgeWrite} {link : EdgeWrite} {edge : Edge}

theorem links_stable (link other : EdgeWrite) (edge : Edge) :
    link.Hits (edge.relinked other.2) ↔ link.Hits edge := Iff.rfl

theorem relinked_relinked (full : link.Full) {other : EdgeWrite} (full' : other.Full)
    (hit : link.Hits edge) (hit' : other.Hits edge) :
    (edge.relinked other.2).relinked link.2 = edge.relinked link.2 := by
  have types : other.1.1 = link.1.1 := congrArg Prod.fst (hit'.symm.trans hit)
  simp only [Edge.relinked]
  congr 1
  cases supplied : link.2.lookup "imports" with
  | some value => rfl
  | none =>
    have nothing : other.2.lookup "imports" = none := full'.mpr (types ▸ full.mp supplied)
    rw [nothing]
    rfl

theorem relinkedAll_plain (full : ∀ link ∈ links, link.Full) (plain : edge.type ≠ .imports) :
    edge.relinkedAll links = edge := by
  refine overAll_eq_self fun link mem hit => ?_
  have type : link.1.1 = edge.type := (congrArg Prod.fst hit).symm
  have nothing : link.2.lookup "imports" = none := (full link mem).mpr (type ▸ plain)
  simp only [Edge.relinked, nothing]
  rfl

theorem joined_settles {type : EdgeType} {source target : Endpoint} {context : String}
    {properties : Properties} (full : EdgeWrite.Full ((type, source.id, target.id), properties))
    (all : ∀ link ∈ links, link.Full) (begins : graph.hasNode source.label source.id = true)
    (ends : graph.hasNode target.label target.id = true)
    (settled : ∀ edge ∈ graph.edges, edge.relinkedAll links = edge) :
    ∀ edge ∈ (joined here graph type source target context properties).edges,
      edge.relinkedAll (links ++ [((type, source.id, target.id), properties)]) = edge := by
  have left : ∀ edge : Edge, edge.ends = (type, source.id, target.id) →
      edge.relinked properties = edge →
        edge.relinkedAll (links ++ [((type, source.id, target.id), properties)]) = edge := by
    intro edge hit left
    exact overAll_settled links_stable
      (fun other mem held hit hit' => relinked_relinked full (all other mem) hit hit') hit left
  have others : ∀ edge ∈ graph.edges, edge.ends ≠ (type, source.id, target.id) →
      edge.relinkedAll (links ++ [((type, source.id, target.id), properties)]) = edge :=
    fun edge mem missed => overAll_missed links_stable missed (settled edge mem)
  intro edge mem
  simp only [joined, begins, ends, Bool.and_true, if_true] at mem
  cases found : graph.edge? type source.id target.id with
  | some old =>
    obtain ⟨known, between⟩ := edge?_eq_some found
    rw [found] at mem
    rcases mem_setEdge mem with rfl | ⟨mem, missed⟩
    · exact left _ between (relinked_relinked full full between between)
    · exact others edge mem fun hit => missed (hit.trans between.symm)
  | none =>
    rw [found] at mem
    rcases List.mem_append.mp mem with mem | mem
    · exact others edge mem (edge?_eq_none.mp found edge mem)
    · obtain rfl := List.mem_singleton.mp mem
      refine left _ rfl ?_
      simp only [Edge.relinked, Edge.fresh]
      cases properties.lookup "imports" <;> rfl

theorem joined_known (wf : WellFormed graph) {type : EdgeType} {source target : Endpoint}
    (begins : graph.hasNode source.label source.id = true)
    (ends : graph.hasNode target.label target.id = true)
    (known : (type, source.id, target.id) ∈ graph.edges.map Edge.ends) (context : String)
    (properties : Properties) :
    (joined here graph type source target context properties).edges =
      graph.edges.map fun edge =>
        if EdgeWrite.Hits ((type, source.id, target.id), properties) edge then
          edge.relinked properties
        else edge := by
  simp only [joined, begins, ends, Bool.and_true, if_true]
  obtain ⟨edge, mem, between⟩ := List.mem_map.mp known
  have types : edge.type = type ∧ edge.source = source.id ∧ edge.target = target.id := by
    simpa [Edge.ends] using between
  have found : graph.edge? type source.id target.id = some edge := by
    rw [← types.1, ← types.2.1, ← types.2.2]
    exact wf.edge?_eq mem
  rw [found]
  refine List.map_congr_left fun other mem' => ?_
  by_cases hit : other.ends = (type, source.id, target.id)
  · obtain rfl := List.inj_on_of_nodup_map wf.distinct_edges mem' mem (hit.trans between.symm)
    have same : other.ends = (other.relinked properties).ends := rfl
    rw [if_pos (ends_eq_iff.mpr same)]
    exact (if_pos hit).symm
  · have missed : other.ends ≠ (edge.relinked properties).ends :=
      fun same => hit (same.trans between)
    rw [if_neg (mt ends_eq_iff.mp missed)]
    exact (if_neg hit).symm

/-! Graphs. -/

/-- Writing some nodes and edges again leaves every node and edge as it is, but for times. -/
structure Settled (writes : List NodeWrite) (links : List EdgeWrite) (since : Int) (graph : Graph) :
    Prop where
  nodes : ∀ node ∈ graph.nodes, node.Settled writes since
  edges : ∀ edge ∈ graph.edges, edge.relinkedAll links = edge

/-- A graph of known nodes and edges after some writes over them. -/
structure Rewritten (writes : List NodeWrite) (links : List EdgeWrite) (now : Int)
    (before after : Graph) : Prop where
  nodes : after.nodes = before.nodes.map (Node.rewritten writes now)
  edges : after.edges = before.edges.map (Edge.relinkedAll links)

/-- Where everything is settled, writing over it moves times of change at most. -/
theorem Settled.rewritten (h : Settled writes links since graph)
    (again : Rewritten writes links now graph after) :
    after.nodes.map Node.undated = graph.nodes.map Node.undated ∧ after.edges = graph.edges ∧
      (now ≤ since → after = graph) := by
  have edges : after.edges = graph.edges := by
    rw [again.edges]
    exact (List.map_congr_left h.edges).trans (List.map_id _)
  refine ⟨?_, edges, fun early => ?_⟩
  · rw [again.nodes, List.map_map]
    exact List.map_congr_left fun node mem => ((h.nodes node mem).rewritten now).1
  · refine eq_of_lists ?_ edges
    rw [again.nodes]
    refine (List.map_congr_left fun node mem => ?_).trans (List.map_id _)
    exact ((h.nodes node mem).rewritten now).2 early

end CodeAtlas.Graph
