import CodeAtlas.Proofs.Indexing.Contained

/-! Single writes by key. They name their nodes in any context but each in one, so edges stay inside
the contexts as long as their ends are named by key: only bare ids can join two contexts. -/
namespace CodeAtlas.Runs

open CodeAtlas.Graph

/-- Operations that name no node by its bare id. -/
def Operation.IsKeyed : Operation → Prop
  | link _ (.byId ..) _ _ _ | link _ _ (.byId ..) _ _ => False
  | _ => True

def keyed (here : Conditions) (label : String) (key : List (String × Json)) (context : String) :
    List Identity :=
  (Identity.ofFields (here.tooDeep .key) label key context).toOption.toList

def Operation.named (here : Conditions) : Operation → List Identity
  | upsert request | ensureNode request => keyed here request.label request.key request.context
  | transaction requests _ =>
    requests.flatMap fun request => keyed here request.label request.key request.context
  | link _ (.byKey source key) (.byKey target key') context _ =>
    keyed here source key context ++ keyed here target key' context
  | operation => operation.identities here

def named (steps : List Step) : List Identity :=
  steps.flatMap fun step => step.operation.named step.here

variable {here : Conditions} {known : List Identity} {context label : String} {graph : Graph}
  {identity : Identity} {key : List (String × Json)} {operation : Operation} {steps : List Step}

theorem mem_keyed (h : Identity.ofFields (here.tooDeep .key) label key context = .ok identity) :
    identity ∈ keyed here label key context := by
  rw [keyed, h]
  exact List.mem_singleton_self _

theorem label_of_fields
    (h : Identity.ofFields (here.tooDeep .key) label key context = .ok identity) :
    Label.ofName? label = some identity.label ∧ identity.context = context := by
  obtain ⟨known, named, h⟩ := except_bind h
  obtain ⟨values, -, h⟩ := except_bind h
  obtain rfl := Except.ok.inj h
  rw [Label.ofName] at named
  cases found : Label.ofName? label with
  | none =>
    rw [found] at named
    cases named
  | some label =>
    rw [found] at named
    exact ⟨congrArg some (Except.ok.inj named), rfl⟩

def StaysConfined (known : List Identity) (before after : Graph) : Prop :=
  Confined known before → Confined known after

theorem stays_confined_chains : Chains (StaysConfined known) where
  refl _ := id
  trans first second := second ∘ first

theorem stays_confined {α : Type} {write : Write α} {answered : α → Prop}
    (isolated : Isolated known context write answered) : WriteMoves (StaysConfined known) write :=
  fun _ _ _ done confined => (isolated.keeps confined done).2.1

theorem keyed_placed (occur : keyed here label key context ⊆ known)
    (given : Identity.ofFields (here.tooDeep .key) label key context = .ok identity) :
    PlacedIn known identity.context identity :=
  ⟨occur (mem_keyed given), rfl⟩

theorem upsert_stays_confined (free : CollisionFree known) {request : NodeRequest}
    (occur : keyed here request.label request.key request.context ⊆ known) :
    WriteMoves (StaysConfined known) (request.upsert here) := by
  refine write_settle fun identity given => write_settle fun attributes _ => ?_
  have isolated : Isolated known identity.context (upsert here identity attributes) fun _ => True :=
    isolated_upsert (keyed_placed occur given) free (of_fields_proper given) attributes
  exact stays_confined_chains.write_bind (stays_confined isolated) fun _ =>
    stays_confined_chains.write_pure _

theorem ensure_stays_confined (free : CollisionFree known) {request : NodeRequest}
    (occur : keyed here request.label request.key request.context ⊆ known) :
    WriteMoves (StaysConfined known) (request.ensure here) := by
  refine write_settle fun identity given => ?_
  have isolated := isolated_ensure here (keyed_placed occur given) free (of_fields_proper given)
  exact stays_confined_chains.write_bind (stays_confined isolated) fun _ =>
    stays_confined_chains.write_pure _

theorem link_stays_confined (free : CollisionFree known) {type source target : String}
    {key' : List (String × Json)} (properties : List (String × Json))
    (begins : keyed here source key context ⊆ known)
    (ends : keyed here target key' context ⊆ known) :
    WriteMoves (StaysConfined known)
      (linkRequest here type (.byKey source key) (.byKey target key') context properties) := by
  refine write_settle fun sourceId begun => write_settle fun targetId ended =>
    write_settle fun type _ => ?_
  obtain ⟨first, given, begun⟩ := except_bind begun
  obtain ⟨second, given', ended⟩ := except_bind ended
  obtain rfl := Except.ok.inj begun
  obtain rfl := Except.ok.inj ended
  obtain ⟨label, inside⟩ := label_of_fields given
  obtain ⟨label', inside'⟩ := label_of_fields given'
  rw [EndRequest.label, EndRequest.label, label, label']
  intro graph value after done confined
  have placed : PlacedIn known context first := ⟨begins (mem_keyed given), inside⟩
  have placed' : PlacedIn known context second := ⟨ends (mem_keyed given'), inside'⟩
  exact ((isolated_link placed placed' free type _).keeps confined done).2.1

theorem operation_stays_confined (keyed : operation.IsKeyed) (free : CollisionFree known)
    (occur : operation.named here ⊆ known) (confined : Confined known graph) :
    Confined known (operation.on here graph).2 := by
  have chains : Chains (StaysConfined known) := stays_confined_chains
  cases operation with
  | upsert request =>
    rw [on_eq_session]
    exact chains.session_map (chains.session_commit (upsert_stays_confined free occur)) _ graph
      confined
  | ensureNode request =>
    rw [on_eq_session]
    exact chains.session_map (chains.session_commit (ensure_stays_confined free occur)) _ graph
      confined
  | link type source target context properties =>
    cases source with
    | byId => exact keyed.elim
    | byKey source key =>
      cases target with
      | byId => exact keyed.elim
      | byKey target key' =>
        have begins := List.Subset.trans (List.subset_append_left _ _) occur
        have ends := List.Subset.trans (List.subset_append_right _ _) occur
        rw [on_eq_session]
        exact chains.session_map (chains.session_commit
          (link_stays_confined free properties begins ends)) _ graph confined
  | transaction requests abort =>
    rw [on_eq_session]
    refine chains.session_map (chains.session_commit (chains.upsert_together ?_ abort)) _ graph
      confined
    refine fun request mem => upsert_stays_confined free fun identity inside => occur ?_
    exact List.mem_flatMap.mpr ⟨request, mem, inside⟩
  | _ =>
    change Confined known (Step.after ⟨here, _⟩ graph)
    exact step_confined trivial occur free confined

theorem keyed_run_confined (keyed : ∀ step ∈ steps, step.operation.IsKeyed)
    (occur : named steps ⊆ known) (free : CollisionFree known) : Confined known (run steps) := by
  refine run_invariant (empty_confined known) fun step mem graph confined => ?_
  refine operation_stays_confined (keyed step mem) free (fun identity inside => occur ?_) confined
  exact List.mem_flatMap.mpr ⟨step, mem, inside⟩

theorem keyed_run_contains_own {path context : String}
    (keyed : ∀ step ∈ steps, step.operation.IsKeyed)
    (free : CollisionFree (.file path context :: named steps)) :
    Indexing.ContainsOwn (run steps) path context :=
  fun _ _ _ mem => contained_inside free
    (keyed_run_confined keyed (List.subset_cons_self _ _) free) List.mem_cons_self mem

end CodeAtlas.Runs
