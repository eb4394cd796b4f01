import CodeAtlas.Proofs.Distinct
import CodeAtlas.Settings.Load
import Mathlib.Data.List.Induction

/-! Lookups in layers. An environment that a file completes has what it had, else what the file
assigns; a layer over another has the last value of a name, else what is below. -/
namespace CodeAtlas.Dotenv

variable {environment : Environment} {name : String} {bindings : List Binding}

def assigned (bindings : List Binding) (name : String) : Option String :=
  (valueOf? name bindings).join

def completedBy (environment : Environment) (bindings : List Binding) : Environment :=
  bindings.foldl (fun environment (name, value) =>
    match value with
    | some value =>
      if (environment.lookup name).isSome then environment else environment ++ [(name, value)]
    | none => environment) environment

theorem nodup_names_resolve (environment : Environment) (text : List Char) :
    ((resolve environment text).map Prod.fst).Nodup := by
  rw [resolve]
  refine List.foldlRecOn (motive := fun resolved : List Binding => (resolved.map Prod.fst).Nodup)
    _ _ List.nodup_nil ?_
  intro resolved once pair _
  exact nodup_keys_bind once

/-- Whether an environment can hold the assignments of a file for what is not set in it. -/
def takes (environment : Environment) (bindings : List Binding) : Bool :=
  bindings.all fun (name, value) =>
    value.all fun value => (environment.lookup name).isSome || canHold name value

theorem takes_cons (environment : Environment) (binding : Binding) (bindings : List Binding) :
    takes environment (binding :: bindings) =
      (binding.2.all (fun value => (environment.lookup binding.1).isSome ||
        canHold binding.1 value) && takes environment bindings) := rfl

theorem takes_added {bound : String} (fresh : bound ∉ bindings.map Prod.fst)
    (environment : Environment) (value : String) :
    takes (environment ++ [(bound, value)]) bindings = takes environment bindings := by
  rw [takes, takes, Bool.eq_iff_iff, List.all_eq_true, List.all_eq_true]
  refine forall₂_congr fun binding mem => ?_
  have other : binding.1 ≠ bound := by
    rintro rfl
    exact fresh (List.mem_map_of_mem mem)
  dsimp only
  rw [List.lookup_append, lookup_cons_if, if_neg other, List.lookup_nil, Option.or_none]

theorem assign_all (once : (bindings.map Prod.fst).Nodup) (environment : Environment) :
    bindings.foldlM assign environment =
      if takes environment bindings then .ok (completedBy environment bindings)
      else .error .impossibleValue := by
  induction bindings generalizing environment with
  | nil => rfl
  | cons binding bindings ih =>
    obtain ⟨bound, value⟩ := binding
    obtain ⟨fresh, rest⟩ := List.nodup_cons.mp once
    rw [List.foldlM_cons, takes_cons, completedBy, List.foldl_cons]
    cases value with
    | none => exact ih rest environment
    | some value =>
      dsimp only [assign]
      by_cases set : (environment.lookup bound).isSome
      · rw [if_pos set, if_pos set, Option.all_some, set]
        exact ih rest environment
      · rw [if_neg set, if_neg set, Option.all_some, Bool.eq_false_iff.mpr set, Bool.false_or]
        cases holds : canHold bound value with
        | false => rfl
        | true =>
          rw [if_pos rfl, Bool.true_and, ← takes_added fresh environment value]
          exact ih rest (environment ++ [(bound, value)])

theorem load_eq (environment : Environment) (text : List Char) :
    load environment text =
      if takes environment (resolve environment text) then
        .ok (completedBy environment (resolve environment text))
      else .error .impossibleValue :=
  assign_all (nodup_names_resolve environment text) environment

/-- What is set stays as it is, even when it is empty. -/
theorem lookup_completed (once : (bindings.map Prod.fst).Nodup) (environment : Environment)
    (name : String) : (completedBy environment bindings).lookup name =
      (environment.lookup name).or (assigned bindings name) := by
  induction bindings generalizing environment with
  | nil => simp [completedBy, assigned, valueOf?]
  | cons binding bindings ih =>
    obtain ⟨bound, value⟩ := binding
    obtain ⟨fresh, rest⟩ := List.nodup_cons.mp once
    have absent : bound = name → assigned bindings name = none := by
      rintro rfl
      cases found : valueOf? bound bindings with
      | none => rw [assigned, found, Option.join_none]
      | some value => exact absurd (List.mem_map_of_mem (mem_of_valueOf? found)) fresh
    cases value with
    | none =>
      refine (ih rest environment).trans ?_
      by_cases hit : bound = name
      · rw [absent hit, assigned, valueOf?, if_pos hit]
        rfl
      · rw [assigned, assigned, valueOf?, if_neg hit]
    | some value =>
      by_cases set : (environment.lookup bound).isSome
      · have kept : completedBy environment ((bound, some value) :: bindings) =
            completedBy environment bindings := by
          rw [completedBy, List.foldl_cons]
          dsimp only
          rw [if_pos set]
          rfl
        rw [kept, ih rest]
        by_cases hit : bound = name
        · obtain ⟨old, found⟩ := Option.isSome_iff_exists.mp (hit ▸ set)
          rw [found]
          rfl
        · rw [assigned, assigned, valueOf?, if_neg hit]
      · have added : completedBy environment ((bound, some value) :: bindings) =
            completedBy (environment ++ [(bound, value)]) bindings := by
          rw [completedBy, List.foldl_cons]
          dsimp only
          rw [if_neg set]
          rfl
        rw [added, ih rest, List.lookup_append]
        by_cases hit : bound = name
        · subst hit
          have unset : environment.lookup bound = none := Option.not_isSome_iff_eq_none.mp set
          rw [lookup_cons_if, if_pos rfl, unset, absent rfl, assigned, valueOf?, if_pos rfl]
          rfl
        · rw [lookup_cons_if, if_neg fun same => hit same.symm, List.lookup_nil, Option.or_none,
            assigned, assigned, valueOf?, if_neg hit]

end CodeAtlas.Dotenv

namespace CodeAtlas.Settings

variable {layer : Layer} {name : String} {key value : Yaml}

/-! Values. -/

theorem value_cons (key value : Yaml) (layer : Layer) (name : String) :
    valueIn ((key, value) :: layer) name =
      if key.text? = some name then some value else valueIn layer name := by
  by_cases hit : key.text? = some name <;> simp [valueIn, hit]

theorem value_append (layer more : Layer) (name : String) :
    valueIn (layer ++ more) name = (valueIn layer name).or (valueIn more name) := by
  rw [valueIn, List.find?_append, Option.map_or]
  rfl

theorem value_replaced (bound : String) (value : Yaml) (layer : Layer) (name : String) :
    valueIn (layer.map fun pair =>
        if pair.1.text? == some bound then (pair.1, value) else (pair.1, pair.2)) name =
      if bound = name then (valueIn layer name).map fun _ => value else valueIn layer name := by
  induction layer with
  | nil => simp [valueIn]
  | cons pair layer ih =>
    obtain ⟨key, old⟩ := pair
    rw [List.map_cons]
    by_cases met : key.text? = some bound
    · rw [if_pos (beq_iff_eq.mpr met), value_cons, value_cons, ih, met]
      by_cases hit : bound = name <;> simp [hit]
    · rw [if_neg fun same => met (beq_iff_eq.mp same), value_cons, value_cons, ih]
      by_cases hit : bound = name
      · subst hit
        simp [met]
      · simp [hit]

theorem value_bind_pair (key value : Yaml) (layer : Layer) (name : String) :
    valueIn (Yaml.bindPair key value layer) name =
      if key.text? = some name then some value else valueIn layer name := by
  rw [Yaml.bindPair]
  cases text : key.text? with
  | none =>
    simp [text, valueIn]
  | some bound =>
    simp only [Option.some.injEq]
    cases known : layer.any fun pair => pair.1.text? == some bound with
    | true =>
      rw [if_pos rfl, value_replaced]
      by_cases hit : bound = name
      · have some : (valueIn layer name).isSome = true := by
          rw [valueIn, Option.isSome_map, List.find?_isSome, ← List.any_eq_true, ← hit]
          exact known
        obtain ⟨old, found⟩ := Option.isSome_iff_exists.mp some
        rw [if_pos hit, if_pos hit, found, Option.map_some]
      · rw [if_neg hit, if_neg hit]
    | false =>
      rw [if_neg Bool.false_ne_true, value_append, value_cons, text]
      by_cases hit : bound = name
      · have none : valueIn layer name = none := by
          rw [valueIn, Option.map_eq_none_iff, List.find?_eq_none, ← hit]
          exact List.any_eq_false.mp known
        rw [none, Option.none_or, hit, if_pos rfl, if_pos rfl]
      · rw [if_neg fun same => hit (Option.some.inj same), if_neg hit]
        exact Option.or_none

theorem value_layered (upper lower : Layer) (name : String) :
    valueIn (layered upper lower) name =
      (valueIn upper.reverse name).or (valueIn lower name) := by
  induction upper using List.reverseRecOn with
  | nil => rfl
  | append_singleton upper pair ih =>
    obtain ⟨key, value⟩ := pair
    have last : layered (upper ++ [(key, value)]) lower =
        Yaml.bindPair key value (layered upper lower) := by
      rw [layered, List.foldl_append]
      rfl
    rw [last, value_bind_pair, ih, List.reverse_concat, value_cons]
    by_cases hit : key.text? = some name
    · rw [if_pos hit, if_pos hit, Option.some_or]
    · rw [if_neg hit, if_neg hit]

theorem value_named (given : List (String × Yaml)) (name : String) :
    valueIn (given.map fun given => (Yaml.text given.1, given.2)) name = valueOf? name given := by
  induction given with
  | nil => rfl
  | cons first given ih =>
    obtain ⟨known, value⟩ := first
    rw [List.map_cons, value_cons, ih, valueOf?]
    simp [Yaml.text?]

theorem value_alone {entry : Yaml × Yaml} (mem : entry ∈ layer) (named : entry.1.text? = some name)
    (alone : ∀ other ∈ layer, other.1.text? = some name → other.2 = entry.2) :
    valueIn layer name = some entry.2 := by
  have found : (layer.find? fun pair => pair.1.text? == some name).isSome = true :=
    List.find?_isSome.mpr ⟨entry, mem, beq_iff_eq.mpr named⟩
  obtain ⟨other, first⟩ := Option.isSome_iff_exists.mp found
  have same : (other.1.text? == some name) = true :=
    List.find?_some (p := fun pair : Yaml × Yaml => pair.1.text? == some name) first
  rw [valueIn, first, Option.map_some,
    alone other (List.mem_of_find?_eq_some first) (beq_iff_eq.mp same)]

/-! Keys. -/

theorem key_of_text {bound : String} (text : key.text? = some bound) : key = .text bound := by
  cases key <;> cases text
  rfl

theorem keys_bind_pair (key value : Yaml) (layer : Layer) (other : Yaml) :
    other ∈ (Yaml.bindPair key value layer).map Prod.fst ↔
      other = key ∨ other ∈ layer.map Prod.fst := by
  have last : other ∈ (layer ++ [(key, value)]).map Prod.fst ↔
      other = key ∨ other ∈ layer.map Prod.fst := by
    rw [List.map_append, List.mem_append, List.map_singleton, List.mem_singleton, or_comm]
  rw [Yaml.bindPair]
  cases text : key.text? with
  | none => exact last
  | some bound =>
    dsimp only
    split
    case isTrue known =>
      obtain ⟨pair, mem, same⟩ := List.any_eq_true.mp known
      have bound_before : key ∈ layer.map Prod.fst := by
        rw [key_of_text text, ← key_of_text (beq_iff_eq.mp same)]
        exact List.mem_map_of_mem mem
      have keys : (layer.map fun pair => if pair.1.text? == some bound then (pair.1, value)
          else (pair.1, pair.2)).map Prod.fst = layer.map Prod.fst := by
        rw [List.map_map]
        refine List.map_congr_left fun pair _ => ?_
        rw [Function.comp_apply]
        split <;> rfl
      rw [keys]
      constructor
      · exact .inr
      · rintro (rfl | mem)
        · exact bound_before
        · exact mem
    case isFalse => exact last

theorem keys_layered (upper lower : Layer) (key : Yaml) :
    key ∈ (layered upper lower).map Prod.fst ↔
      key ∈ upper.map Prod.fst ∨ key ∈ lower.map Prod.fst := by
  induction upper using List.reverseRecOn with
  | nil => simp [layered]
  | append_singleton upper pair ih =>
    have last : layered (upper ++ [pair]) lower =
        Yaml.bindPair pair.1 pair.2 (layered upper lower) := by
      rw [layered, List.foldl_append]
      rfl
    rw [last, keys_bind_pair, ih, List.map_append, List.mem_append, List.map_singleton,
      List.mem_singleton, ← or_assoc, or_comm (a := key = pair.1)]

end CodeAtlas.Settings
