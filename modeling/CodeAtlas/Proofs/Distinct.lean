import CodeAtlas.Distinct
import Mathlib.Data.List.Induction
import Mathlib.Data.List.Nodup

/-! First occurrences and ordered maps, read through membership, lookup and counting. -/
namespace CodeAtlas

variable {α β : Type} [DecidableEq α]

@[simp] theorem mem_distinct {x : α} {xs : List α} : x ∈ distinct xs ↔ x ∈ xs := by
  induction xs with
  | nil => rfl
  | cons y ys ih =>
    by_cases h : x = y
    · simp [distinct, h]
    · simp [distinct, h, ih]

theorem nodup_distinct (xs : List α) : (distinct xs).Nodup := by
  induction xs with
  | nil => exact List.nodup_nil
  | cons y ys ih =>
    refine List.nodup_cons.mpr ⟨?_, ih.filter _⟩
    simp

theorem valueOf?_bind (key other : α) (value : β) (bound : List (α × β)) :
    valueOf? other (bind key value bound) =
      if key = other then some value else valueOf? other bound := by
  induction bound with
  | nil => rfl
  | cons pair bound ih =>
    obtain ⟨known, old⟩ := pair
    by_cases hit : known = key
    · subst hit
      simp only [bind, if_true, valueOf?]
      split_ifs <;> rfl
    · simp only [bind, if_neg hit, valueOf?, ih]
      by_cases same : known = other
      · rw [if_pos same, if_neg fun eq => hit (same.trans eq.symm), if_pos same]
      · rw [if_neg same, if_neg same]

theorem keys_bind (key : α) (value : β) (bound : List (α × β)) :
    (bind key value bound).map Prod.fst =
      if key ∈ bound.map Prod.fst then bound.map Prod.fst else bound.map Prod.fst ++ [key] := by
  induction bound with
  | nil => rfl
  | cons pair bound ih =>
    obtain ⟨known, old⟩ := pair
    by_cases hit : known = key
    · simp [bind, hit]
    · have missed : ¬ key = known := fun eq => hit eq.symm
      simp only [bind, if_neg hit, List.map_cons, ih, List.mem_cons, missed, false_or]
      split_ifs <;> rfl

theorem nodup_keys_bind {key : α} {value : β} {bound : List (α × β)}
    (h : (bound.map Prod.fst).Nodup) : ((bind key value bound).map Prod.fst).Nodup := by
  rw [keys_bind]
  split_ifs with known
  · exact h
  · rw [← List.concat_eq_append, List.nodup_concat]
    exact ⟨known, h⟩

theorem mem_bind {key : α} {value : β} {bound : List (α × β)} {pair : α × β}
    (h : pair ∈ bind key value bound) : pair = (key, value) ∨ pair ∈ bound := by
  induction bound with
  | nil => exact .inl (List.mem_singleton.mp h)
  | cons first bound ih =>
    obtain ⟨known, old⟩ := first
    rw [bind] at h
    split_ifs at h with hit
    · exact (List.mem_cons.mp h).imp (fun same => hit ▸ same) (List.mem_cons_of_mem _)
    · rcases List.mem_cons.mp h with same | later
      · exact .inr (same ▸ List.mem_cons_self)
      · exact (ih later).imp_right (List.mem_cons_of_mem _)

theorem distinct_concat (xs : List α) (x : α) :
    distinct (xs ++ [x]) = if x ∈ xs then distinct xs else distinct xs ++ [x] := by
  induction xs with
  | nil => rfl
  | cons y ys ih =>
    simp only [List.cons_append, distinct, ih, List.mem_cons]
    by_cases known : x ∈ ys
    · simp [known]
    · by_cases same : x = y
      · subst same
        simp [known]
      · simp [known, same]

theorem distinct_of_nodup {xs : List α} (once : xs.Nodup) : distinct xs = xs := by
  induction xs with
  | nil => rfl
  | cons x xs ih =>
    obtain ⟨fresh, rest⟩ := List.nodup_cons.mp once
    have kept : xs.filter (· ≠ x) = xs := by
      rw [List.filter_eq_self]
      intro y mem
      exact decide_eq_true fun same => fresh (same ▸ mem)
    rw [distinct, ih rest, kept]

theorem distinct_filter (p : α → Bool) (xs : List α) :
    (distinct xs).filter p = distinct (xs.filter p) := by
  induction xs with
  | nil => rfl
  | cons x xs ih =>
    by_cases kept : p x = true
    · rw [List.filter_cons_of_pos kept, distinct, distinct, List.filter_cons_of_pos kept, ← ih,
        List.filter_comm]
    · rw [List.filter_cons_of_neg kept, distinct, List.filter_cons_of_neg kept, ← ih,
        List.filter_comm, List.filter_eq_self]
      intro y mem
      obtain ⟨-, other⟩ := List.mem_filter.mp mem
      exact decide_eq_true fun same => kept (same ▸ other)

theorem distinct_map {γ : Type} [DecidableEq γ] {key : α → γ} (injective : Function.Injective key)
    (xs : List α) : distinct (xs.map key) = (distinct xs).map key := by
  induction xs with
  | nil => rfl
  | cons x xs ih =>
    rw [List.map_cons, distinct, ih, distinct, List.map_cons, List.filter_map]
    congr 2
    refine List.filter_congr fun y _ => ?_
    simp [injective.eq_iff]

omit [DecidableEq α] in
theorem lookup_keyed {γ : Type} [BEq γ] [LawfulBEq γ] {key : α → γ}
    (injective : Function.Injective key) {x : α} {xs : List α} (mem : x ∈ xs) :
    (xs.map fun y => (key y, y)).lookup (key x) = some x := by
  induction xs with
  | nil => cases mem
  | cons y ys ih =>
    rw [List.map_cons, List.lookup_cons]
    by_cases same : key x = key y
    · rw [beq_iff_eq.mpr same, injective same]
    · rw [beq_false_of_ne same]
      refine ih ((List.mem_cons.mp mem).resolve_left fun eq => same ?_)
      rw [eq]

theorem distinct_by_key {γ : Type} [DecidableEq γ] [BEq γ] [LawfulBEq γ] {key : α → γ}
    (injective : Function.Injective key) (xs : List α) :
    (distinct (xs.map key)).filterMap ((xs.map fun x => (key x, x)).lookup ·) = distinct xs := by
  rw [distinct_map injective, List.filterMap_map]
  refine (List.filterMap_congr fun x mem => ?_).trans List.filterMap_some
  exact lookup_keyed injective (mem_distinct.mp mem)

theorem distinct_append (xs ys : List α) :
    distinct (xs ++ ys) = distinct xs ++ (distinct ys).filter (· ∉ xs) := by
  induction xs with
  | nil => simp [distinct]
  | cons x xs ih =>
    rw [List.cons_append, distinct, ih, distinct, List.cons_append, List.filter_append,
      List.filter_filter]
    congr 2
    refine List.filter_congr fun y _ => ?_
    simp only [List.mem_cons, not_or, Bool.decide_and]

/-- Values stand in the order of the first places at which they are found. -/
def InOrder {P : Type} (precedes : P → P → Prop) (found : P → α → Prop) (xs : List α) : Prop :=
  xs.Pairwise fun earlier later => ∃ p, found p earlier ∧ ∀ q, found q later → precedes p q

omit [DecidableEq α] in
theorem InOrder.congr {P : Type} {precedes : P → P → Prop} {found seen : P → α → Prop} {xs : List α}
    (same : ∀ x ∈ xs, ∀ p, found p x ↔ seen p x) (order : InOrder precedes found xs) :
    InOrder precedes seen xs := by
  refine List.Pairwise.imp_of_mem ?_ order
  rintro earlier later mem mem' ⟨p, first, rest⟩
  exact ⟨p, (same earlier mem p).mp first, fun q there => rest q ((same later mem' q).mpr there)⟩

theorem distinct_in_order {P : Type} {precedes : P → P → Prop} {places : List (P × α)}
    (increase : places.Pairwise fun a b => precedes a.1 b.1) :
    InOrder precedes (fun p x => (p, x) ∈ places) (distinct (places.map Prod.snd)) := by
  induction places with
  | nil => exact List.Pairwise.nil
  | cons place places ih =>
    obtain ⟨p, x⟩ := place
    obtain ⟨before, increase⟩ := List.pairwise_cons.mp increase
    have later {q : P} {y : α} (other : y ≠ x) (there : (q, y) ∈ (p, x) :: places) :
        (q, y) ∈ places := by
      refine (List.mem_cons.mp there).resolve_left fun same => other ?_
      exact congrArg Prod.snd same
    rw [List.map_cons, distinct, InOrder, List.pairwise_cons]
    constructor
    · intro y mem
      have other : y ≠ x := by simpa using (List.mem_filter.mp mem).2
      exact ⟨p, List.mem_cons_self, fun q there => before _ (later other there)⟩
    · refine List.Pairwise.imp_of_mem ?_ ((ih increase).filter _)
      rintro y z - mem ⟨q, first, rest⟩
      have other : z ≠ x := by simpa using (List.mem_filter.mp mem).2
      exact ⟨q, List.mem_cons_of_mem _ first, fun r there => rest r (later other there)⟩

omit [DecidableEq α] in
theorem zipIdx_increases (xs : List α) : xs.zipIdx.Pairwise fun a b => a.2 < b.2 := by
  rw [List.pairwise_iff_getElem]
  intro i j _ _ less
  simpa using less

/-- What several lists hold, each element once, stands in the order of the lists and in that of the
list in which it is first. -/
theorem distinct_flatMap_in_order {γ : Type} (rows : List γ) (f : γ → List α) :
    InOrder (P := Nat × Nat) (Prod.Lex (· < ·) (· < ·))
      (fun p x => ∃ row, rows[p.1]? = some row ∧ (f row)[p.2]? = some x)
      (distinct (rows.flatMap f)) := by
  let places : List ((Nat × Nat) × α) := rows.zipIdx.flatMap fun row =>
    (f row.1).zipIdx.map fun x => ((row.2, x.2), x.1)
  have listed : places.map Prod.snd = rows.flatMap f := by
    have inner (row : γ × Nat) :
        ((f row.1).zipIdx.map fun x => ((row.2, x.2), x.1)).map Prod.snd = f row.1 := by
      rw [List.map_map]
      exact List.zipIdx_map_fst 0 (f row.1)
    simp only [places, List.map_flatMap, inner]
    rw [← List.flatMap_map, List.zipIdx_map_fst]
  have increase : places.Pairwise fun a b => Prod.Lex (· < ·) (· < ·) a.1 b.1 := by
    rw [List.pairwise_flatMap]
    refine ⟨fun row _ => ?_, ?_⟩
    · rw [List.pairwise_map]
      exact (zipIdx_increases _).imp fun less => .right _ less
    · refine (zipIdx_increases rows).imp ?_
      intro row other less x mem y mem'
      obtain ⟨a, -, rfl⟩ := List.mem_map.mp mem
      obtain ⟨b, -, rfl⟩ := List.mem_map.mp mem'
      exact .left _ _ less
  rw [← listed]
  refine (distinct_in_order increase).congr fun x _ p => ?_
  constructor
  · intro mem
    obtain ⟨⟨row, k⟩, at_k, mem⟩ := List.mem_flatMap.mp mem
    obtain ⟨⟨y, i⟩, at_i, same⟩ := List.mem_map.mp mem
    obtain ⟨rfl, rfl⟩ := Prod.mk.inj same
    exact ⟨row, List.mem_zipIdx_iff_getElem?.mp at_k, List.mem_zipIdx_iff_getElem?.mp at_i⟩
  · rintro ⟨row, at_k, at_i⟩
    refine List.mem_flatMap.mpr ⟨(row, p.1), List.mem_zipIdx_iff_getElem?.mpr at_k, ?_⟩
    exact List.mem_map.mpr ⟨(x, p.2), List.mem_zipIdx_iff_getElem?.mpr at_i, rfl⟩

theorem bindAll_concat (pairs : List (α × β)) (key : α) (value : β) :
    bindAll (pairs ++ [(key, value)]) = bind key value (bindAll pairs) := by
  simp [bindAll, List.foldl_append]

theorem keys_bindAll (pairs : List (α × β)) :
    (bindAll pairs).map Prod.fst = distinct (pairs.map Prod.fst) := by
  induction pairs using List.reverseRecOn with
  | nil => rfl
  | append_singleton pairs pair ih =>
    rw [bindAll_concat, keys_bind, ih, List.map_append, List.map_cons, List.map_nil,
      distinct_concat]
    simp only [mem_distinct]

theorem bind_fresh {key : α} (value : β) {bound : List (α × β)}
    (fresh : key ∉ bound.map Prod.fst) : bind key value bound = bound ++ [(key, value)] := by
  induction bound with
  | nil => rfl
  | cons pair bound ih =>
    rw [List.map_cons, List.mem_cons, not_or] at fresh
    rw [bind, if_neg (Ne.symm fresh.1), ih fresh.2, List.cons_append]

theorem bindAll_of_nodup {pairs : List (α × β)} (once : (pairs.map Prod.fst).Nodup) :
    bindAll pairs = pairs := by
  induction pairs using List.reverseRecOn with
  | nil => rfl
  | append_singleton pairs pair ih =>
    rw [List.map_append, List.nodup_append] at once
    obtain ⟨front, -, apart⟩ := once
    rw [bindAll_concat, ih front]
    exact bind_fresh pair.2 fun mem => apart pair.1 mem pair.1 (by simp) rfl

theorem valueOf?_bindAll (key : α) (pairs : List (α × β)) :
    valueOf? key (bindAll pairs) = valueOf? key pairs.reverse := by
  induction pairs using List.reverseRecOn with
  | nil => rfl
  | append_singleton pairs pair ih =>
    rw [bindAll_concat, valueOf?_bind, ih, List.reverse_concat]
    rfl

theorem lookup_cons_if (first : α) (value : β) (rest : List (α × β)) (key : α) :
    ((first, value) :: rest).lookup key =
      if key = first then some value else rest.lookup key := by
  rw [List.lookup_cons]
  by_cases same : key = first
  · rw [if_pos same, beq_iff_eq.mpr same]
  · rw [if_neg same, beq_false_of_ne same]

theorem mem_of_valueOf? {key : α} {value : β} {pairs : List (α × β)}
    (h : valueOf? key pairs = some value) : (key, value) ∈ pairs := by
  induction pairs with
  | nil => cases h
  | cons pair pairs ih =>
    obtain ⟨known, first⟩ := pair
    rw [valueOf?] at h
    split_ifs at h with hit
    · obtain rfl := Option.some.inj h
      exact hit ▸ List.mem_cons_self
    · exact List.mem_cons_of_mem _ (ih h)

theorem valueOf?_of_mem {key : α} {value : β} {pairs : List (α × β)} (h : (key, value) ∈ pairs) :
    ∃ other, valueOf? key pairs = some other := by
  induction pairs with
  | nil => cases h
  | cons pair pairs ih =>
    obtain ⟨known, first⟩ := pair
    by_cases hit : known = key
    · exact ⟨first, by rw [valueOf?, if_pos hit]⟩
    · rw [valueOf?, if_neg hit]
      refine ih ((List.mem_cons.mp h).resolve_left fun same => hit ?_)
      exact (congrArg Prod.fst same).symm

theorem valueOf?_of_bound {key : α} {value : β} {pairs : List (α × β)}
    (h : (key, value) ∈ bindAll pairs) : valueOf? key pairs.reverse = some value := by
  have nodup : ((bindAll pairs).map Prod.fst).Nodup := keys_bindAll pairs ▸ nodup_distinct _
  obtain ⟨other, found⟩ := valueOf?_of_mem h
  have same := List.inj_on_of_nodup_map nodup h (mem_of_valueOf? found) rfl
  rw [← valueOf?_bindAll, found, (Prod.mk.inj same).2]

theorem mem_bindAll {pairs : List (α × β)}
    (agree : ∀ {key value other}, (key, value) ∈ pairs → (key, other) ∈ pairs → value = other)
    {key : α} {value : β} : (key, value) ∈ bindAll pairs ↔ (key, value) ∈ pairs := by
  constructor
  · exact fun bound => List.mem_reverse.mp (mem_of_valueOf? (valueOf?_of_bound bound))
  · intro mem
    obtain ⟨other, found⟩ := valueOf?_of_mem (List.mem_reverse.mpr mem)
    obtain rfl := agree mem (List.mem_reverse.mp (mem_of_valueOf? found))
    exact mem_of_valueOf? ((valueOf?_bindAll key pairs).trans found)

theorem eq_of_keys [Inhabited β] {bound : List (α × β)} (h : (bound.map Prod.fst).Nodup) :
    bound = (bound.map Prod.fst).map fun key => (key, (valueOf? key bound).getD default) := by
  induction bound with
  | nil => rfl
  | cons pair bound ih =>
    obtain ⟨fresh, rest⟩ := List.nodup_cons.mp h
    simp only [List.map_cons, valueOf?, if_true, Option.getD_some, List.cons.injEq, true_and]
    refine (ih rest).trans (List.map_congr_left fun key mem => ?_)
    have apart : pair.1 ≠ key := fun eq => fresh (eq ▸ mem)
    rw [if_neg apart]

/-- Binding all pairs keeps each key once, at its first place and with its last value. -/
theorem bindAll_eq [Inhabited β] (pairs : List (α × β)) :
    bindAll pairs = (distinct (pairs.map Prod.fst)).map fun key =>
      (key, (valueOf? key pairs.reverse).getD default) := by
  have nodup : ((bindAll pairs).map Prod.fst).Nodup := keys_bindAll pairs ▸ nodup_distinct _
  rw [eq_of_keys nodup, keys_bindAll]
  simp only [valueOf?_bindAll]

theorem valueOf?_countAll (keys : List α) (counts : List (α × Nat)) (key : α) :
    (valueOf? key (keys.foldl (fun counts key => countOne key counts) counts)).getD 0 =
      (valueOf? key counts).getD 0 + keys.count key := by
  induction keys generalizing counts with
  | nil => rfl
  | cons first keys ih =>
    rw [List.foldl_cons, ih, countOne, valueOf?_bind, List.count_cons]
    by_cases same : first = key
    · subst same
      simp
      omega
    · simp [same]

theorem valueOf?_tally (keys : List α) (key : α) :
    (valueOf? key (tally keys)).getD 0 = keys.count key := by
  rw [tally, valueOf?_countAll]
  simp [valueOf?]

theorem total_bind (key : α) (value : Nat) (bound : List (α × Nat)) :
    total ((bind key value bound).map (·.2)) + (valueOf? key bound).getD 0 =
      total (bound.map (·.2)) + value := by
  induction bound with
  | nil => simp [bind, valueOf?, total]
  | cons pair bound ih =>
    obtain ⟨known, old⟩ := pair
    by_cases hit : known = key
    · simp only [bind, valueOf?, if_pos hit, List.map_cons, total, Option.getD_some]
      omega
    · simp only [bind, valueOf?, if_neg hit, List.map_cons, total]
      omega

theorem total_countAll (keys : List α) (counts : List (α × Nat)) :
    total ((keys.foldl (fun counts key => countOne key counts) counts).map (·.2)) =
      total (counts.map (·.2)) + keys.length := by
  induction keys generalizing counts with
  | nil => rfl
  | cons key keys ih =>
    have counted := total_bind key ((valueOf? key counts).getD 0 + 1) counts
    rw [List.foldl_cons, ih, countOne, List.length_cons]
    omega

theorem nodup_keys_tally (keys : List α) : ((tally keys).map Prod.fst).Nodup := by
  have kept : ∀ counts : List (α × Nat), (counts.map Prod.fst).Nodup →
      ((keys.foldl (fun counts key => countOne key counts) counts).map Prod.fst).Nodup := by
    induction keys with
    | nil => exact fun counts h => h
    | cons key keys ih => exact fun counts h => ih _ (nodup_keys_bind h)
  exact kept [] List.nodup_nil

end CodeAtlas
