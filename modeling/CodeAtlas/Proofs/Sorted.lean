import CodeAtlas.Proofs.Distinct
import Mathlib.Data.List.Sort
import Mathlib.Data.String.Basic

/-! Lists in the order of a rank. Sorting by a rank that tells the items apart gives an increasing
list, and an increasing list is determined by its members alone: whatever order they came in is
gone. -/
namespace CodeAtlas

variable {α β : Type} [LinearOrder β] {before : α → α → Bool} {rank : α → β} {xs ys : List α}

theorem sorted_by_rank (reads : ∀ a ∈ xs, ∀ b ∈ xs, before a b = decide (rank a ≤ rank b)) :
    (xs.mergeSort before).Pairwise fun a b => rank a ≤ rank b := by
  apply List.pairwise_map.mp
  rw [List.map_mergeSort (s := fun a b => decide (a ≤ b)) reads]
  exact List.pairwise_mergeSort' (· ≤ ·) _

theorem increasing_by_rank (reads : ∀ a ∈ xs, ∀ b ∈ xs, before a b = decide (rank a ≤ rank b))
    (apart : (xs.map rank).Nodup) :
    (xs.mergeSort before).Pairwise fun a b => rank a < rank b := by
  have once : ((xs.mergeSort before).map rank).Nodup :=
    ((List.mergeSort_perm xs before).map rank).nodup_iff.mpr apart
  refine ((sorted_by_rank reads).and (List.pairwise_map.mp once)).imp fun both => ?_
  exact lt_of_le_of_ne both.1 both.2

theorem sorted_increases {texts : List String} (once : texts.Nodup) :
    (texts.mergeSort fun a b => decide (a ≤ b)).Pairwise fun a b => id a < id b := by
  apply increasing_by_rank fun a _ b _ => rfl
  rwa [List.map_id]

theorem sorted_distinct (texts : List String) :
    ((distinct texts).mergeSort fun a b => decide (a ≤ b)).Pairwise (· < ·) :=
  sorted_increases (nodup_distinct texts)

theorem nodup_of_increasing (increase : xs.Pairwise fun a b => rank a < rank b) : xs.Nodup := by
  refine increase.imp fun {a b} lt same => ?_
  rw [same] at lt
  exact lt_irrefl _ lt

theorem eq_of_increasing (increase : xs.Pairwise fun a b => rank a < rank b)
    (increase' : ys.Pairwise fun a b => rank a < rank b) (same : ∀ x, x ∈ xs ↔ x ∈ ys) :
    xs = ys := by
  have perm : xs.Perm ys := (List.perm_ext_iff_of_nodup (nodup_of_increasing increase)
    (nodup_of_increasing increase')).mpr same
  refine List.Perm.eq_of_pairwise ?_ increase increase' perm
  intro a b _ _ first second
  exact absurd second (lt_asymm first)

end CodeAtlas
