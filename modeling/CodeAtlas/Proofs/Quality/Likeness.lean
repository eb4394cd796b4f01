import CodeAtlas.Proofs.Distinct
import CodeAtlas.Quality.Similarity
import Mathlib.Algebra.Order.Field.Rat
import Mathlib.Data.Finset.Card
import Mathlib.Tactic.NormNum

/-! Likeness as a number. The fraction by which two bodies are compared is the share of their common
words among all their words, and comparing two fractions compares the numbers. -/
namespace CodeAtlas.Quality

def tokens (body : String) : Finset String := (bodyTokens body).toFinset

/-- The share of the common words of two bodies among all their words. It is zero where one of them
has no words. -/
def similarity (first second : String) : ℚ :=
  (tokens first ∩ tokens second).card / (tokens first ∪ tokens second).card

namespace Likeness

def value (likeness : Likeness) : ℚ := likeness.shared / likeness.total

variable {a b : List String} {first second third : Likeness}

theorem length_common (once : a.Nodup) : (common a b).length = (a.toFinset ∩ b.toFinset).card := by
  have same : (common a b).toFinset = a.toFinset ∩ b.toFinset := by
    ext word
    simp [common]
  have kept : (common a b).Nodup := once.filter _
  rw [← same, List.toFinset_card_of_nodup kept]

theorem total_pos (first second : String) : 0 < (ofBodies first second).total := by
  rw [ofBodies, ofTokens]
  by_cases empty : (bodyTokens first).isEmpty || (bodyTokens second).isEmpty
  · simp [empty]
  · have shorter : (common (bodyTokens first) (bodyTokens second)).length ≤
        (bodyTokens first).length := List.length_filter_le _ _
    have words : 0 < (bodyTokens second).length := List.length_pos_iff.mpr (by simp_all)
    rw [if_neg empty]
    dsimp only
    omega

theorem value_of_tokens (once : a.Nodup) (once' : b.Nodup) : (ofTokens a b).value =
    (a.toFinset ∩ b.toFinset).card / (a.toFinset ∪ b.toFinset).card := by
  rw [value, ofTokens]
  by_cases empty : a.isEmpty || b.isEmpty
  · have apart : a.toFinset ∩ b.toFinset = ∅ := by
      rcases Bool.or_eq_true_iff.mp empty with none | none <;>
        simp [List.isEmpty_iff.mp none]
    simp [empty, apart]
  · have all : (a.toFinset ∪ b.toFinset).card = a.length + b.length - (common a b).length := by
      rw [Finset.card_union, length_common once, List.toFinset_card_of_nodup once,
        List.toFinset_card_of_nodup once']
    rw [if_neg empty, all, ← length_common once]

theorem value_of_bodies (first second : String) :
    (ofBodies first second).value = similarity first second :=
  value_of_tokens (nodup_distinct _) (nodup_distinct _)

theorem is_duplicate_iff (first second : String) :
    (ofBodies first second).isDuplicate = true ↔ 7 / 10 < similarity first second := by
  have total : (0 : ℚ) < (ofBodies first second).total := Nat.cast_pos.mpr (total_pos _ _)
  rw [← value_of_bodies, value, div_lt_div_iff₀ (by norm_num) total, isDuplicate, decide_eq_true_eq,
    mul_comm _ (10 : ℚ)]
  norm_cast

theorem at_least_iff (total : 0 < first.total) (total' : 0 < second.total) :
    first.atLeast second = true ↔ second.value ≤ first.value := by
  rw [value, value, div_le_div_iff₀ (Nat.cast_pos.mpr total') (Nat.cast_pos.mpr total), atLeast,
    decide_eq_true_eq]
  norm_cast

end Likeness

end CodeAtlas.Quality
