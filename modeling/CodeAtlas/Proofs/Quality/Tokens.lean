import CodeAtlas.Proofs.Quality.Likeness
import CodeAtlas.Proofs.Text.Words

/-! The laws of likeness. Two bodies are compared through their sets of words alone, by the share of
the common words among all of them, so that the usual laws of such a share hold. The words of two
bodies on different lines are those of both. -/
namespace CodeAtlas.Quality

open CodeAtlas.Text (RunIn isWord lower)

variable {body first second word : String}

/-! The words of a body. -/

theorem mem_tokens : word ∈ tokens body ↔ ∃ run, RunIn isWord (lower body.toList) run ∧
    2 < run.length ∧ word = String.ofList run := by
  rw [tokens, List.mem_toFinset, bodyTokens, mem_distinct, List.mem_map]
  constructor
  · rintro ⟨run, kept, rfl⟩
    obtain ⟨mem, long⟩ := List.mem_filter.mp kept
    exact ⟨run, Text.mem_runs.mp mem, of_decide_eq_true long, rfl⟩
  · rintro ⟨run, stands, long, rfl⟩
    exact ⟨run, List.mem_filter.mpr ⟨Text.mem_runs.mpr stands, decide_eq_true long⟩, rfl⟩

theorem newline_no_word : isWord '\n' = false := Text.word_of_blank (by decide)

/-- No word reaches over the end of a line, and lower-casing does not look beyond it either. -/
theorem tokens_of_lines (first second : String) :
    tokens (first ++ "\n" ++ second) = tokens first ∪ tokens second := by
  have chars : (first ++ "\n" ++ second).toList = first.toList ++ '\n' :: second.toList := by
    rw [String.toList_append, String.toList_append, List.append_assoc]
    rfl
  ext word
  rw [Finset.mem_union, mem_tokens, mem_tokens, mem_tokens, chars,
    Text.lower_divided Text.newline_caseless]
  constructor
  · rintro ⟨run, stands, long⟩
    exact ((Text.run_in_divided newline_no_word).mp stands).imp (⟨run, ·, long⟩) (⟨run, ·, long⟩)
  · rintro (⟨run, stands, long⟩ | ⟨run, stands, long⟩)
    · exact ⟨run, Text.run_in_left newline_no_word stands, long⟩
    · exact ⟨run, Text.run_in_right newline_no_word stands, long⟩

/-! The share of common words. -/

theorem similarity_comm (first second : String) :
    similarity first second = similarity second first := by
  rw [similarity, similarity, Finset.inter_comm, Finset.union_comm]

theorem similarity_nonneg (first second : String) : 0 ≤ similarity first second :=
  div_nonneg (Nat.cast_nonneg _) (Nat.cast_nonneg _)

theorem similarity_le_one (first second : String) : similarity first second ≤ 1 := by
  have fewer := Finset.card_le_card (Finset.inter_subset_union (s := tokens first)
    (t := tokens second))
  exact div_le_one_of_le₀ (Nat.cast_le.mpr fewer) (Nat.cast_nonneg _)

theorem similarity_eq_zero_iff :
    similarity first second = 0 ↔ Disjoint (tokens first) (tokens second) := by
  rw [similarity, div_eq_zero_iff, Nat.cast_eq_zero, Nat.cast_eq_zero, Finset.card_eq_zero,
    Finset.card_eq_zero, Finset.disjoint_iff_inter_eq_empty]
  constructor
  · rintro (apart | none)
    · exact apart
    · exact Finset.subset_empty.mp (none ▸ Finset.inter_subset_union)
  · exact Or.inl

theorem similarity_eq_one_iff :
    similarity first second = 1 ↔ tokens first = tokens second ∧ (tokens first).Nonempty := by
  constructor
  · intro whole
    have some : ((tokens first ∪ tokens second).card : ℚ) ≠ 0 := by
      intro none
      rw [similarity, none, div_zero] at whole
      exact zero_ne_one whole
    have cards : (tokens first ∪ tokens second).card ≤ (tokens first ∩ tokens second).card :=
      (Nat.cast_injective ((div_eq_one_iff_eq some).mp whole)).ge
    have all := Finset.eq_of_subset_of_card_le Finset.inter_subset_union cards
    have same : tokens first = tokens second := inf_eq_sup.mp all
    refine ⟨same, Finset.nonempty_iff_ne_empty.mpr fun empty => some ?_⟩
    rw [← same, empty, Finset.empty_union, Finset.card_empty, Nat.cast_zero]
  · rintro ⟨same, some⟩
    have count : ((tokens second).card : ℚ) ≠ 0 :=
      Nat.cast_ne_zero.mpr (Finset.card_ne_zero.mpr (same ▸ some))
    rw [similarity, same, Finset.inter_self, Finset.union_self, div_self count]

def alike (first second : String) : ℚ := (Likeness.ofBodies first second).value

/-- The likeness of two bodies is a proper share of their sets of words. -/
theorem likeness_of_token_sets (first second : String) :
    0 < (Likeness.ofBodies first second).total ∧ alike first second = alike second first ∧
    0 ≤ alike first second ∧ alike first second ≤ 1 ∧
    (alike first second = 1 ↔ tokens first = tokens second ∧ (tokens first).Nonempty) ∧
    (alike first second = 0 ↔ Disjoint (tokens first) (tokens second)) ∧
    (∀ first' second', tokens first' = tokens first → tokens second' = tokens second →
      alike first' second' = alike first second) ∧
    (∀ word, word ∈ tokens first ↔ ∃ run, RunIn isWord (lower first.toList) run ∧
      2 < run.length ∧ word = String.ofList run) ∧
    tokens (first ++ "\n" ++ second) = tokens first ∪ tokens second := by
  have shared : alike = similarity :=
    funext fun first => funext fun second => Likeness.value_of_bodies first second
  rw [shared]
  refine ⟨Likeness.total_pos first second, similarity_comm first second,
    similarity_nonneg first second, similarity_le_one first second, similarity_eq_one_iff,
    similarity_eq_zero_iff, ?_, fun word => mem_tokens, tokens_of_lines first second⟩
  intro first' second' same same'
  rw [similarity, same, same', similarity]

/-- The same words in another order, in other letters and with a short one more. -/
theorem reworded_alike :
    tokens "return greet(NAME);" = tokens "Greet it: return name" ∧
      alike "return greet(NAME);" "return name" =
        alike "Greet it: return name" "return name" := by
  have same : tokens "return greet(NAME);" = tokens "Greet it: return name" := by decide +kernel
  obtain ⟨-, -, -, -, -, -, sets, -⟩ :=
    likeness_of_token_sets "Greet it: return name" "return name"
  exact ⟨same, sets "return greet(NAME);" "return name" same rfl⟩

end CodeAtlas.Quality
