import CodeAtlas.Text.Words
import Mathlib.Data.List.TakeWhile

/-! Runs of characters of one class, and what the classes have in common: a blank is never a word
character, so the blanks after a word do not continue it. -/
namespace CodeAtlas.Text

variable {c : Char} {p : Char → Bool} {before run after : List Char}

/-! Classes. -/

theorem range_of_in_ranges {n : Nat} {ranges : List (Nat × Nat)}
    (inside : inRanges n ranges = true) : ∃ range ∈ ranges, range.1 ≤ n ∧ n ≤ range.2 := by
  induction ranges with
  | nil => cases inside
  | cons range ranges ih =>
    obtain ⟨first, last⟩ := range
    simp only [inRanges, Bool.and_eq_true, Bool.or_eq_true, decide_eq_true_eq] at inside
    obtain ⟨begun, ended | later⟩ := inside
    · exact ⟨_, List.mem_cons_self, begun, ended⟩
    · obtain ⟨range, mem, bounds⟩ := ih later
      exact ⟨range, List.mem_cons_of_mem _ mem, bounds⟩

theorem not_in_ranges {n : Nat} {ranges others : List (Nat × Nat)}
    (apart : ∀ a ∈ ranges, ∀ b ∈ others, a.2 < b.1 ∨ b.2 < a.1)
    (inside : inRanges n ranges = true) : inRanges n others = false := by
  obtain ⟨a, mem, low, high⟩ := range_of_in_ranges inside
  by_contra other
  rw [Bool.not_eq_false] at other
  obtain ⟨b, mem', low', high'⟩ := range_of_in_ranges other
  have := apart a mem b mem'
  omega

theorem word_of_blank (blank : isBlank c = true) : isWord c = false := by
  have underscore : c ≠ '_' := by
    rintro rfl
    revert blank
    decide
  have letter : isAlphanumeric c = false := by
    refine not_in_ranges ?_ blank
    decide +kernel
  rw [isWord, letter, beq_false_of_ne underscore]
  rfl

/-! Runs. -/

/-- The run is maximal: neither what stands before it nor what stands after it continues it. -/
structure IsRun (p : Char → Bool) (before run after : List Char) : Prop where
  nonempty : run ≠ []
  inside : ∀ c ∈ run, p c = true
  left : ∀ c, before.getLast? = some c → p c = false
  right : ∀ c, after.head? = some c → p c = false

theorem takeWhile_run (inside : ∀ c ∈ run, p c = true)
    (right : ∀ c, after.head? = some c → p c = false) : (run ++ after).takeWhile p = run := by
  rw [List.takeWhile_append_of_pos inside]
  cases after with
  | nil => simp
  | cons c after => simp [right c rfl]

theorem dropWhile_run (inside : ∀ c ∈ run, p c = true)
    (right : ∀ c, after.head? = some c → p c = false) : (run ++ after).dropWhile p = after := by
  rw [List.dropWhile_append_of_pos inside]
  cases after with
  | nil => rfl
  | cons c after => simp [right c rfl]

theorem head_dropWhile {text : List Char} (h : (text.dropWhile p).head? = some c) :
    p c = false := by
  have first := List.head?_dropWhile_not p text
  rw [h] at first
  exact first

end CodeAtlas.Text
