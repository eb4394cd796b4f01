import CodeAtlas.Proofs.Text.Runs

/-! The words of a text and of its lower case. A character that belongs to no word divides a text:
the words on both sides are those of the two parts. A character without case that is not passed over
in the search for one divides a text for lower-casing too, because the form of a sigma is decided
before it is reached. -/
namespace CodeAtlas.Text

variable {p : Char → Bool} {c : Char} {text rest run begun before : List Char}

/-! Maximal runs of a text. -/

/-- A maximal run of characters of one class stands somewhere in the text. -/
def RunIn (p : Char → Bool) (text run : List Char) : Prop :=
  ∃ before after, text = before ++ (run ++ after) ∧ IsRun p before run after

theorem run_in_left (stop : p c = false) (stands : RunIn p text run) :
    RunIn p (text ++ c :: rest) run := by
  obtain ⟨before, after, rfl, maximal⟩ := stands
  refine ⟨before, after ++ c :: rest, by simp, { maximal with right := ?_ }⟩
  intro d next
  cases after with
  | nil =>
    obtain rfl := Option.some.inj next
    exact stop
  | cons first after => exact maximal.right d next

theorem run_in_right (stop : p c = false) (stands : RunIn p rest run) :
    RunIn p (text ++ c :: rest) run := by
  obtain ⟨before, after, rfl, maximal⟩ := stands
  refine ⟨text ++ c :: before, after, by simp, { maximal with left := ?_ }⟩
  intro d last
  rw [List.getLast?_append, List.getLast?_cons] at last
  obtain rfl : before.getLast?.getD c = d := Option.some.inj last
  cases ends : before.getLast? with
  | none => exact stop
  | some e => exact maximal.left e ends

/-- The runs of a text that is divided are those of its two parts. -/
theorem run_in_divided (stop : p c = false) :
    RunIn p (text ++ c :: rest) run ↔ RunIn p text run ∨ RunIn p rest run := by
  constructor
  · rintro ⟨before, after, whole, maximal⟩
    have outside : c ∉ run := fun mem => Bool.false_ne_true (stop ▸ maximal.inside c mem)
    rcases List.append_eq_append_iff.mp whole with ⟨gap, rfl, same⟩ | ⟨gap, rfl, same⟩
    · right
      cases gap with
      | nil =>
        cases run with
        | nil => exact absurd rfl maximal.nonempty
        | cons d run =>
          obtain ⟨rfl, -⟩ := List.cons.inj same
          exact absurd List.mem_cons_self outside
      | cons d gap =>
        obtain ⟨rfl, rfl⟩ := List.cons.inj same
        refine ⟨gap, after, rfl, { maximal with left := fun e last => maximal.left e ?_ }⟩
        rw [List.getLast?_append, List.getLast?_cons, last]
        rfl
    · left
      rcases List.append_eq_append_iff.mp same with ⟨tail, rfl, behind⟩ | ⟨tail, rfl, behind⟩
      · refine ⟨before, tail, rfl, { maximal with right := fun e next => maximal.right e ?_ }⟩
        rw [behind, List.head?_append, next]
        rfl
      · cases tail with
        | nil =>
          rw [List.append_nil] at maximal ⊢
          exact ⟨before, [], by simp, { maximal with right := nofun }⟩
        | cons d tail =>
          obtain ⟨rfl, -⟩ := List.cons.inj behind
          exact absurd (by simp) outside
  · rintro (stands | stands)
    · exact run_in_left stop stands
    · exact run_in_right stop stands

theorem run_in_block (inside : ∀ c ∈ text, p c = true) :
    RunIn p text run ↔ run = text ∧ text ≠ [] := by
  constructor
  · rintro ⟨before, after, rfl, maximal⟩
    have first : before = [] := by
      by_contra some
      have mem := List.getLast_mem some
      have outside := maximal.left _ (List.getLast?_eq_some_getLast some)
      exact Bool.false_ne_true (outside ▸ inside _ (List.mem_append_left _ mem))
    have last : after = [] := by
      cases after with
      | nil => rfl
      | cons d after =>
        have outside := maximal.right d rfl
        exact absurd (outside ▸ inside d (by simp)) Bool.false_ne_true
    subst first last
    simpa using maximal.nonempty
  · rintro ⟨rfl, nonempty⟩
    exact ⟨[], [], by simp, nonempty, inside, nofun, nofun⟩

theorem run_in_begun (inside : ∀ c ∈ begun, p c = true) :
    RunIn p begun.reverse run ↔ run = begun.reverse ∧ begun ≠ [] := by
  rw [run_in_block (by simpa using inside), Ne, List.reverse_eq_nil_iff]

theorem mem_runs_after (inside : ∀ c ∈ begun, p c = true) :
    run ∈ runsAfter p begun text ↔ RunIn p (begun.reverse ++ text) run := by
  induction text generalizing begun with
  | nil =>
    rw [List.append_nil, run_in_begun inside, runsAfter]
    cases begun with
    | nil => simp
    | cons c begun => simp
  | cons c text ih =>
    rw [runsAfter]
    by_cases word : p c = true
    · have inside' : ∀ d ∈ c :: begun, p d = true := List.forall_mem_cons.mpr ⟨word, inside⟩
      rw [if_pos word, ih inside', List.reverse_cons, List.append_assoc, List.singleton_append]
    · have stop : p c = false := Bool.eq_false_iff.mpr word
      have later : run ∈ runsAfter p [] text ↔ RunIn p text run := ih nofun
      rw [if_neg word, run_in_divided stop, run_in_begun inside, ← later]
      cases begun with
      | nil => simp
      | cons d begun => simp

/-- The runs that are read off a text are its maximal runs. -/
theorem mem_runs : run ∈ runs p text ↔ RunIn p text run := mem_runs_after nofun

/-! Lower case. -/

/-- The character has no case, is its own lower case and ends the search for a cased one. -/
structure Caseless (c : Char) : Prop where
  image : lowerOf c = [c]
  seen : inRanges c.toNat caseIgnorableRanges = false
  uncased : inRanges c.toNat casedRanges = false

theorem newline_caseless : Caseless '\n' := by
  constructor <;> decide +kernel

section Caseless

variable (caseless : Caseless c)

include caseless

theorem cased_first_divided : casedFirst (text ++ c :: rest) = casedFirst text := by
  induction text with
  | nil => simp [casedFirst, caseless.seen, caseless.uncased]
  | cons d text ih => rw [List.cons_append, casedFirst, casedFirst, ih]

theorem lower_after_passed (passed : List Char) :
    lowerAfter (passed ++ c :: before) text = lowerAfter passed text := by
  induction text generalizing passed with
  | nil => rfl
  | cons d text ih =>
    have next := ih (d :: passed)
    rw [List.cons_append] at next
    rw [lowerAfter, lowerAfter, cased_first_divided caseless, next]

theorem lower_after_divided : lowerAfter before (text ++ c :: rest) =
    lowerAfter before text ++ c :: lowerAfter [] rest := by
  induction text generalizing before with
  | nil =>
    have plain : (c == 'Σ') = false := by
      refine beq_false_of_ne ?_
      rintro rfl
      exact absurd caseless.uncased (by decide +kernel)
    have later : lowerAfter (c :: before) rest = lowerAfter [] rest :=
      lower_after_passed caseless []
    simp [lowerAfter, plain, caseless.image, later]
  | cons d text ih =>
    rw [List.cons_append, lowerAfter, lowerAfter, cased_first_divided caseless, ih,
      List.append_assoc]

theorem lower_divided : lower (text ++ c :: rest) = lower text ++ c :: lower rest :=
  lower_after_divided caseless

end Caseless

end CodeAtlas.Text
