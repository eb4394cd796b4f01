import CodeAtlas.Decimal.Shortest
import Mathlib.Algebra.Order.Field.Power
import Mathlib.Data.Nat.Log
import Mathlib.Tactic.FieldSimp
import Mathlib.Tactic.Linarith
import Mathlib.Tactic.Positivity
import Mathlib.Tactic.Ring

/-! Rounding to binary floating point. What the arithmetic on natural numbers computes is described
as a relation between rational numbers and binary ones, which leaves one binary number for each
positive rational. -/
namespace CodeAtlas.Decimal

variable {x : ℚ} {num den significand : ℕ} {power : ℤ}

/-! Powers. -/

def IsPower (base : ℕ) (power : ℤ) (quotient : ℕ × ℕ) : Prop :=
  0 < quotient.1 ∧ 0 < quotient.2 ∧ (quotient.1 : ℚ) / quotient.2 = (base : ℚ) ^ power

theorem power_value {base : ℕ} (positive : 0 < base) (power : ℤ) :
    IsPower base power (if power < 0 then (1, Nat.pow base power.natAbs)
      else (Nat.pow base power.natAbs, 1)) := by
  have some : 0 < base ^ power.natAbs := Nat.pow_pos positive
  split_ifs with negative
  · refine ⟨Nat.one_pos, some, ?_⟩
    have same : power = -(power.natAbs : ℤ) := by omega
    rw [Nat.pow_eq, Nat.cast_pow, Nat.cast_one, one_div]
    conv_rhs => rw [same, zpow_neg, zpow_natCast]
  · refine ⟨some, Nat.one_pos, ?_⟩
    have same : power = (power.natAbs : ℤ) := by omega
    rw [Nat.pow_eq, Nat.cast_pow, Nat.cast_one, div_one]
    conv_rhs => rw [same, zpow_natCast]

theorem two_power_value (power : ℤ) : IsPower 2 power (twoPower power) :=
  power_value Nat.two_pos power

theorem ten_power_value (power : ℤ) : IsPower 10 power (tenPower power) :=
  power_value (by decide) power

/-! To the nearest natural number. -/

/-- The natural number is nearest to the rational one; of two of them it is the even one. -/
structure Rounded (x : ℚ) (r : ℕ) : Prop where
  low : (r : ℚ) - 1 / 2 ≤ x
  high : x ≤ r + 1 / 2
  tie : r % 2 = 1 → (r : ℚ) - 1 / 2 < x ∧ x < r + 1 / 2

theorem Rounded.unique {r s : ℕ} (first : Rounded x r) (second : Rounded x s) : r = s := by
  by_contra apart
  wlog less : r < s generalizing r s
  · exact this second first (Ne.symm apart) (by omega)
  have next : (r : ℚ) + 1 ≤ s := by exact_mod_cast less
  have low := second.low
  have high := first.high
  have same : s = r + 1 := by
    have : (s : ℚ) ≤ r + 1 := by linarith
    have : s ≤ r + 1 := by exact_mod_cast this
    omega
  rcases Nat.mod_two_eq_zero_or_one r with even | odd
  · have := (second.tie (by omega)).1
    subst same
    push_cast at this
    linarith
  · have := (first.tie odd).2
    linarith

theorem Rounded.ge {r n : ℕ} (rounded : Rounded x r) (above : (n : ℚ) - 1 / 2 < x) : n ≤ r := by
  have high := rounded.high
  have : (n : ℚ) < (r + 1 : ℕ) := by
    rw [Nat.cast_succ]
    linarith
  exact Nat.lt_succ_iff.mp (by exact_mod_cast this)

theorem Rounded.le {r n : ℕ} (rounded : Rounded x r) (below : x < n + 1 / 2) : r ≤ n := by
  have low := rounded.low
  have : (r : ℚ) < (n + 1 : ℕ) := by
    rw [Nat.cast_succ]
    linarith
  exact Nat.lt_succ_iff.mp (by exact_mod_cast this)

theorem rounded_div (positive : 0 < den) : Rounded (num / den) (roundDiv num den) := by
  have split : (num : ℚ) = den * (num / den : ℕ) + (num % den : ℕ) := by
    exact_mod_cast (Nat.div_add_mod num den).symm
  have less : num % den < den := Nat.mod_lt num positive
  have some : (0 : ℚ) < den := by exact_mod_cast positive
  unfold roundDiv
  generalize num / den = q at split
  generalize num % den = r at split less
  have value : (num : ℚ) / den = q + r / den := by
    rw [split]
    field_simp
  have nonneg : (0 : ℚ) ≤ r / den := by positivity
  have next : ((q + 1 : ℕ) : ℚ) = q + 1 := Nat.cast_succ q
  rw [value]
  dsimp only
  split_ifs with below above
  · have half : (r : ℚ) / den < 1 / 2 := by
      rw [div_lt_div_iff₀ some two_pos]
      exact_mod_cast by omega
    exact ⟨by linarith, by linarith, fun _ => ⟨by linarith, by linarith⟩⟩
  · have half : (1 : ℚ) / 2 < r / den := by
      rw [div_lt_div_iff₀ two_pos some]
      exact_mod_cast by omega
    have whole : (r : ℚ) / den < 1 := by
      rw [div_lt_one some]
      exact_mod_cast less
    exact ⟨by linarith, by linarith, fun _ => ⟨by linarith, by linarith⟩⟩
  · have half : (r : ℚ) / den = 1 / 2 := by
      rw [div_eq_div_iff some.ne' two_ne_zero]
      exact_mod_cast by omega
    rcases Nat.mod_two_eq_zero_or_one q with even | odd
    · rw [half, even, Nat.add_zero]
      exact ⟨by linarith, le_rfl, fun odd => by omega⟩
    · rw [half, odd]
      exact ⟨by linarith, by linarith, fun odd => by omega⟩

theorem rounded_scaled (positive : 0 < den) (power : ℤ) :
    Rounded (num / den / (2 : ℚ) ^ power) (scaledRound num den power) := by
  have some : 0 < 2 ^ power.natAbs := Nat.two_pow_pos _
  unfold scaledRound
  split_ifs with negative
  · have same : power = -(power.natAbs : ℤ) := by omega
    have value : (num : ℚ) / den / (2 : ℚ) ^ power =
        (num * Nat.pow 2 power.natAbs : ℕ) / (den : ℕ) := by
      conv_lhs => rw [same, zpow_neg, zpow_natCast]
      rw [Nat.pow_eq]
      push_cast
      field_simp
    exact value ▸ rounded_div positive
  · have same : power = (power.natAbs : ℤ) := by omega
    have value : (num : ℚ) / den / (2 : ℚ) ^ power =
        (num : ℕ) / (den * Nat.pow 2 power.natAbs : ℕ) := by
      conv_lhs => rw [same, zpow_natCast]
      rw [Nat.pow_eq]
      push_cast
      rw [div_div]
    exact value ▸ rounded_div (Nat.mul_pos positive some)

/-! To the nearest binary number. -/

/-- A significand and an exponent as binary numbers of 64 bits have them: the significand has all of
its 53 bits unless the exponent is the least one. -/
structure Normal (significand : ℕ) (power : ℤ) : Prop where
  below : significand < 2 ^ 53
  bottom : -1074 ≤ power
  full : 2 ^ 52 ≤ significand ∨ power = -1074

/-- The binary number is nearest to the rational one. Below a power of two the numbers stand twice
as close. -/
structure Nearest (x : ℚ) (significand : ℕ) (power : ℤ) : Prop extends
    Normal significand power where
  rounded : Rounded (x / 2 ^ power) significand
  border : significand = 2 ^ 52 → -1074 < power → 2 ^ 52 - 1 / 4 ≤ x / 2 ^ power

theorem two_zpow_pos (power : ℤ) : (0 : ℚ) < 2 ^ power := zpow_pos two_pos power

theorem Nearest.border_le (nearest : Nearest x significand power) (above : -1074 < power) :
    2 ^ 52 - 1 / 4 ≤ x / 2 ^ power := by
  obtain rfl | other := eq_or_ne significand (2 ^ 52)
  · exact nearest.border rfl above
  · have full : 2 ^ 52 + 1 ≤ significand := by
      have := nearest.full.resolve_right (by omega)
      omega
    have full : (2 ^ 52 + 1 : ℚ) ≤ significand := by exact_mod_cast full
    linarith [nearest.rounded.low]

theorem Nearest.unique {other : ℕ} {otherPower : ℤ} (first : Nearest x significand power)
    (second : Nearest x other otherPower) : significand = other ∧ power = otherPower := by
  have same : power = otherPower := by
    by_contra apart
    wlog less : power < otherPower generalizing significand power other otherPower
    · exact this second first (Ne.symm apart) (by omega)
    have high := second.border_le (by have := first.bottom; omega)
    have scaled : 2 * (x / 2 ^ otherPower) ≤ x / 2 ^ power := by
      have step : (2 : ℚ) ^ (1 : ℤ) ≤ 2 ^ (otherPower - power) :=
        zpow_le_zpow_right₀ one_le_two (by omega)
      have split : x / 2 ^ power = x / 2 ^ otherPower * 2 ^ (otherPower - power) := by
        rw [zpow_sub₀ two_ne_zero, div_mul_div_comm, mul_comm, mul_div_mul_left]
        exact (two_zpow_pos _).ne'
      rw [split, mul_comm]
      rw [zpow_one] at step
      exact mul_le_mul_of_nonneg_left step (by linarith)
    have below : (significand : ℚ) ≤ 2 ^ 53 - 1 := by
      have := first.below
      have : significand + 1 ≤ 2 ^ 53 := by omega
      have : (significand : ℚ) + 1 ≤ 2 ^ 53 := by exact_mod_cast this
      linarith
    have near := first.rounded.high
    have last : significand = 2 ^ 53 - 1 := by
      have : (2 : ℚ) ^ 53 ≤ significand + 1 := by linarith
      have : 2 ^ 53 ≤ significand + 1 := by exact_mod_cast this
      have := first.below
      omega
    have := (first.rounded.tie (by rw [last]; rfl)).2
    rw [last] at this
    norm_num at this high
    linarith
  subst same
  exact ⟨first.rounded.unique second.rounded, rfl⟩

theorem log_bounds {n : ℕ} (positive : 0 < n) :
    (2 : ℚ) ^ (Nat.log2 n : ℤ) ≤ n ∧ (n : ℚ) < 2 ^ ((Nat.log2 n : ℤ) + 1) := by
  have low : 2 ^ Nat.log2 n ≤ n := Nat.log2_self_le positive.ne'
  have high : n < 2 ^ (Nat.log2 n + 1) := Nat.lt_log2_self
  constructor
  · rw [zpow_natCast]
    exact_mod_cast low
  · have : (Nat.log2 n : ℤ) + 1 = (Nat.log2 n + 1 : ℕ) := rfl
    rw [this, zpow_natCast]
    exact_mod_cast high

theorem estimate_bounds (some : 0 < num) (positive : 0 < den) :
    let estimate : ℤ := (Nat.log2 num : ℤ) - (Nat.log2 den : ℤ) - 53
    (2 : ℚ) ^ (52 : ℤ) < num / den / 2 ^ estimate ∧
      (num : ℚ) / den / 2 ^ estimate < 2 ^ (54 : ℤ) := by
  obtain ⟨low, high⟩ := log_bounds some
  obtain ⟨low', high'⟩ := log_bounds positive
  have some' : (0 : ℚ) < den := by exact_mod_cast positive
  intro estimate
  constructor
  · rw [lt_div_iff₀ (two_zpow_pos _), lt_div_iff₀ some', ← zpow_add₀ two_ne_zero]
    calc (2 : ℚ) ^ (52 + estimate) * den
        < 2 ^ (52 + estimate) * 2 ^ ((Nat.log2 den : ℤ) + 1) := by gcongr
      _ = 2 ^ (Nat.log2 num : ℤ) := by
        rw [← zpow_add₀ two_ne_zero]
        congr 1
        omega
      _ ≤ num := low
  · rw [div_lt_iff₀ (two_zpow_pos _), div_lt_iff₀ some', ← zpow_add₀ two_ne_zero]
    calc (num : ℚ) < 2 ^ ((Nat.log2 num : ℤ) + 1) := high
      _ = 2 ^ (54 + estimate) * 2 ^ (Nat.log2 den : ℤ) := by
        rw [← zpow_add₀ two_ne_zero]
        congr 1
        omega
      _ ≤ 2 ^ (54 + estimate) * den := by gcongr

theorem div_zpow_succ (x : ℚ) (power : ℤ) : x / 2 ^ (power + 1) = x / 2 ^ power / 2 := by
  rw [zpow_add_one₀ two_ne_zero, div_div]

theorem Rounded.long {y : ℚ} {n : ℕ} (rounded : Rounded y n) (long : ¬ n < Nat.pow 2 53) :
    (2 : ℚ) ^ 53 - 1 / 2 ≤ y := by
  have large : (2 ^ 53 : ℕ) ≤ n := Nat.le_of_not_lt long
  have large : (2 : ℚ) ^ 53 ≤ n := by exact_mod_cast large
  linarith [rounded.low]

section Exponents

variable (bottom : -1074 ≤ power)

include bottom

theorem nearest_short (rounded : Rounded (x / 2 ^ power) significand)
    (short : significand < 2 ^ 53) (full : -1074 < power → (2 : ℚ) ^ 52 < x / 2 ^ power) :
    Nearest x significand power := by
  refine ⟨⟨short, bottom, ?_⟩, rounded, fun _ above => ?_⟩
  · rcases bottom.eq_or_lt with least | above
    · exact .inr least.symm
    · refine .inl (rounded.ge ?_)
      have := full above
      push_cast
      linarith
  · linarith [full above]

theorem nearest_next (long : (2 : ℚ) ^ 53 - 1 / 2 ≤ x / 2 ^ power)
    (rounded : Rounded (x / 2 ^ (power + 1)) significand) (short : significand < 2 ^ 53) :
    Nearest x significand (power + 1) := by
  rw [div_zpow_succ] at rounded
  refine ⟨⟨short, by omega, .inl (rounded.ge ?_)⟩, ?_, fun _ _ => ?_⟩
  · push_cast
    linarith
  · rw [div_zpow_succ]
    exact rounded
  · rw [div_zpow_succ]
    linarith

/-- A significand that is rounded up to one more bit is a power of two. -/
theorem nearest_carried (wide : x / 2 ^ power < 2 ^ 54)
    (rounded : Rounded (x / 2 ^ (power + 1)) significand) (long : ¬ significand < Nat.pow 2 53) :
    Nearest x (significand / 2) (power + 2) := by
  have more := rounded.long long
  rw [div_zpow_succ] at rounded more
  have whole : significand = 2 ^ 53 := by
    refine Nat.le_antisymm (rounded.le ?_) (Nat.le_of_not_lt long)
    push_cast
    linarith
  have scaled : x / 2 ^ (power + 2) = x / 2 ^ power / 2 / 2 := by
    rw [show power + 2 = power + 1 + 1 by ring, div_zpow_succ, div_zpow_succ]
  have half : ((2 ^ 53 / 2 : ℕ) : ℚ) = 2 ^ 52 := by norm_num
  subst whole
  refine ⟨⟨by norm_num, by omega, .inl (by norm_num)⟩, ?_, fun _ _ => ?_⟩
  · rw [scaled]
    exact ⟨by linarith, by linarith, fun odd => by omega⟩
  · rw [scaled]
    linarith

end Exponents

/-- The computed binary number is the nearest one. The first exponent that is tried leaves a
significand of 53 bits, or of one more: then one of the next two exponents is the right one. -/
theorem nearest_binary (some : 0 < num) (positive : 0 < den) :
    Nearest (num / den) (nearestBinary num den).1 (nearestBinary num den).2 := by
  obtain ⟨low, high⟩ := estimate_bounds some positive
  unfold nearestBinary
  generalize (Nat.log2 num : ℤ) - (Nat.log2 den : ℤ) - 53 = estimate at low high
  obtain ⟨power, same⟩ : ∃ power, power = max estimate (-1074) := ⟨_, rfl⟩
  have bottom : -1074 ≤ power := by omega
  have first : Rounded (num / den / 2 ^ power) (scaledRound num den power) :=
    rounded_scaled positive power
  have second : Rounded (num / den / 2 ^ (power + 1)) (scaledRound num den (power + 1)) :=
    rounded_scaled positive (power + 1)
  have wide : (num : ℚ) / den / 2 ^ power < 2 ^ 54 := by
    have : (num : ℚ) / den / 2 ^ power ≤ num / den / 2 ^ estimate := by
      have : (2 : ℚ) ^ estimate ≤ 2 ^ power := zpow_le_zpow_right₀ one_le_two (by omega)
      gcongr
    exact lt_of_le_of_lt this high
  have full (above : -1074 < power) : (2 : ℚ) ^ 52 < num / den / 2 ^ power := by
    have : power = estimate := by omega
    exact this ▸ low
  dsimp only
  rw [← same]
  split_ifs with short next
  · exact nearest_short bottom first short full
  · exact nearest_next bottom (first.long short) second next
  · exact nearest_carried bottom wide second next

end CodeAtlas.Decimal
