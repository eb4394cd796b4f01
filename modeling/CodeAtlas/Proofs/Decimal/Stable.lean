import CodeAtlas.Proofs.Decimal.Shortest

/-! Floating-point numbers are held by decimals that read back as themselves, and the number that a
decimal is read as depends on its value only, not on how many figures it is written with. -/
namespace CodeAtlas.Decimal

variable {digits other : ℕ} {power otherPower : ℤ} {negative : Bool}

def magnitude (digits : ℕ) (power : ℤ) : ℤ := (Nat.toDigits 10 digits).length + power

theorem magnitude_bounds (some : 0 < digits) (power : ℤ) :
    (10 : ℚ) ^ (magnitude digits power - 1) ≤ decimal digits power ∧
      decimal digits power < 10 ^ magnitude digits power := by
  have long : 0 < (Nat.toDigits 10 digits).length := Nat.length_toDigits_pos
  have high : digits < 10 ^ (Nat.toDigits 10 digits).length :=
    (Nat.length_toDigits_le_iff (by decide) long).mp le_rfl
  have low : 10 ^ ((Nat.toDigits 10 digits).length - 1) ≤ digits := by
    by_contra less
    rcases Nat.eq_zero_or_pos ((Nat.toDigits 10 digits).length - 1) with one | more
    · rw [one] at less
      omega
    · have := (Nat.length_toDigits_le_iff (by decide) more).mpr (Nat.lt_of_not_le less)
      omega
  rw [magnitude, decimal]
  generalize (Nat.toDigits 10 digits).length = length at long low high
  constructor
  · have split : (length + power - 1 : ℤ) = (length - 1 : ℕ) + power := by omega
    rw [split, zpow_add₀ (by norm_num), zpow_natCast]
    have := (ten_zpow_pos power).le
    gcongr
    exact_mod_cast low
  · rw [zpow_add₀ (by norm_num), zpow_natCast]
    have := ten_zpow_pos power
    gcongr
    exact_mod_cast high

theorem magnitude_congr (some : 0 < digits) (others : 0 < other)
    (same : decimal digits power = decimal other otherPower) :
    magnitude digits power = magnitude other otherPower := by
  obtain ⟨low, high⟩ := magnitude_bounds some power
  obtain ⟨low', high'⟩ := magnitude_bounds others otherPower
  rw [same] at low high
  have first := (zpow_lt_zpow_iff_right₀ (by norm_num : (1 : ℚ) < 10)).mp (low.trans_lt high')
  have second := (zpow_lt_zpow_iff_right₀ (by norm_num : (1 : ℚ) < 10)).mp (low'.trans_lt high)
  omega

theorem nearest_of_decimal (some : 0 < digits) (power : ℤ) :
    Nearest (decimal digits power)
      (nearestBinary (digits * (tenPower power).1) (tenPower power).2).1
      (nearestBinary (digits * (tenPower power).1) (tenPower power).2).2 := by
  obtain ⟨ten, positive, tens⟩ := ten_power_value power
  have value : decimal digits power =
      (digits * (tenPower power).1 : ℕ) / (tenPower power).2 := by
    rw [decimal, ← Nat.cast_ofNat (n := 10), ← tens]
    push_cast
    exact (mul_div_assoc ..).symm
  rw [value]
  exact nearest_binary (Nat.mul_pos some ten) positive

theorem nearest_of_decimal_eq (some : 0 < digits) {significand : ℕ} {binary : ℤ}
    (nearest : Nearest (decimal digits power) significand binary) :
    nearestBinary (digits * (tenPower power).1) (tenPower power).2 = (significand, binary) := by
  obtain ⟨first, second⟩ := (nearest_of_decimal some power).unique nearest
  exact Prod.ext first second

theorem of_decimal_congr (same : decimal digits power = decimal other otherPower) :
    Real64.ofDecimal negative digits power = Real64.ofDecimal negative other otherPower := by
  have zero (digits : ℕ) (power : ℤ) : decimal digits power = 0 ↔ digits = 0 := by
    rw [decimal, mul_eq_zero, Nat.cast_eq_zero, or_iff_left (ten_zpow_pos power).ne']
  rcases Nat.eq_zero_or_pos digits with none | some
  · have nothing : other = 0 := (zero other otherPower).mp (same ▸ (zero _ _).mpr none)
    rw [Real64.ofDecimal, Real64.ofDecimal, if_pos none, if_pos nothing]
  · have others : 0 < other := by
      refine Nat.pos_of_ne_zero fun nothing => some.ne' ?_
      exact (zero digits power).mp (same ▸ (zero _ _).mpr nothing)
    have sizes : ((Nat.toDigits 10 digits).length + power : ℤ) =
        (Nat.toDigits 10 other).length + otherPower := magnitude_congr some others same
    have nearest := same ▸ nearest_of_decimal others otherPower
    rw [Real64.ofDecimal, Real64.ofDecimal, if_neg some.ne', if_neg others.ne']
    dsimp only
    rw [sizes, nearest_of_decimal_eq some nearest]

theorem two_below_ten : (2 : ℚ) ^ (1116 : ℤ) ≤ 10 ^ (336 : ℤ) := by
  calc (2 : ℚ) ^ (1116 : ℤ) = (2 ^ 93) ^ 12 := by rw [← pow_mul]; rfl
    _ ≤ (10 ^ 28) ^ 12 := pow_le_pow_left₀ (by norm_num) (by norm_num) 12
    _ = 10 ^ (336 : ℤ) := by rw [← pow_mul]; rfl

theorem magnitude_of_nearest (some : 0 < digits) {significand : ℕ} {binary : ℤ}
    (positive : 0 < significand) (top : binary ≤ 971)
    (nearest : Nearest (decimal digits power) significand binary) :
    -400 ≤ magnitude digits power ∧ magnitude digits power ≤ 400 := by
  obtain ⟨least, most⟩ := magnitude_bounds some power
  have unit := two_zpow_pos binary
  have low := (le_div_iff₀ unit).mp nearest.rounded.low
  have high := (div_le_iff₀ unit).mp nearest.rounded.high
  have one : (1 : ℚ) ≤ significand := by exact_mod_cast positive
  constructor
  · have deep : (10 : ℚ) ^ (-336 : ℤ) ≤ 2 ^ (-1116 : ℤ) := by
      rw [zpow_neg, zpow_neg]
      exact (inv_le_inv₀ (ten_zpow_pos _) (two_zpow_pos _)).mpr two_below_ten
    have half : (2 : ℚ) ^ (-1116 : ℤ) ≤ 2 ^ binary * 2 ^ (-1 : ℤ) := by
      rw [← zpow_add₀ two_ne_zero]
      exact zpow_le_zpow_right₀ one_le_two (by have := nearest.bottom; omega)
    have reach : (2 : ℚ) ^ binary * 2 ^ (-1 : ℤ) ≤ decimal digits power := by
      rw [zpow_neg_one]
      nlinarith
    have := (zpow_lt_zpow_iff_right₀ (by norm_num : (1 : ℚ) < 10)).mp
      (((deep.trans half).trans reach).trans_lt most)
    omega
  · have wide : (2 : ℚ) ^ binary * 2 ^ (53 : ℤ) ≤ 2 ^ (1116 : ℤ) := by
      rw [← zpow_add₀ two_ne_zero]
      exact zpow_le_zpow_right₀ one_le_two (by omega)
    have reach : decimal digits power ≤ 2 ^ binary * 2 ^ (53 : ℤ) := by
      have below : (significand : ℚ) + 1 ≤ 2 ^ (53 : ℤ) := by exact_mod_cast nearest.below
      nlinarith
    have := (zpow_le_zpow_iff_right₀ (by norm_num : (1 : ℚ) < 10)).mp
      (((least.trans reach).trans wide).trans two_below_ten)
    omega

theorem of_decimal_nearest (some : 0 < digits) {significand : ℕ} {binary : ℤ}
    (positive : 0 < significand) (top : binary ≤ 971)
    (nearest : Nearest (decimal digits power) significand binary) :
    Real64.ofDecimal negative digits power =
      .finite negative (shortest significand binary).1 (shortest significand binary).2 := by
  obtain ⟨low, high⟩ := magnitude_of_nearest some positive top nearest
  rw [magnitude] at low high
  rw [Real64.ofDecimal, if_neg some.ne']
  dsimp only
  rw [if_neg (by omega), if_neg (by omega), nearest_of_decimal_eq some nearest]
  dsimp only
  rw [if_neg positive.ne', if_neg (by simp; omega)]

end CodeAtlas.Decimal

namespace CodeAtlas

/-- A floating-point number as it is held: a finite one is the shortest decimal of itself. -/
def Real64.Stable : Real64 → Prop
  | finite negative digits exponent =>
    ofDecimal negative digits exponent = finite negative digits exponent
  | infinite _ | notANumber => True

open Decimal in
/-- What decimals are read as is held by decimals that are read as the same. -/
theorem Real64.ofDecimal_stable (negative : Bool) (digits : ℕ) (power : ℤ) :
    (Real64.ofDecimal negative digits power).Stable := by
  have zero : (Real64.finite negative 0 0).Stable := rfl
  rw [ofDecimal]
  split_ifs with none
  · exact zero
  · have some : 0 < digits := Nat.pos_of_ne_zero none
    have nearest := nearest_of_decimal some power
    dsimp only
    generalize nearestBinary (digits * (tenPower power).1) (tenPower power).2 = found at nearest
    obtain ⟨significand, binary⟩ := found
    dsimp only at nearest ⊢
    split_ifs with large small nothing beyond
    · trivial
    · exact zero
    · exact zero
    · trivial
    · have positive : 0 < significand := Nat.pos_of_ne_zero nothing
      have top : binary ≤ 971 := by
        have full := nearest.full
        simp only [Nat.pow_eq, ge_iff_le, gt_iff_lt, Bool.and_eq_true, decide_eq_true_eq,
          not_and] at beyond
        omega
      have reads := shortest_nearest nearest.toNormal positive top
      exact of_decimal_nearest (nearest_positive positive reads) positive top reads

end CodeAtlas
