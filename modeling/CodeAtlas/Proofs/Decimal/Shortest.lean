import CodeAtlas.Proofs.Decimal.Rounding
import Mathlib.Algebra.Order.Floor.Semifield
import Mathlib.Data.Nat.Cast.Order.Field
import Mathlib.Data.Rat.Floor

/-! The shortest decimal of a binary number reads back as that number. The search tries finer and
finer grids; with seventeen figures a grid is finer than the gap around the number, so the search
finds a point in it. -/
namespace CodeAtlas.Decimal

variable {significand digits : ℕ} {binary power : ℤ}

def decimal (digits : ℕ) (power : ℤ) : ℚ := digits * 10 ^ power

theorem ten_zpow_pos (power : ℤ) : (0 : ℚ) < 10 ^ power := zpow_pos (by norm_num) power

/-! Reading back. -/

theorem quarters (digits : ℕ) (power binary : ℤ) :
    ((digits * (tenPower power).1 * (twoPower (binary - 2)).2 : ℕ) : ℚ) =
      4 * (decimal digits power / 2 ^ binary) *
        ((tenPower power).2 * (twoPower (binary - 2)).1 : ℕ) := by
  obtain ⟨-, ten, tens⟩ := ten_power_value power
  obtain ⟨-, two, twos⟩ := two_power_value (binary - 2)
  have ten' : ((tenPower power).2 : ℚ) ≠ 0 := by exact_mod_cast ten.ne'
  have two' : ((twoPower (binary - 2)).2 : ℚ) ≠ 0 := by exact_mod_cast two.ne'
  have unit : (2 : ℚ) ^ binary ≠ 0 := (two_zpow_pos binary).ne'
  rw [div_eq_iff ten'] at tens
  rw [div_eq_iff two', Nat.cast_ofNat, zpow_sub₀ two_ne_zero] at twos
  push_cast
  rw [tens, twos, decimal, Nat.cast_ofNat]
  field_simp
  norm_num

/-- How many quarters of the unit a number may fall short of a significand: numbers stand closer
below a power of two. -/
def shortfall (significand : ℕ) (binary : ℤ) : ℕ :=
  if significand == Nat.pow 2 52 && binary > -1074 then 1 else 2

theorem shortfall_le (significand : ℕ) (binary : ℤ) : shortfall significand binary ≤ 2 := by
  unfold shortfall
  split_ifs <;> omega

theorem shortfall_border (deep : -1074 < binary) : shortfall (2 ^ 52) binary = 1 :=
  if_pos (by simpa using deep)

theorem shortfall_inside (inside : significand = 2 ^ 52 → binary ≤ -1074) :
    shortfall significand binary = 2 := by
  refine if_neg fun border => ?_
  obtain ⟨whole, deep⟩ := Bool.and_eq_true_iff.mp border
  have shallow := inside (eq_of_beq whole)
  exact absurd (of_decide_eq_true deep) (by omega)

theorem nearest_even_iff {x : ℚ} (normal : Normal significand binary)
    (even : significand % 2 = 0) : Nearest x significand binary ↔
      (4 * significand - shortfall significand binary : ℚ) ≤ 4 * (x / 2 ^ binary) ∧
        4 * (x / 2 ^ binary) ≤ 4 * significand + 2 := by
  have least : (shortfall significand binary : ℚ) ≤ 2 := by exact_mod_cast shortfall_le _ _
  constructor
  · rintro ⟨-, ⟨low, high, -⟩, border⟩
    refine ⟨?_, by linarith⟩
    by_cases close : significand = 2 ^ 52 ∧ -1074 < binary
    · obtain ⟨rfl, deep⟩ := close
      have near := border rfl deep
      rw [shortfall_border deep]
      push_cast
      linarith
    · rw [shortfall_inside fun whole => not_lt.mp fun deep => close ⟨whole, deep⟩]
      push_cast
      linarith
  · rintro ⟨low, high⟩
    refine ⟨normal, ⟨by linarith, by linarith, fun odd => absurd even (by omega)⟩, ?_⟩
    rintro rfl deep
    rw [shortfall_border deep] at low
    push_cast at low
    linarith

theorem nearest_odd_iff {x : ℚ} (normal : Normal significand binary) (odd : significand % 2 = 1) :
    Nearest x significand binary ↔
      (4 * significand - shortfall significand binary : ℚ) < 4 * (x / 2 ^ binary) ∧
        4 * (x / 2 ^ binary) < 4 * significand + 2 := by
  have apart : significand ≠ 2 ^ 52 := by
    rintro rfl
    revert odd
    decide
  rw [shortfall_inside fun whole => absurd whole apart, Nat.cast_ofNat]
  constructor
  · rintro ⟨-, ⟨-, -, tie⟩, -⟩
    obtain ⟨low, high⟩ := tie odd
    exact ⟨by linarith, by linarith⟩
  · rintro ⟨low, high⟩
    refine ⟨normal, ?_, fun border => absurd border apart⟩
    exact ⟨by linarith, by linarith, fun _ => ⟨by linarith, by linarith⟩⟩

theorem reads_back_iff (normal : Normal significand binary) (some : 0 < significand) :
    readsBack significand binary digits power = true ↔
      Nearest (decimal digits power) significand binary := by
  have value := quarters digits power binary
  have positive : (0 : ℚ) < ((tenPower power).2 * (twoPower (binary - 2)).1 : ℕ) := by
    have := Nat.mul_pos (ten_power_value power).2.1 (two_power_value (binary - 2)).1
    exact_mod_cast this
  have low : ((4 * significand - shortfall significand binary : ℕ) : ℚ) =
      4 * significand - shortfall significand binary := by
    have less := shortfall_le significand binary
    push_cast [(by omega : shortfall significand binary ≤ 4 * significand)]
    rfl
  have high : ((4 * significand + 2 : ℕ) : ℚ) = 4 * significand + 2 := by push_cast; rfl
  unfold readsBack
  dsimp only
  rw [← shortfall]
  generalize digits * (tenPower power).1 * (twoPower (binary - 2)).2 = scaled at value
  generalize (tenPower power).2 * (twoPower (binary - 2)).1 = unit at value positive
  have above (k : ℕ) : k * unit ≤ scaled ↔ (k : ℚ) ≤ 4 * (decimal digits power / 2 ^ binary) := by
    rw [← mul_le_mul_iff_left₀ positive, ← value]
    exact_mod_cast Iff.rfl
  have below (k : ℕ) : scaled ≤ k * unit ↔ 4 * (decimal digits power / 2 ^ binary) ≤ k := by
    rw [← mul_le_mul_iff_left₀ positive, ← value]
    exact_mod_cast Iff.rfl
  rcases Nat.mod_two_eq_zero_or_one significand with even | odd
  · rw [nearest_even_iff normal even, even, if_pos (by decide), Bool.and_eq_true,
      decide_eq_true_eq, decide_eq_true_eq, above, below, low, high]
  · rw [nearest_odd_iff normal odd, odd, if_neg (by decide), Bool.and_eq_true, decide_eq_true_eq,
      decide_eq_true_eq, ← not_le, below, ← not_le, above, not_le, not_le, low, high]

/-! The search. -/

theorem Nearest.between {x y z : ℚ} (first : Nearest x significand binary)
    (last : Nearest z significand binary) (low : x ≤ y) (high : y ≤ z) :
    Nearest y significand binary := by
  have low : x / 2 ^ binary ≤ y / 2 ^ binary :=
    div_le_div_of_nonneg_right low (two_zpow_pos _).le
  have high : y / 2 ^ binary ≤ z / 2 ^ binary :=
    div_le_div_of_nonneg_right high (two_zpow_pos _).le
  refine ⟨first.toNormal, ⟨first.rounded.low.trans low, high.trans last.rounded.high, ?_⟩, ?_⟩
  · intro odd
    exact ⟨(first.rounded.tie odd).1.trans_le low, high.trans_lt (last.rounded.tie odd).2⟩
  · intro border above
    exact (first.border border above).trans low

theorem nearest_self (normal : Normal significand binary) :
    Nearest (significand * 2 ^ binary) significand binary := by
  have value : (significand * 2 ^ binary : ℚ) / 2 ^ binary = significand :=
    mul_div_cancel_right₀ _ (two_zpow_pos _).ne'
  refine ⟨normal, ?_, fun border _ => ?_⟩
  · rw [value]
    exact ⟨by linarith, by linarith, fun _ => ⟨by linarith, by linarith⟩⟩
  · rw [value, border]
    norm_num

theorem point_between {step low high : ℚ} (positive : 0 < step) (above : 0 < high)
    (wide : step < high - low) : ∃ point : ℕ, low < point * step ∧ point * step < high := by
  have some : 0 < ⌈high / step⌉₊ := Nat.ceil_pos.mpr (div_pos above positive)
  have reach : high ≤ ⌈high / step⌉₊ * step := (div_le_iff₀ positive).mp (Nat.le_ceil _)
  have short : (⌈high / step⌉₊ - 1) * step < high := by
    have : (⌈high / step⌉₊ : ℚ) < high / step + 1 := Nat.ceil_lt_add_one (div_pos above positive).le
    exact (lt_div_iff₀ positive).mp (by linarith)
  refine ⟨⌈high / step⌉₊ - 1, ?_, ?_⟩
  · rw [Nat.cast_pred some]
    linarith
  · rwa [Nat.cast_pred some]

/-- A grid of seventeen figures has a point that reads back: it is finer than the gap between the
neighbours of the number. -/
theorem grid_point (normal : Normal significand binary) (some : 0 < significand)
    (fine : decimal (10 ^ 16) power ≤ significand * 2 ^ binary) :
    ∃ point : ℕ, Nearest (decimal point power) significand binary := by
  have unit := two_zpow_pos binary
  have some : (0 : ℚ) < significand := by exact_mod_cast some
  obtain ⟨gap, wide, half, quarter⟩ : ∃ gap : ℚ,
      (10 : ℚ) ^ power < (significand + 1 / 2) * 2 ^ binary - (significand - gap) * 2 ^ binary ∧
        gap ≤ 1 / 2 ∧ (significand = 2 ^ 52 → gap ≤ 1 / 4) := by
    rw [decimal] at fine
    push_cast at fine
    by_cases border : significand = 2 ^ 52
    · refine ⟨1 / 4, ?_, by norm_num, fun _ => le_rfl⟩
      rw [border] at fine ⊢
      push_cast at fine ⊢
      linarith
    · refine ⟨1 / 2, ?_, le_rfl, fun same => absurd same border⟩
      have below : (significand : ℚ) < 2 ^ 53 := by exact_mod_cast normal.below
      have : significand * (2 : ℚ) ^ binary < 2 ^ 53 * 2 ^ binary := by gcongr
      linarith
  obtain ⟨point, low, high⟩ := point_between (ten_zpow_pos power) (by positivity) wide
  have low : significand - gap < decimal point power / 2 ^ binary := (lt_div_iff₀ unit).mpr low
  have high : decimal point power / 2 ^ binary < significand + 1 / 2 := (div_lt_iff₀ unit).mpr high
  refine ⟨point, normal, ⟨by linarith, by linarith, fun _ => ⟨by linarith, by linarith⟩⟩, ?_⟩
  intro border _
  have gap := quarter border
  rw [border] at low
  push_cast at low
  linarith

theorem strip_zeros_value (digits : ℕ) (power : ℤ) (fuel : ℕ) :
    decimal (stripZeros digits power fuel).1 (stripZeros digits power fuel).2 =
      decimal digits power := by
  induction fuel generalizing digits power with
  | zero => rfl
  | succ fuel ih =>
    rw [stripZeros]
    split_ifs with zero
    · obtain ⟨-, multiple⟩ := Bool.and_eq_true_iff.mp zero
      have multiple : digits % 10 = 0 := eq_of_beq multiple
      obtain ⟨tens, rfl⟩ := Nat.dvd_of_mod_eq_zero multiple
      rw [ih, Nat.mul_div_cancel_left tens (by decide), decimal, decimal,
        zpow_add_one₀ (by norm_num)]
      push_cast
      ring
    · rfl

theorem quotient_bounds {den : ℕ} (positive : 0 < den) (num : ℕ) :
    ((num / den : ℕ) : ℚ) ≤ num / den ∧ (num : ℚ) / den < (num / den : ℕ) + 1 := by
  refine ⟨Nat.cast_div_le, ?_⟩
  rw [div_lt_iff₀ (by exact_mod_cast positive), mul_comm]
  exact_mod_cast Nat.lt_mul_div_succ num positive

theorem grid_neighbours (significand : ℕ) (binary power : ℤ) :
    let floor := significand * (twoPower binary).1 * (tenPower power).2 /
      ((twoPower binary).2 * (tenPower power).1)
    decimal floor power ≤ significand * 2 ^ binary ∧
      significand * 2 ^ binary < decimal (floor + 1) power := by
  obtain ⟨two, two', twos⟩ := two_power_value binary
  obtain ⟨ten, ten', tens⟩ := ten_power_value power
  intro floor
  have two'' : ((twoPower binary).2 : ℚ) ≠ 0 := by exact_mod_cast two'.ne'
  have ten'' : ((tenPower power).2 : ℚ) ≠ 0 := by exact_mod_cast ten'.ne'
  have positive : 0 < (twoPower binary).2 * (tenPower power).1 := Nat.mul_pos two' ten
  have value : (significand * 2 ^ binary : ℚ) =
      (significand * (twoPower binary).1 * (tenPower power).2 : ℕ) /
        ((twoPower binary).2 * (tenPower power).1 : ℕ) * 10 ^ power := by
    have some : ((tenPower power).1 : ℚ) ≠ 0 := by exact_mod_cast ten.ne'
    rw [Nat.cast_ofNat] at twos tens
    rw [← twos, ← tens]
    push_cast
    field_simp
  have step := ten_zpow_pos power
  obtain ⟨below, above⟩ := quotient_bounds positive
    (significand * (twoPower binary).1 * (tenPower power).2)
  rw [value, decimal, decimal, Nat.cast_succ]
  exact ⟨by gcongr, by gcongr⟩

theorem nearest_positive (some : 0 < significand)
    (nearest : Nearest (decimal digits power) significand binary) : 0 < digits := by
  by_contra none
  have zero : digits = 0 := by omega
  have low := nearest.rounded.low
  rw [decimal, zero, Nat.cast_zero, zero_mul, zero_div] at low
  have : (1 : ℚ) ≤ significand := by exact_mod_cast some
  linarith

theorem neighbour_reads_back (normal : Normal significand binary) (some : 0 < significand)
    {floor : ℕ} (low : decimal floor power ≤ significand * 2 ^ binary)
    (high : significand * 2 ^ binary < decimal (floor + 1) power)
    (found : ∃ point, Nearest (decimal point power) significand binary) :
    ((floor != 0 && readsBack significand binary floor power) ||
      readsBack significand binary (floor + 1) power) = true := by
  obtain ⟨point, nearest⟩ := found
  have step := ten_zpow_pos power
  rw [Bool.or_eq_true, Bool.and_eq_true, bne_iff_ne, reads_back_iff normal some,
    reads_back_iff normal some]
  rcases le_or_gt point floor with below | above
  · have under : decimal point power ≤ decimal floor power := by
      have : (point : ℚ) ≤ floor := by exact_mod_cast below
      unfold decimal
      gcongr
    have reads := nearest.between (nearest_self normal) under low
    exact .inl ⟨(nearest_positive some reads).ne', reads⟩
  · have beyond : decimal (floor + 1) power ≤ decimal point power := by
      have : ((floor + 1 : ℕ) : ℚ) ≤ point := by exact_mod_cast above
      unfold decimal
      gcongr
    exact .inr ((nearest_self normal).between nearest high.le beyond)

theorem shortest_from_nearest (normal : Normal significand binary) (some : 0 < significand)
    {order : ℤ} (ordered : (10 : ℚ) ^ order ≤ significand * 2 ^ binary) {count fuel : ℕ}
    (early : count ≤ 17) (enough : 17 < count + fuel) :
    Nearest (decimal (shortestFrom significand binary order count fuel).1
      (shortestFrom significand binary order count fuel).2) significand binary := by
  induction fuel generalizing count with
  | zero => omega
  | succ fuel ih =>
    obtain ⟨low, high⟩ := grid_neighbours significand binary (order - count + 1)
    rw [shortestFrom]
    dsimp only
    generalize significand * (twoPower binary).1 * (tenPower (order - count + 1)).2 /
      ((twoPower binary).2 * (tenPower (order - count + 1)).1) = floor at low high
    split_ifs with found high'
    · rw [strip_zeros_value]
      exact (reads_back_iff normal some).mp (Bool.and_eq_true_iff.mp high').1
    · rw [strip_zeros_value]
      have lower :
          (floor != 0 && readsBack significand binary floor (order - count + 1)) = true := by
        by_contra none
        rw [Bool.not_eq_true] at none
        simp_all
      exact (reads_back_iff normal some).mp (Bool.and_eq_true_iff.mp lower).2
    · refine ih ?_ (by omega)
      by_contra late
      have last : count = 17 := by omega
      refine found (neighbour_reads_back normal some low high (grid_point normal some ?_))
      rw [last, decimal, Nat.cast_pow, Nat.cast_ofNat, ← zpow_natCast,
        ← zpow_add₀ (by norm_num)]
      refine le_trans (le_of_eq ?_) ordered
      congr 1
      omega

/-! Where the search begins. -/

theorem decimal_order_le {num den : ℕ} (positive : 0 < den) {start : ℤ}
    (low : (10 : ℚ) ^ start ≤ num / den) (fuel : ℕ) :
    (10 : ℚ) ^ decimalOrder num den start fuel ≤ num / den := by
  induction fuel generalizing start with
  | zero => exact low
  | succ fuel ih =>
    obtain ⟨ten, ten', tens⟩ := ten_power_value (start + 1)
    rw [decimalOrder]
    dsimp only
    split_ifs with fits
    · refine ih ?_
      rw [Nat.cast_ofNat] at tens
      rw [← tens, div_le_div_iff₀ (by exact_mod_cast ten') (by exact_mod_cast positive)]
      exact_mod_cast fits
    · exact low

/-- The logarithm is estimated from below, as far as the exponents go: a thousand is less than
`2 ^ 10`, and `10 ^ 28` is more than `2 ^ 93`. -/
theorem estimate_le {bits : ℤ} (low : -1100 ≤ bits) (high : bits ≤ 1100) :
    (10 : ℚ) ^ ((bits - 1) * 30103 / 100000 - 2) ≤ 2 ^ bits := by
  generalize same : (bits - 1) * 30103 / 100000 - 2 = start
  rcases le_or_gt 0 bits with positive | negative
  · have less : start * (10 : ℕ) ≤ (3 : ℕ) * bits := by omega
    refine le_of_pow_le_pow_left₀ (by decide : 10 ≠ 0) (two_zpow_pos bits).le ?_
    calc ((10 : ℚ) ^ start) ^ 10 = 10 ^ (start * (10 : ℕ)) := by rw [zpow_mul, zpow_natCast]
      _ ≤ 10 ^ ((3 : ℕ) * bits) := zpow_le_zpow_right₀ (by norm_num) less
      _ = (10 ^ 3) ^ bits := by rw [zpow_mul, zpow_natCast]
      _ ≤ (2 ^ 10) ^ bits := zpow_le_zpow_left₀ positive (by norm_num) (by norm_num)
      _ = (2 ^ bits) ^ 10 := zpow_comm 2 10 bits
  · have less : start * (93 : ℕ) ≤ (28 : ℕ) * bits := by omega
    refine le_of_pow_le_pow_left₀ (by decide : 93 ≠ 0) (two_zpow_pos bits).le ?_
    calc ((10 : ℚ) ^ start) ^ 93 = 10 ^ (start * (93 : ℕ)) := by rw [zpow_mul, zpow_natCast]
      _ ≤ 10 ^ ((28 : ℕ) * bits) := zpow_le_zpow_right₀ (by norm_num) less
      _ = (10 ^ 28) ^ bits := by rw [zpow_mul, zpow_natCast]
      _ ≤ (2 ^ 93) ^ bits := by
        have larger : ((2 : ℚ) ^ 93) ^ (-bits) ≤ (10 ^ 28) ^ (-bits) :=
          zpow_le_zpow_left₀ (by omega) (by norm_num) (by norm_num)
        rw [zpow_neg, zpow_neg] at larger
        exact (inv_le_inv₀ (by positivity) (by positivity)).mp larger
      _ = (2 ^ bits) ^ 93 := zpow_comm 2 93 bits

theorem two_power_den (power : ℤ) :
    ((twoPower power).2 : ℚ) = 2 ^ (Nat.log2 (twoPower power).2 : ℤ) := by
  rw [twoPower]
  split_ifs
  · change ((2 ^ power.natAbs : ℕ) : ℚ) = 2 ^ (Nat.log2 (2 ^ power.natAbs) : ℤ)
    rw [Nat.log2_two_pow, zpow_natCast]
    push_cast
    rfl
  · rfl

theorem bits_within {bits : ℤ} (normal : Normal significand binary) (some : 0 < significand)
    (top : binary ≤ 971) (least : (2 : ℚ) ^ bits ≤ significand * 2 ^ binary)
    (most : (significand * 2 ^ binary : ℚ) < 2 ^ (bits + 1)) : -1074 < bits + 1 ∧ bits < 1024 := by
  constructor
  · refine (zpow_lt_zpow_iff_right₀ one_lt_two).mp (lt_of_le_of_lt ?_ most)
    have one : (1 : ℚ) ≤ significand := by exact_mod_cast some
    have : (2 : ℚ) ^ (-1074 : ℤ) ≤ 2 ^ binary := zpow_le_zpow_right₀ one_le_two normal.bottom
    nlinarith [two_zpow_pos binary]
  · refine (zpow_lt_zpow_iff_right₀ one_lt_two).mp (lt_of_le_of_lt least ?_)
    have below : (significand : ℚ) < 2 ^ (53 : ℤ) := by exact_mod_cast normal.below
    have : (2 : ℚ) ^ binary ≤ 2 ^ (971 : ℤ) := zpow_le_zpow_right₀ one_le_two top
    calc (significand : ℚ) * 2 ^ binary < 2 ^ (53 : ℤ) * 2 ^ binary := by gcongr
      _ ≤ 2 ^ (53 : ℤ) * 2 ^ (971 : ℤ) := by gcongr
      _ = 2 ^ (1024 : ℤ) := by rw [← zpow_add₀ two_ne_zero]; rfl

/-- The shortest decimal reads back as its binary number. -/
theorem shortest_nearest (normal : Normal significand binary) (some : 0 < significand)
    (top : binary ≤ 971) :
    Nearest (decimal (shortest significand binary).1 (shortest significand binary).2)
      significand binary := by
  obtain ⟨two, positive, twos⟩ := two_power_value binary
  have den := two_power_den binary
  have value : (significand * 2 ^ binary : ℚ) =
      (significand * (twoPower binary).1 : ℕ) / (twoPower binary).2 := by
    rw [Nat.cast_ofNat] at twos
    rw [← twos]
    push_cast
    exact (mul_div_assoc ..).symm
  obtain ⟨low, high⟩ := log_bounds (Nat.mul_pos some two)
  rw [shortest]
  dsimp only
  generalize significand * (twoPower binary).1 = num at value low high
  generalize (twoPower binary).2 = d at value den positive
  obtain ⟨bits, same⟩ : ∃ bits : ℤ, bits = Nat.log2 num - Nat.log2 d := ⟨_, rfl⟩
  have least : (2 : ℚ) ^ bits ≤ significand * 2 ^ binary := by
    rw [value, same, zpow_sub₀ two_ne_zero, ← den]
    gcongr
  have most : (significand * 2 ^ binary : ℚ) < 2 ^ (bits + 1) := by
    rw [value, same, sub_add_eq_add_sub, zpow_sub₀ two_ne_zero, ← den]
    gcongr
  obtain ⟨deep, wide⟩ := bits_within normal some top least most
  have start := (estimate_le (by omega) (by omega)).trans least
  rw [value] at start
  have ordered := decimal_order_le positive start 8
  rw [← value] at ordered
  rw [← same]
  exact shortest_from_nearest normal some ordered (by decide) (by decide)

end CodeAtlas.Decimal
