import CodeAtlas.Proofs.Json.Proper
import Mathlib.Tactic.IntervalCases

/-! Numbers are written in figures that read back as the same numbers: integers in all their
figures, floating-point numbers in those of their shortest decimal. -/
namespace CodeAtlas.Json

open CodeAtlas.Decimal

variable {most digits n levels : Nat} {bounds : Bounds} {exponent : Int} {negative : Bool}

/-! Integers. -/

theorem digits_value_digits (n : Nat) : digitsValue (Nat.toDigits 10 n) = n :=
  Nat.ofDigitChars_toDigits (by decide) (by decide)

theorem digits_are_digits (n : Nat) : ∀ c ∈ Nat.toDigits 10 n, c.isDigit = true :=
  fun _ mem => Nat.isDigit_of_mem_toDigits (by decide) (by decide) mem

theorem digits_head (positive : 0 < n) : (Nat.toDigits 10 n).head? ≠ some '0' := by
  induction n using Nat.strongRecOn with
  | _ n ih =>
    rw [Nat.toDigits_eq_if (by decide)]
    split_ifs with small
    · interval_cases n <;> decide
    · rw [List.head?_append_of_ne_nil _ Nat.toDigits_ne_nil]
      exact ih (n / 10) (by omega) (by omega)

theorem whole_digits (n : Nat) : Whole (Nat.toDigits 10 n) := by
  rcases Nat.eq_zero_or_pos n with rfl | positive
  · exact .inl rfl
  · exact .inr ⟨⟨Nat.toDigits_ne_nil, digits_are_digits n⟩, digits_head positive⟩

theorem int_value {value : Int} (short : (figuresOf value).length ≤ bounds.figures) :
    Value bounds levels (toString value).toList (.int value) := by
  refine .number ?_
  cases value with
  | ofNat n =>
    have number := Number.plain (.whole (whole_digits n) short)
    rw [digits_value_digits] at number
    change Number bounds.figures (Nat.repr n).toList _
    rw [Nat.toList_repr]
    exact number
  | negSucc n =>
    have number := Number.minus (.whole (whole_digits (n + 1)) short)
    rw [digits_value_digits] at number
    change Number bounds.figures ("-" ++ Nat.repr (n + 1)).toList _
    rw [String.toList_append, Nat.toList_repr]
    exact number

/-! Floating-point numbers. -/

theorem digits_value_append (front back : List Char) :
    digitsValue (front ++ back) = 10 ^ back.length * digitsValue front + digitsValue back :=
  (Nat.ofDigitChars_append 0).trans Nat.ofDigitChars_eq_ofDigitChars_zero

theorem digits_value_zeros (count : Nat) : digitsValue (List.replicate count '0') = 0 :=
  Nat.ofDigitChars_replicate_zero

theorem digits_value_lt {figures : List Char} (digits : ∀ c ∈ figures, c.isDigit = true) :
    digitsValue figures < 10 ^ figures.length := by
  induction figures with
  | nil => decide
  | cons c figures ih =>
    obtain ⟨digit, digits⟩ := List.forall_mem_cons.mp digits
    have first : digitsValue [c] ≤ 9 := by
      simp only [Char.isDigit, Bool.and_eq_true, decide_eq_true_eq] at digit
      have low : c.toNat ≤ 57 := digit.2
      simp only [digitsValue, List.foldl_cons, List.foldl_nil]
      omega
    have rest := ih digits
    rw [← List.singleton_append, digits_value_append, List.length_append, List.length_singleton,
      Nat.pow_add]
    nlinarith

theorem unsigned_of_value {value : Real64}
    (held : Real64.ofDecimal negative digits exponent = value)
    {figures point fraction mark : List Char} {written : Option Int} (whole : Whole figures)
    (pointed : Fraction point fraction) (marked : Exponent mark written) (some : point ++ mark ≠ [])
    (same : decimal (digitsValue (figures ++ fraction)) (written.getD 0 - fraction.length) =
      decimal digits exponent) :
    Unsigned most negative (figures ++ (point ++ mark)) (.real value) := by
  rw [← held, ← of_decimal_congr same]
  exact .real whole pointed marked some

theorem pointed_text {value : Real64} (held : Real64.ofDecimal negative digits exponent = value)
    {front back : List Char} (whole : Whole front) (figures : ∀ c ∈ back, c.isDigit = true)
    (same : decimal (digitsValue (front ++ back)) (-back.length) = decimal digits exponent) :
    Unsigned most negative (front ++ '.' :: (if back.isEmpty then ['0'] else back))
      (.real value) := by
  cases back with
  | nil =>
    have pointed : Fraction ['.', '0'] ['0'] := .some ⟨by simp, by simp⟩
    refine unsigned_of_value held whole pointed .none (by simp) ?_
    rw [← same, digits_value_append, decimal, decimal]
    simp [digitsValue, zpow_neg]
    ring
  | cons c back =>
    have pointed : Fraction ('.' :: c :: back) (c :: back) := .some ⟨by simp, figures⟩
    have read : Unsigned most negative (front ++ ('.' :: c :: back ++ [])) (.real value) :=
      unsigned_of_value held whole pointed .none (by simp) (by rw [← same]; simp)
    simpa using read

theorem zero_text {value : Real64} (held : Real64.ofDecimal negative 0 exponent = value) :
    Unsigned most negative "0.0".toList (.real value) := by
  have figures : ∀ c ∈ ([] : List Char), c.isDigit = true := by simp
  exact pointed_text held (.inl rfl) figures (by simp [decimal, digitsValue])

theorem below_one_text {value : Real64} (held : Real64.ofDecimal negative digits exponent = value)
    (order : Int) (low : order < 0)
    (height : order = (Nat.toDigits 10 digits).length + exponent - 1) :
    Unsigned most negative
      ('0' :: '.' :: (List.replicate (order.natAbs - 1) '0' ++ Nat.toDigits 10 digits))
      (.real value) := by
  have figures : ∀ c ∈ List.replicate (order.natAbs - 1) '0' ++ Nat.toDigits 10 digits,
      c.isDigit = true := by
    intro c mem
    rcases List.mem_append.mp mem with zero | figure
    · rw [(List.mem_replicate.mp zero).2]
      decide
    · exact digits_are_digits digits c figure
  have places :
      (-((List.replicate (order.natAbs - 1) '0' ++ Nat.toDigits 10 digits).length : Int)) =
      exponent := by
    rw [List.length_append, List.length_replicate]
    push_cast
    omega
  have zero : Whole ['0'] := .inl rfl
  have read : Unsigned most negative _ (.real value) := pointed_text held zero figures (by
    rw [places, digits_value_append, digits_value_append, digits_value_zeros, digits_value_digits]
    simp [digitsValue])
  have some : Nat.toDigits 10 digits ≠ [] := Nat.toDigits_ne_nil
  simpa [some] using read

theorem above_one_text {value : Real64} (held : Real64.ofDecimal negative digits exponent = value)
    (positive : 0 < digits) (whole : Nat) (one : 0 < whole)
    (height : (whole : Int) = (Nat.toDigits 10 digits).length + exponent) :
    let padded := Nat.toDigits 10 digits ++
      List.replicate (whole - (Nat.toDigits 10 digits).length) '0'
    Unsigned most negative
      (padded.take whole ++
        '.' :: (if (padded.drop whole).isEmpty then ['0'] else padded.drop whole))
      (.real value) := by
  intro padded
  have figures : ∀ c ∈ padded, c.isDigit = true := by
    intro c mem
    rcases List.mem_append.mp mem with figure | zero
    · exact digits_are_digits digits c figure
    · rw [(List.mem_replicate.mp zero).2]
      decide
  have first : (padded.take whole).head? ≠ some '0' := by
    rw [List.head?_take, if_neg one.ne', List.head?_append_of_ne_nil _ Nat.toDigits_ne_nil]
    exact digits_head positive
  have size : padded.length = max (Nat.toDigits 10 digits).length whole := by
    rw [List.length_append, List.length_replicate]
    omega
  have front : Whole (padded.take whole) := by
    refine .inr ⟨⟨fun none => ?_, fun c mem => figures c (List.mem_of_mem_take mem)⟩, first⟩
    have := congrArg List.length none
    rw [List.length_take, List.length_nil, size] at this
    omega
  refine pointed_text held front (fun c mem => figures c (List.mem_of_mem_drop mem)) ?_
  rw [List.take_append_drop, List.length_drop, size, digits_value_append, digits_value_zeros,
    digits_value_digits, List.length_replicate, decimal, decimal]
  push_cast
  rw [add_zero, mul_comm ((10 : ℚ) ^ _), mul_assoc, ← zpow_natCast, ← zpow_add₀ (by norm_num)]
  congr 2
  omega

theorem exponent_mark (order : Int) :
    let power := Nat.toDigits 10 order.natAbs
    Exponent ('e' :: (if order < 0 then '-' else '+') ::
      (if power.length < 2 then '0' :: power else power)) (some order) := by
  intro power
  have given := digits_are_digits order.natAbs
  have padded : Figures (if power.length < 2 then '0' :: power else power) := by
    split_ifs with short
    · exact ⟨by simp, by simpa using given⟩
    · exact ⟨Nat.toDigits_ne_nil, given⟩
  have size : digitsValue (if power.length < 2 then '0' :: power else power) = order.natAbs := by
    split_ifs with short
    · rw [← List.singleton_append, digits_value_append, digits_value_digits]
      simp [digitsValue]
    · exact digits_value_digits _
  generalize (if power.length < 2 then '0' :: power else power) = figures at padded size
  by_cases below : order < 0
  · have mark : Exponent ('e' :: (['-'] ++ figures)) (some (-1 * digitsValue figures)) :=
      .some (by decide) (by decide) padded
    rw [size, show (-1 * order.natAbs : Int) = order by omega] at mark
    rwa [if_pos below]
  · have mark : Exponent ('e' :: (['+'] ++ figures)) (some (1 * digitsValue figures)) :=
      .some (by decide) (by decide) padded
    rw [size, show (1 * order.natAbs : Int) = order by omega] at mark
    rwa [if_neg below]

theorem mantissa_text (positive : 0 < digits) :
    ∃ first rest point, Nat.toDigits 10 digits = first :: rest ∧ Whole [first] ∧
      Fraction point rest ∧
      (match Nat.toDigits 10 digits with
        | first :: second :: rest => first :: '.' :: second :: rest
        | short => short) = [first] ++ point := by
  have head := digits_head positive
  have digit := digits_are_digits digits
  cases split : Nat.toDigits 10 digits with
  | nil => exact absurd split Nat.toDigits_ne_nil
  | cons first rest =>
    rw [split] at head digit
    have whole : Whole [first] := .inr ⟨⟨by simp, by simpa using digit first (by simp)⟩, head⟩
    cases rest with
    | nil => exact ⟨first, [], [], rfl, whole, .none, rfl⟩
    | cons second rest =>
      have figures : Figures (second :: rest) :=
        ⟨by simp, fun c mem => digit c (List.mem_cons_of_mem first mem)⟩
      exact ⟨first, second :: rest, _, rfl, whole, .some figures, rfl⟩

theorem exponent_text {value : Real64} (held : Real64.ofDecimal negative digits exponent = value)
    (positive : 0 < digits) (order : Int)
    (height : order = (Nat.toDigits 10 digits).length + exponent - 1) :
    let power := Nat.toDigits 10 order.natAbs
    let mantissa := match Nat.toDigits 10 digits with
      | first :: second :: rest => first :: '.' :: second :: rest
      | short => short
    Unsigned most negative
      (mantissa ++ 'e' :: (if order < 0 then '-' else '+') ::
        (if power.length < 2 then '0' :: power else power)) (.real value) := by
  intro power mantissa
  obtain ⟨first, rest, point, split, whole, pointed, shape⟩ := mantissa_text positive
  have size : digitsValue ([first] ++ rest) = digits := by
    rw [List.singleton_append, ← split, digits_value_digits]
  rw [show mantissa = [first] ++ point from shape, List.append_assoc]
  refine unsigned_of_value held whole pointed (exponent_mark order) (by simp) ?_
  rw [split, List.length_cons] at height
  rw [size, Option.getD_some]
  congr 1
  omega

/-- A finite number is written as its sign and figures of its value. -/
theorem render_finite {value : Real64} (held : Real64.ofDecimal negative digits exponent = value) :
    ∃ text, (Real64.finite negative digits exponent).render =
        (if negative then "-" else "") ++ String.ofList text ∧
      Unsigned most negative text (.real value) := by
  rcases Nat.eq_zero_or_pos digits with rfl | positive
  · exact ⟨"0.0".toList, rfl, zero_text held⟩
  · rw [Real64.render]
    dsimp only
    rw [if_neg positive.ne']
    refine ⟨_, rfl, ?_⟩
    generalize height : ((Nat.toDigits 10 digits).length + exponent - 1 : Int) = order
    by_cases usual : (decide (-4 ≤ order) && decide (order < 16)) = true
    · rw [if_pos usual]
      by_cases below : order < 0
      · rw [if_pos below]
        exact below_one_text held order below height.symm
      · rw [if_neg below]
        exact above_one_text held positive (order.natAbs + 1) (by omega) (by omega)
    · rw [if_neg usual]
      exact exponent_text held positive order height.symm

theorem real_value {value : Real64} (stable : value.Stable)
    (enough : Json.levels bounds.constant (.real value : Written) ≤ levels) :
    Value bounds levels (realText value) (.real value) := by
  cases value with
  | notANumber => exact .constant (show ("NaN", _) ∈ constants by simp [constants]) enough
  | infinite negative =>
    cases negative with
    | true => exact .constant (show ("-Infinity", _) ∈ constants by simp [constants]) enough
    | false => exact .constant (show ("Infinity", _) ∈ constants by simp [constants]) enough
  | finite negative digits exponent =>
    obtain ⟨text, written, read⟩ := render_finite stable
    refine .number ?_
    change Number bounds.figures (Real64.finite negative digits exponent).render.toList _
    rw [written]
    cases negative with
    | true => simpa using Number.minus read
    | false => simpa using Number.plain read

end CodeAtlas.Json
