import CodeAtlas.Proofs.Json.Grammar
import Mathlib.Tactic.IntervalCases

/-! Strings are read as the grammar says. One step of the reader takes one piece, and takes every
piece; so the run up to the closing quote takes the body of the string, and takes every body. -/
namespace CodeAtlas.Json

variable {input text figures after rest : List Char} {c : Char} {n : Nat} {units : Units}

/-! Units. -/

theorem hex_figure_value (figure : HexFigure c n) : hexValue? c = some n := by
  rcases figure with lower | upper
  · have small : n < 16 := (List.getElem?_eq_some_iff.mp lower).1
    interval_cases n <;> (obtain rfl := Option.some.inj lower; rfl)
  · have small : n < 16 := (List.getElem?_eq_some_iff.mp upper).1
    interval_cases n <;> (obtain rfl := Option.some.inj upper; rfl)

theorem char_between {first last : Char} (between : (first ≤ c && c ≤ last) = true) :
    ∃ code, c = Char.ofNat code ∧ c.toNat = code ∧ first.toNat ≤ code ∧ code ≤ last.toNat := by
  obtain ⟨low, high⟩ := Bool.and_eq_true_iff.mp between
  exact ⟨c.toNat, (Char.ofNat_toNat c).symm, rfl, of_decide_eq_true low, of_decide_eq_true high⟩

theorem hex_figure_of_value (value : hexValue? c = some n) : HexFigure c n := by
  unfold hexValue? at value
  split_ifs at value with digit lower upper
  all_goals obtain rfl := Option.some.inj value
  · obtain ⟨code, rfl, same, low, high⟩ := char_between digit
    rw [same]
    change 48 ≤ code at low
    change code ≤ 57 at high
    interval_cases code <;> exact .inl rfl
  · obtain ⟨code, rfl, same, low, high⟩ := char_between lower
    rw [same]
    change 97 ≤ code at low
    change code ≤ 102 at high
    interval_cases code <;> exact .inl rfl
  · obtain ⟨code, rfl, same, low, high⟩ := char_between upper
    rw [same]
    change 65 ≤ code at low
    change code ≤ 70 at high
    interval_cases code <;> exact .inr rfl

theorem hex_unit_iff : hexUnit? input = some (n, rest) ↔
    ∃ figures, input = figures ++ rest ∧ UnitText figures n := by
  constructor
  · intro read
    unfold hexUnit? at read
    split at read
    · next a b c d tail =>
      simp only [Option.bind_eq_bind, Option.bind_eq_some_iff, Option.some.injEq,
        Prod.mk.injEq] at read
      obtain ⟨i, first, j, second, k, third, l, fourth, value, rfl⟩ := read
      refine ⟨[a, b, c, d], rfl, ?_⟩
      obtain rfl : n = ((i * 16 + j) * 16 + k) * 16 + l := by omega
      exact .mk (hex_figure_of_value first) (hex_figure_of_value second)
        (hex_figure_of_value third) (hex_figure_of_value fourth)
    · cases read
  · rintro ⟨figures, rfl, ⟨first, second, third, fourth⟩⟩
    simp only [hexUnit?, List.cons_append, List.nil_append, hex_figure_value first,
      hex_figure_value second, hex_figure_value third, hex_figure_value fourth,
      Option.bind_eq_bind, Option.bind_some, Option.some.injEq, Prod.mk.injEq, and_true]
    omega

/-! Steps. -/

theorem escape_meaning_iff {letter : Char} :
    escapeMeaning? letter = some c ↔ (letter, c) ∈ escapes := by
  constructor
  · intro meaning
    unfold escapeMeaning? at meaning
    split_ifs at meaning <;>
      (obtain rfl := Option.some.inj meaning; subst letter; decide)
  · intro mem
    simp only [escapes, List.mem_cons, Prod.mk.injEq, List.not_mem_nil, or_false] at mem
    rcases mem with ⟨rfl, rfl⟩ | ⟨rfl, rfl⟩ | ⟨rfl, rfl⟩ | ⟨rfl, rfl⟩ | ⟨rfl, rfl⟩ | ⟨rfl, rfl⟩ |
      ⟨rfl, rfl⟩ | ⟨rfl, rfl⟩ <;> rfl

theorem step_of_piece {piece : List Char} (stands : Piece piece units) :
    stringStep (piece ++ after) = some (some units, after) := by
  cases stands with
  | plain visible quote slash =>
    simp [stringStep, slash, Nat.not_lt.mpr visible]
  | letter mem =>
    have apart : ∀ pair ∈ escapes, pair.1 ≠ 'u' := by decide
    simp [stringStep, apart _ mem, escape_meaning_iff.mpr mem]
  | unit written =>
    have unit := hex_unit_iff.mpr ⟨_, (rfl : _ ++ after = _), written⟩
    simp [stringStep, unit]

theorem step_taken {step : Option Units} (taken : stringStep input = some (step, after)) :
    (step = none ∧ input = '"' :: after) ∨
      ∃ piece units, step = some units ∧ input = piece ++ after ∧ Piece piece units := by
  unfold stringStep at taken
  split at taken
  · cases taken
  · cases taken
    exact .inl ⟨rfl, rfl⟩
  · simp only [Option.bind_eq_bind, Option.bind_eq_some_iff, Option.some.injEq,
      Prod.mk.injEq] at taken
    obtain ⟨⟨n, behind⟩, found, rfl, rfl⟩ := taken
    obtain ⟨figures, rfl, written⟩ := hex_unit_iff.mp found
    exact .inr ⟨'\\' :: 'u' :: figures, _, rfl, rfl, .unit written⟩
  · next letter tail other =>
    simp only [Option.bind_eq_bind, Option.bind_eq_some_iff, Option.some.injEq,
      Prod.mk.injEq] at taken
    obtain ⟨meaning, found, rfl, rfl⟩ := taken
    exact .inr ⟨['\\', letter], _, rfl, rfl, .letter (escape_meaning_iff.mp found)⟩
  · cases taken
  · next first tail quote unit letter alone =>
    split_ifs at taken with visible
    obtain ⟨rfl, rfl⟩ := Prod.mk.inj (Option.some.inj taken)
    have slash : first ≠ '\\' := by
      rintro rfl
      cases tail with
      | nil => exact alone rfl rfl
      | cons letter' tail => exact letter _ _ rfl rfl
    exact .inr ⟨[first], _, rfl, rfl, .plain (Nat.not_lt.mp visible) quote slash⟩

/-! Bodies. -/

theorem Piece.nonempty {piece : List Char} (stands : Piece piece units) : 0 < piece.length := by
  cases stands <;> exact Nat.succ_pos _

theorem read_body (body : Body text units) {fuel : Nat} (enough : text.length < fuel) :
    stringBody fuel (text ++ '"' :: rest) = some (units, rest) := by
  induction body generalizing fuel with
  | nil =>
    obtain ⟨fuel, rfl⟩ := Nat.exists_eq_add_of_lt enough
    rfl
  | @cons piece text part units stands body ih =>
    have long := stands.nonempty
    obtain ⟨fuel, rfl⟩ := Nat.exists_eq_succ_of_ne_zero (Nat.ne_of_gt (Nat.zero_lt_of_lt enough))
    rw [List.length_append] at enough
    have first : stringStep (piece ++ (text ++ '"' :: rest)) =
        some (some part, text ++ '"' :: rest) := step_of_piece stands
    have tail := ih (show text.length < fuel by omega)
    simp only [stringBody, List.append_assoc, first, tail, Option.bind_eq_bind, Option.bind_some]

theorem body_of_read {fuel : Nat} (read : stringBody fuel input = some (units, rest)) :
    ∃ text, input = text ++ '"' :: rest ∧ Body text units := by
  induction fuel generalizing input units with
  | zero => cases read
  | succ fuel ih =>
    simp only [stringBody, Option.bind_eq_bind, Option.bind_eq_some_iff] at read
    obtain ⟨⟨step, after⟩, first, read⟩ := read
    obtain ⟨rfl, rfl⟩ | ⟨piece, part, rfl, rfl, stands⟩ := step_taken first
    · cases read
      exact ⟨[], rfl, .nil⟩
    · obtain ⟨⟨tail, behind⟩, second, read⟩ := Option.bind_eq_some_iff.mp read
      cases read
      obtain ⟨text, rfl, body⟩ := ih second
      exact ⟨piece ++ text, by simp, .cons stands body⟩

theorem read_string_iff : readString input = some (units, rest) ↔
    ∃ text, input = text ++ '"' :: rest ∧ Body text units := by
  constructor
  · exact body_of_read
  · rintro ⟨text, rfl, body⟩
    refine read_body body ?_
    rw [List.length_append]
    omega

end CodeAtlas.Json
