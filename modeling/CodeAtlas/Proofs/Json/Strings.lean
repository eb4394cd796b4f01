import CodeAtlas.Proofs.Json.Units

/-! Strings of both written forms read back: every escape is one piece of a string, whatever follows
it, so a written string ends where it says it does and determines the text. -/
namespace CodeAtlas.Json

/-! Escapes. -/

theorem hex_figure_digit {n : Nat} (h : n < 16) : HexFigure (hexDigit n) n := by
  interval_cases n <;> exact .inl rfl

theorem unit_escape_piece {n : Nat} (h : n < 0x10000) : Piece (unitEscape n) [.ofNat n] := by
  have digit (m : Nat) : HexFigure (hexDigit (m % 16)) (m % 16) :=
    hex_figure_digit (Nat.mod_lt m (by decide))
  have whole : ((n / 4096 % 16 * 16 + n / 256 % 16) * 16 + n / 16 % 16) * 16 + n % 16 = n := by
    omega
  have written := UnitText.mk (digit (n / 4096)) (digit (n / 256)) (digit (n / 16)) (digit n)
  rw [whole] at written
  exact .unit written

theorem short_escape_piece {c letter : Char} (h : shortEscape? c = some letter) :
    Piece ['\\', letter] (charUnits c) := by
  unfold shortEscape? at h
  split_ifs at h
  all_goals
    obtain rfl := Option.some.inj h
    subst c
    exact .letter (by decide)

theorem char_of_small {n : Nat} (small : n < 0xD800) : (Char.ofNat n).toNat = n := by
  rw [Char.ofNat, dif_pos (.inl small)]
  rfl

theorem char_units_small {n : Nat} (small : n < 0xD800) :
    charUnits (Char.ofNat n) = [.ofNat n] := by
  rw [charUnits, char_of_small small, if_pos (by omega)]

theorem plain_piece {c : Char} (visible : ¬ c.toNat < 0x20) (long : shortEscape? c = none) :
    Piece [c] (charUnits c) := by
  have quote : c ≠ '"' := fun eq => by simp [eq, shortEscape?] at long
  have backslash : c ≠ '\\' := fun eq => by simp [eq, shortEscape?] at long
  exact .plain (Nat.not_lt.mp visible) quote backslash

theorem compact_escape_piece (c : Char) : Piece (compactEscape c) (charUnits c) := by
  unfold compactEscape
  cases short : shortEscape? c with
  | some letter => exact short_escape_piece short
  | none =>
    dsimp only
    split_ifs with control
    · have piece := unit_escape_piece (show c.toNat < 0x10000 by omega)
      rwa [← char_units_small (by omega), Char.ofNat_toNat] at piece
    · exact plain_piece control short

theorem ascii_escape_piece (unit : UInt16) : Piece (asciiEscape unit) [unit] := by
  have escaped := unit_escape_piece unit.toNat_lt
  rw [UInt16.ofNat_toNat] at escaped
  rw [asciiEscape]
  by_cases printable : unit.toNat < 0x7F
  · have alone : charUnits (Char.ofNat unit.toNat) = [unit] := by
      rw [char_units_small (by omega), UInt16.ofNat_toNat]
    rw [if_pos printable]
    cases short : shortEscape? (Char.ofNat unit.toNat) with
    | some letter => exact alone ▸ short_escape_piece short
    | none =>
      dsimp only
      split_ifs with control
      · exact escaped
      · refine alone ▸ plain_piece ?_ short
        rwa [char_of_small (by omega)]
  · rwa [if_neg printable]

/-! Strings. -/

theorem body_of_pieces {α : Type} {escape : α → List Char} {unitsOf : α → Units}
    (piece : ∀ part, Piece (escape part) (unitsOf part)) (parts : List α) :
    Body (parts.flatMap escape) (parts.flatMap unitsOf) := by
  induction parts with
  | nil => exact .nil
  | cons part parts ih => exact .cons (piece part) ih

theorem compact_body (value : String) : Body (value.toList.flatMap compactEscape) (units value) :=
  body_of_pieces compact_escape_piece value.toList

theorem ascii_body (value : Units) : Body (value.flatMap asciiEscape) value := by
  have body := body_of_pieces ascii_escape_piece value
  rwa [List.flatMap_singleton'] at body

theorem readString_quoted (value : String) (rest : List Char) :
    readString (value.toList.flatMap compactEscape ++ '"' :: rest) = some (units value, rest) :=
  read_string_iff.mpr ⟨_, rfl, compact_body value⟩

theorem quoted_append_inj {value other : String} {rest tail : List Char}
    (h : compactQuoted value ++ rest = compactQuoted other ++ tail) :
    value = other ∧ rest = tail := by
  have body : value.toList.flatMap compactEscape ++ '"' :: rest =
      other.toList.flatMap compactEscape ++ '"' :: tail := by
    simpa [compactQuoted, quoted] using h
  have read := readString_quoted value rest
  rw [body, readString_quoted other tail] at read
  obtain ⟨same, behind⟩ := Prod.mk.inj (Option.some.inj read)
  exact ⟨units_injective same.symm, behind.symm⟩

/-! Lists. -/

theorem compact_items_inj {values others : List String}
    (h : compactItems (values.map .text) = compactItems (others.map .text)) : values = others := by
  induction values generalizing others with
  | nil =>
    cases others with
    | nil => rfl
    | cons other others => simp [compactItems] at h
  | cons value values ih =>
    cases others with
    | nil => simp [compactItems] at h
    | cons other others =>
      simp only [List.map_cons, compactItems, compactly, atomText, List.cons_append,
        List.cons.injEq, true_and] at h
      obtain ⟨rfl, rest⟩ := quoted_append_inj h
      rw [ih rest]

theorem compact_texts_inj {values others : List String}
    (h : (texts values).compact = (texts others).compact) : values = others := by
  have chars := String.ofList_injective h
  cases values with
  | nil =>
    cases others with
    | nil => rfl
    | cons other others => simp [texts, compactly, atomText, compactQuoted, quoted] at chars
  | cons value values =>
    cases others with
    | nil => simp [texts, compactly, atomText, compactQuoted, quoted] at chars
    | cons other others =>
      simp only [texts, List.map_cons, compactly, atomText, List.cons_append, List.cons.injEq,
        true_and] at chars
      obtain ⟨rfl, rest⟩ := quoted_append_inj chars
      rw [compact_items_inj rest]

end CodeAtlas.Json
