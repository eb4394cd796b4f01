import CodeAtlas.Graph.Cell
import CodeAtlas.Proofs.Json.Strings

/-! Stored lists read back. The compact form of a list of texts is read as that list, by the strict
reader and by the generous one, so what was encoded is always decoded. No control character stands
in it as it is. -/
namespace CodeAtlas.Json

variable {strict : Bool} {stack : Stack}

theorem readValue_quoted (fuel : Nat) (value : String) (rest : List Char) :
    readValue strict (fuel + 1) stack (compactQuoted value ++ rest) =
      .ok (.text (units value), rest) := by
  simp [readValue, readAtom, compactQuoted, quoted, readString_quoted, Stack.orFault, Bind.bind,
    Except.bind]

theorem skipSpace_quoted (value : String) (rest : List Char) :
    skipSpace (compactQuoted value ++ rest) = compactQuoted value ++ rest := by
  simp [skipSpace, isSpace, compactQuoted, quoted]

theorem compactItems_cons (value : String) (values : List String) :
    compactItems ((value :: values).map .text) =
      ',' :: (compactQuoted value ++ compactItems (values.map .text)) := by
  simp [compactItems, compactly, atomText]

theorem readItems_quoted_comma (fuel : Nat) (value next : String) (rest : List Char) :
    readItems strict (fuel + 2) stack
      (compactQuoted value ++ ',' :: (compactQuoted next ++ rest)) =
      (readItems strict (fuel + 1) stack (compactQuoted next ++ rest)).map
        fun read => (.text (units value) :: read.1, read.2) := by
  rw [readItems, readValue_quoted]
  have comma : skipSpace (',' :: (compactQuoted next ++ rest)) =
      ',' :: (compactQuoted next ++ rest) := rfl
  simp only [Bind.bind, Except.bind, comma, skipSpace_quoted]
  cases readItems strict (fuel + 1) stack (compactQuoted next ++ rest) <;> rfl

theorem readItems_compactItems (value : String) (values : List String) (rest : List Char)
    {fuel : Nat} (enough : values.length + 1 < fuel) :
    readItems strict fuel stack
      (compactQuoted value ++ (compactItems (values.map .text) ++ rest)) =
      .ok (writtenItems ((value :: values).map .text), rest) := by
  induction values generalizing value fuel with
  | nil =>
    obtain ⟨fuel, rfl⟩ := Nat.exists_eq_add_of_le' enough
    simp [readItems, readValue_quoted, compactItems, writtenItems, written, skipSpace, isSpace,
      Bind.bind, Except.bind]
  | cons next values ih =>
    obtain ⟨fuel, rfl⟩ := Nat.exists_eq_add_of_le' enough
    have enough : values.length + 1 < fuel + values.length + 2 := by omega
    have tail := ih next enough
    rw [compactItems_cons, List.cons_append, List.append_assoc,
      show fuel + ((next :: values).length + 1).succ = fuel + values.length + 1 + 2 by
        simp only [List.length_cons]; omega, readItems_quoted_comma, tail]
    rfl

theorem length_le_compactItems (values : List String) :
    values.length + 1 ≤ (compactItems (values.map .text)).length := by
  induction values with
  | nil => exact Nat.le_refl _
  | cons value values ih =>
    simp only [compactItems_cons, List.length_append, List.length_cons]
    omega

theorem compactly_texts (value : String) (values : List String) :
    compactly (texts (value :: values)) =
      '[' :: (compactQuoted value ++ (compactItems (values.map .text) ++ [])) := by
  simp [texts, compactly, atomText]

theorem readValue_bracket (room : 0 < stack.room) (fuel : Nat) (value : String)
    (rest : List Char) :
    ∃ inside, readValue strict (fuel + 1) stack ('[' :: (compactQuoted value ++ rest)) =
      (readItems strict fuel inside (compactQuoted value ++ rest)).map
        fun read => (.list read.1, read.2) := by
  obtain ⟨left, same⟩ := Nat.exists_eq_succ_of_ne_zero room.ne'
  refine ⟨{ stack with room := left }, ?_⟩
  rw [readValue, skipSpace_quoted, Stack.inside, same]
  simp only [Bind.bind, Except.bind]
  split
  · next empty => simp [compactQuoted, quoted] at empty
  · cases readItems strict fuel { stack with room := left } (compactQuoted value ++ rest) <;> rfl

theorem readText_texts (room : 0 < stack.room) (values : List String) :
    readText strict stack (compactly (texts values)) = .ok (written (texts values)) := by
  cases values with
  | nil =>
    obtain ⟨left, same⟩ := Nat.exists_eq_succ_of_ne_zero room.ne'
    simp [texts, compactly, readText, readValue, skipSpace, isSpace, Stack.inside, same, written,
      writtenItems, Bind.bind, Except.bind]
  | cons value values =>
    have enough : values.length + 1 < (compactly (texts (value :: values))).length := by
      have := length_le_compactItems values
      simp only [compactly_texts, compactQuoted, quoted, List.length_append, List.length_cons]
      omega
    have bracket : skipSpace (compactly (texts (value :: values))) =
        compactly (texts (value :: values)) := by
      rw [compactly_texts]; rfl
    obtain ⟨inside, opened⟩ := readValue_bracket room
      (compactly (texts (value :: values))).length value (compactItems (values.map .text) ++ [])
    rw [← compactly_texts, readItems_compactItems value values [] enough] at opened
    rw [readText, bracket, opened]
    rfl

theorem parseStrict_texts (values : List String) :
    parseStrict? (texts values).compact = some (texts values) := by
  rw [parseStrict?, compact, String.toList_ofList, readText_texts (by decide)]
  exact legible_written _

/-! Control characters. -/

def FreeOfControls (text : List Char) : Prop := ∀ c ∈ text, 0x20 ≤ c.toNat

theorem FreeOfControls.append {front back : List Char} (first : FreeOfControls front)
    (second : FreeOfControls back) : FreeOfControls (front ++ back) := by
  intro c mem
  exact (List.mem_append.mp mem).elim (first c) (second c)

theorem FreeOfControls.cons {c : Char} {text : List Char} (visible : 0x20 ≤ c.toNat)
    (rest : FreeOfControls text) : FreeOfControls (c :: text) :=
  List.forall_mem_cons.mpr ⟨visible, rest⟩

theorem hex_digit_visible {n : Nat} (h : n < 16) : 0x20 ≤ (hexDigit n).toNat := by
  interval_cases n <;> decide

theorem unit_escape_free (n : Nat) : FreeOfControls (unitEscape n) := by
  have digit : ∀ m, 0x20 ≤ (hexDigit (m % 16)).toNat := fun m =>
    hex_digit_visible (Nat.mod_lt m (by decide))
  simp [FreeOfControls, unitEscape, digit]

theorem short_escape_visible {c letter : Char} (h : shortEscape? c = some letter) :
    0x20 ≤ letter.toNat := by
  unfold shortEscape? at h
  split_ifs at h <;>
    · obtain rfl := Option.some.inj h
      decide

theorem compact_escape_free (c : Char) : FreeOfControls (compactEscape c) := by
  unfold compactEscape
  cases short : shortEscape? c with
  | some letter => simp [FreeOfControls, short_escape_visible short]
  | none =>
    by_cases control : c.toNat < 0x20
    · rw [if_pos control]
      exact unit_escape_free c.toNat
    · simpa [FreeOfControls, if_neg control] using control

theorem quoted_free (value : String) : FreeOfControls (compactQuoted value) := by
  have body : FreeOfControls (value.toList.flatMap compactEscape) := by
    intro c mem
    obtain ⟨source, -, inside⟩ := List.mem_flatMap.mp mem
    exact compact_escape_free source c inside
  exact .cons (by decide) (.append body (by simp [FreeOfControls]))

theorem compact_items_free (values : List String) :
    FreeOfControls (compactItems (values.map .text)) := by
  induction values with
  | nil => simp [FreeOfControls, compactItems]
  | cons value values ih =>
    rw [compactItems_cons]
    exact .cons (by decide) ((quoted_free value).append ih)

theorem compact_texts_free (values : List String) :
    FreeOfControls (texts values).compact.toList := by
  rw [compact, String.toList_ofList]
  cases values with
  | nil => simp [FreeOfControls, texts, compactly]
  | cons value values =>
    rw [compactly_texts, List.append_nil]
    exact .cons (by decide) ((quoted_free value).append (compact_items_free values))

theorem texts_injective : Function.Injective texts := by
  intro values others same
  have items : values.map Json.text = others.map Json.text := Json.list.inj same
  exact (List.map_inj_right fun _ _ => Json.text.inj).mp items

end CodeAtlas.Json

namespace CodeAtlas.Graph

theorem decodeList_encodeList (values : List String) :
    decodeList (some (encodeList values)) = .ok (Json.texts values) := by
  have some_text : (Json.texts values).compact ≠ "" := by
    intro empty
    have read := Json.parseStrict_texts values
    rw [empty] at read
    have nothing : Json.parseStrict? "" = none := rfl
    rw [nothing] at read
    cases read
  rw [decodeList, encodeList, if_neg some_text, Json.parseStrict_texts]

/-- Encoding a list loses nothing, whatever the texts are made of: the list is decoded again, two
lists are never encoded alike, and control characters are always written as escapes. -/
theorem list_encoding_faithful :
    (∀ values, decodeList (some (encodeList values)) = .ok (Json.texts values)) ∧
      Function.Injective encodeList ∧
      ∀ values, Json.FreeOfControls (encodeList values).toList := by
  refine ⟨decodeList_encodeList, fun values others same => ?_, Json.compact_texts_free⟩
  have decoded := decodeList_encodeList values
  rw [same, decodeList_encodeList others] at decoded
  exact (Json.texts_injective (Except.ok.inj decoded)).symm

/-- A quote, a backslash, control characters, a deletion mark, a character beyond U+FFFF, and an
empty text. -/
def awkwardTexts : List String :=
  ["\"\\", "\n\t\u0000\u001f", "\u007f", String.ofList [Char.ofNat 0x1F600], "", "\\u0041"]

/-- None of the awkward texts is lost or left raw. -/
theorem awkward_texts_encoded :
    decodeList (some (encodeList awkwardTexts)) = .ok (Json.texts awkwardTexts) ∧
      (awkwardTexts.reverse ≠ awkwardTexts ∧
        encodeList awkwardTexts.reverse ≠ encodeList awkwardTexts) ∧
      ∀ c ∈ (encodeList awkwardTexts).toList, 0x20 ≤ c.toNat := by
  obtain ⟨decodes, injective, free⟩ := list_encoding_faithful
  have differs : awkwardTexts.reverse ≠ awkwardTexts := by decide
  exact ⟨decodes _, ⟨differs, injective.ne differs⟩, free _⟩

end CodeAtlas.Graph
