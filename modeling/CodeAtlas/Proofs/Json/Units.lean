import CodeAtlas.Proofs.Json.Proper

/-! Texts of characters and their UTF-16 units. The units of a text stand for it and for no other,
so a value is told by its written form, which is as long and as deep as the value. -/
namespace CodeAtlas.Json

variable {rest : Units} {value : Json}

/-! Texts. -/

theorem not_surrogate {unit : Nat} (outside : unit < 0xD800 ∨ 0xDFFF < unit)
    (small : unit < 0x10000) :
    isHigh (.ofNat unit) = false ∧ isLow (.ofNat unit) = false := by
  have same : (UInt16.ofNat unit).toNat = unit := UInt16.toNat_ofNat_of_lt' small
  simp only [isHigh, isLow, Bool.and_eq_false_iff, decide_eq_false_iff_not, UInt16.le_iff_toNat_le,
    UInt16.lt_iff_toNat_lt, same]
  change (¬ 0xD800 ≤ unit ∨ ¬ unit < 0xDC00) ∧ (¬ 0xDC00 ≤ unit ∨ ¬ unit < 0xE000)
  omega

theorem pair_units {n : Nat} (beyond : 0x10000 ≤ n) (below : n < 0x110000) :
    isHigh (.ofNat (0xD800 + (n - 0x10000) / 0x400)) = true ∧
      isLow (.ofNat (0xDC00 + (n - 0x10000) % 0x400)) = true ∧
      pairChar (.ofNat (0xD800 + (n - 0x10000) / 0x400))
        (.ofNat (0xDC00 + (n - 0x10000) % 0x400)) = Char.ofNat n := by
  have front : (UInt16.ofNat (0xD800 + (n - 0x10000) / 0x400)).toNat =
      0xD800 + (n - 0x10000) / 0x400 :=
    UInt16.toNat_ofNat_of_lt' (show _ < 0x10000 by omega)
  have back : (UInt16.ofNat (0xDC00 + (n - 0x10000) % 0x400)).toNat =
      0xDC00 + (n - 0x10000) % 0x400 :=
    UInt16.toNat_ofNat_of_lt' (show _ < 0x10000 by omega)
  have joined : 0x10000 + (0xD800 + (n - 0x10000) / 0x400 - 0xD800) * 0x400 +
      (0xDC00 + (n - 0x10000) % 0x400 - 0xDC00) = n := by omega
  refine ⟨?_, ?_, by rw [pairChar, front, back, joined]⟩
  · simp only [isHigh, Bool.and_eq_true, decide_eq_true_eq, UInt16.le_iff_toNat_le,
      UInt16.lt_iff_toNat_lt, front]
    change 0xD800 ≤ _ ∧ _ < 0xDC00
    omega
  · simp only [isLow, Bool.and_eq_true, decide_eq_true_eq, UInt16.le_iff_toNat_le,
      UInt16.lt_iff_toNat_lt, back]
    change 0xDC00 ≤ _ ∧ _ < 0xE000
    omega

theorem char_units_single {unit : UInt16} (alone : isHigh unit = false ∧ isLow unit = false) :
    charUnits (Char.ofNat unit.toNat) = [unit] := by
  obtain ⟨high, low⟩ := alone
  have small : unit.toNat < 0x10000 := unit.toNat_lt
  have outside : unit.toNat < 0xD800 ∨ 0xDFFF < unit.toNat ∧ unit.toNat < 0x110000 := by
    simp only [isHigh, isLow, Bool.and_eq_false_iff, decide_eq_false_iff_not,
      UInt16.le_iff_toNat_le, UInt16.lt_iff_toNat_lt] at high low
    change (¬ 0xD800 ≤ _ ∨ ¬ _ < 0xDC00) at high
    change (¬ 0xDC00 ≤ _ ∨ ¬ _ < 0xE000) at low
    omega
  have same : (Char.ofNat unit.toNat).toNat = unit.toNat := by
    rw [Char.ofNat, dif_pos outside]
    rfl
  rw [charUnits, same, if_pos small, UInt16.ofNat_toNat]

theorem char_units_pair {high low : UInt16} (front : isHigh high = true)
    (back : isLow low = true) : charUnits (pairChar high low) = [high, low] := by
  simp only [isHigh, isLow, Bool.and_eq_true, decide_eq_true_eq, UInt16.le_iff_toNat_le,
    UInt16.lt_iff_toNat_lt] at front back
  change 0xD800 ≤ high.toNat ∧ high.toNat < 0xDC00 at front
  change 0xDC00 ≤ low.toNat ∧ low.toNat < 0xE000 at back
  generalize whole : 0x10000 + (high.toNat - 0xD800) * 0x400 + (low.toNat - 0xDC00) = n
  have same : (Char.ofNat n).toNat = n := by
    rw [Char.ofNat, dif_pos (.inr (by omega))]
    rfl
  have first : 0xD800 + (n - 0x10000) / 0x400 = high.toNat := by omega
  have second : 0xDC00 + (n - 0x10000) % 0x400 = low.toNat := by omega
  rw [pairChar, whole, charUnits, same, if_neg (by omega), first, second, UInt16.ofNat_toNat,
    UInt16.ofNat_toNat]

theorem chars_append (c : Char) (rest : Units) :
    chars? (charUnits c ++ rest) = (chars? rest).map (c :: ·) := by
  have scalar : c.toNat < 0xD800 ∨ 0xDFFF < c.toNat ∧ c.toNat < 0x110000 := c.valid
  have whole : Char.ofNat c.toNat = c := Char.ofNat_toNat c
  rw [charUnits]
  split_ifs with small
  · have same : (UInt16.ofNat c.toNat).toNat = c.toNat := UInt16.toNat_ofNat_of_lt' small
    obtain ⟨high, low⟩ := not_surrogate (by omega) small
    generalize UInt16.ofNat c.toNat = unit at same high low
    cases rest with
    | nil => simp [chars?, high, low, same, whole]
    | cons next rest => simp [chars?, high, low, same, whole]
  · obtain ⟨high, low, pair⟩ := pair_units (show 0x10000 ≤ c.toNat by omega) (by omega)
    rw [whole] at pair
    generalize UInt16.ofNat (0xD800 + (c.toNat - 0x10000) / 0x400) = front at high pair
    generalize UInt16.ofNat (0xDC00 + (c.toNat - 0x10000) % 0x400) = back at low pair
    simp [chars?, high, low, pair]

theorem chars_units (chars : List Char) : chars? (chars.flatMap charUnits) = some chars := by
  induction chars with
  | nil => rfl
  | cons c chars ih => rw [List.flatMap_cons, chars_append, ih, Option.map_some]

theorem units_of_chars {units : Units} : ∀ {chars : List Char}, chars? units = some chars →
    units = chars.flatMap charUnits := by
  induction units using chars?.induct with
  | case1 =>
    rintro _ ⟨⟩
    rfl
  | case2 unit alone => simp [chars?, alone]
  | case3 unit alone =>
    intro chars read
    rw [chars?, if_neg alone] at read
    obtain rfl := Option.some.inj read
    rw [List.flatMap_singleton, char_units_single (by simpa using alone)]
  | case4 high low rest front back ih =>
    intro chars read
    rw [chars?, if_pos front, if_pos back] at read
    obtain ⟨tail, others, rfl⟩ := Option.map_eq_some_iff.mp read
    rw [List.flatMap_cons, char_units_pair front back, ← ih others]
    rfl
  | case5 high next rest front other => simp [chars?, front, other]
  | case6 low next rest other back => simp [chars?, other, back]
  | case7 unit next rest front back ih =>
    intro chars read
    rw [chars?, if_neg front, if_neg back] at read
    obtain ⟨tail, others, rfl⟩ := Option.map_eq_some_iff.mp read
    rw [List.flatMap_cons, char_units_single (by simp [front, back]), ← ih others]
    rfl

theorem text_of_eq_some {value : Units} {text : String} :
    textOf? value = some text ↔ value = units text := by
  constructor
  · intro read
    obtain ⟨chars, taken, rfl⟩ := Option.map_eq_some_iff.mp read
    rw [units, String.toList_ofList]
    exact units_of_chars taken
  · rintro rfl
    rw [textOf?, units, chars_units, Option.map_some, String.ofList_toList]

@[simp] theorem text_of_units (text : String) : textOf? (units text) = some text :=
  text_of_eq_some.mpr rfl

theorem units_injective : Function.Injective units := by
  intro text other same
  have read := text_of_units text
  rw [same, text_of_units] at read
  exact (Option.some.inj read).symm

/-! Values. -/

mutual

theorem legible_written (value : Json) : legible? (written value) = some value := by
  cases value with
  | list items => rw [written, legible?, legible_items items, Option.map_some]
  | object fields => rw [written, legible?, legible_fields fields, Option.map_some]
  | text value => rw [written, legible?, text_of_units, Option.map_some]
  | _ => rfl

theorem legible_items (items : List Json) : legibleItems? (writtenItems items) = some items := by
  cases items with
  | nil => rfl
  | cons item rest => simp [writtenItems, legibleItems?, legible_written item, legible_items rest]

theorem legible_fields (fields : List (String × Json)) :
    legibleFields? (writtenFields fields) = some fields := by
  match fields with
  | [] => rfl
  | (name, value) :: rest =>
    simp [writtenFields, legibleFields?, legible_written value, legible_fields rest]

end

mutual

theorem written_of_legible {value : Json} : ∀ {form : Written}, legible? form = some value →
    form = written value
  | .null, h | .bool _, h | .int _, h | .real _, h => Option.some.inj h ▸ rfl
  | .text units, h => by
    obtain ⟨text, read, rfl⟩ := Option.map_eq_some_iff.mp h
    rw [text_of_eq_some.mp read, written]
  | .list items, h => by
    obtain ⟨texts, read, rfl⟩ := Option.map_eq_some_iff.mp h
    rw [written_items_of_legible read, written]
  | .object fields, h => by
    obtain ⟨texts, read, rfl⟩ := Option.map_eq_some_iff.mp h
    rw [written_fields_of_legible read, written]

theorem written_items_of_legible {values : List Json} : ∀ {items : List Written},
    legibleItems? items = some values → items = writtenItems values
  | [], h => Option.some.inj h ▸ rfl
  | item :: rest, h => by
    simp only [legibleItems?, Option.bind_eq_bind, Option.bind_eq_some_iff, Option.pure_def,
      Option.some.injEq] at h
    obtain ⟨value, first, values, others, rfl⟩ := h
    rw [written_of_legible first, written_items_of_legible others, writtenItems]

theorem written_fields_of_legible {values : List (String × Json)} :
    ∀ {fields : List (Units × Written)}, legibleFields? fields = some values →
      fields = writtenFields values
  | [], h => Option.some.inj h ▸ rfl
  | (name, form) :: rest, h => by
    simp only [legibleFields?, Option.bind_eq_bind, Option.bind_eq_some_iff, Option.pure_def,
      Option.some.injEq] at h
    obtain ⟨text, named, value, first, values, others, rfl⟩ := h
    rw [text_of_eq_some.mp named, written_of_legible first, written_fields_of_legible others,
      writtenFields]

end

/-- A written value is legible exactly when it is the written form of a value. -/
theorem legible_eq_some {form : Written} : legible? form = some value ↔ form = written value :=
  ⟨written_of_legible, fun same => same ▸ legible_written value⟩

theorem written_items (items : List Json) : writtenItems items = items.map written := by
  induction items with
  | nil => rfl
  | cons item rest ih => rw [writtenItems, ih, List.map_cons]

theorem written_fields (fields : List (String × Json)) :
    writtenFields fields = fields.map fun field => (units field.1, written field.2) := by
  induction fields with
  | nil => rfl
  | cons field rest ih => rw [writtenFields, ih, List.map_cons]

theorem Proper.written (proper : Proper value) : Proper (written value) := by
  induction proper with
  | null => exact .null
  | bool value => exact .bool value
  | int value => exact .int value
  | real stable => exact .real stable
  | text value => exact .text _
  | @list items _ ih =>
    rw [Json.written, written_items]
    exact list_map ih
  | @object fields once _ ih =>
    rw [Json.written, written_fields]
    refine .object ?_ fun field mem => ?_
    · rw [List.map_map]
      have names := once.map units_injective
      rwa [List.map_map] at names
    · obtain ⟨field, inside, rfl⟩ := List.mem_map.mp mem
      exact ih field inside

mutual

theorem proper_of_written : ∀ {value : Json}, Proper (written value) → Proper value
  | .null, _ => .null
  | .bool value, _ => .bool value
  | .int value, _ => .int value
  | .real _, .real stable => .real stable
  | .text value, _ => .text value
  | .list _, .list each => .list (proper_items_of_written each)
  | .object fields, .object once each => by
    refine .object ?_ (proper_fields_of_written each)
    rw [written_fields, List.map_map] at once
    refine List.Nodup.of_map units ?_
    rwa [List.map_map]

theorem proper_items_of_written : ∀ {items : List Json},
    (∀ form ∈ writtenItems items, Proper form) → ∀ item ∈ items, Proper item
  | [], _ => nofun
  | item :: rest, each => by
    obtain ⟨first, others⟩ := List.forall_mem_cons.mp each
    exact List.forall_mem_cons.mpr ⟨proper_of_written first, proper_items_of_written others⟩

theorem proper_fields_of_written : ∀ {fields : List (String × Json)},
    (∀ form ∈ writtenFields fields, Proper form.2) → ∀ field ∈ fields, Proper field.2
  | [], _ => nofun
  | (name, value) :: rest, each => by
    obtain ⟨first, others⟩ := List.forall_mem_cons.mp each
    exact List.forall_mem_cons.mpr ⟨proper_of_written first, proper_fields_of_written others⟩

end

end CodeAtlas.Json
