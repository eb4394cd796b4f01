import CodeAtlas.Proofs.Json.Figures
import CodeAtlas.Proofs.Json.Strings

/-! The indented form of a value is a text of that value, whatever characters its strings are made
of. -/
namespace CodeAtlas.Json

variable {bounds : Bounds} {depth levels : Nat}

theorem quoted_value (value : Units) : Value bounds levels (asciiQuoted value) (.text value) :=
  .string (ascii_body value)

/-! Values with parts. -/

theorem newline_blank (depth : Nat) : Blank (newline depth) := by
  intro c mem
  rcases List.mem_cons.mp mem with rfl | blank
  · decide
  · rw [(List.mem_replicate.mp blank).2]
    decide

theorem line_element (depth : Nat) {text : List Char} {value : Written}
    (valued : Value bounds levels text value) {after : List Char} (blank : Blank after) :
    Element bounds levels (newline depth ++ (text ++ after)) value :=
  .mk (newline_blank depth) valued blank

theorem line_member (depth : Nat) {name : Units} {value : Written} {text : List Char}
    (valued : Value bounds levels text value) {after : List Char} (blank : Blank after) :
    Member bounds levels (newline depth ++ (asciiQuoted name ++ ([':', ' '] ++ (text ++ after))))
      (name, value) := by
  have space : Blank [' '] := by simp [Blank]
  have member := Member.mk (newline_blank depth) (ascii_body name) blank_nil
    (.mk space valued blank)
  simpa [asciiQuoted, quoted] using member

theorem items_elements {item : Written} {rest : List Written} {text : List Char}
    (first : Value bounds levels text item)
    (others : ∀ item ∈ rest, Value bounds levels (indented (depth + 1) item) item) :
    ∃ body, newline (depth + 1) ++ (text ++ indentedItems depth rest) = body ++ [']'] ∧
      Elements bounds levels body (item :: rest) := by
  induction rest generalizing item text with
  | nil =>
    refine ⟨_, ?_, .one (line_element (depth + 1) first (newline_blank depth))⟩
    simp [indentedItems]
  | cons next rest ih =>
    obtain ⟨next, others⟩ := List.forall_mem_cons.mp others
    obtain ⟨body, same, elements⟩ := ih next others
    refine ⟨_, ?_, .more (line_element (depth + 1) first blank_nil) elements⟩
    simp [indentedItems, ← same]

theorem fields_members {name : Units} {value : Written} {rest : List (Units × Written)}
    {text : List Char} (first : Value bounds levels text value)
    (others : ∀ field ∈ rest, Value bounds levels (indented (depth + 1) field.2) field.2) :
    ∃ body, newline (depth + 1) ++ (asciiQuoted name ++ ([':', ' '] ++
        (text ++ indentedFields depth rest))) = body ++ ['}'] ∧
      Members bounds levels body ((name, value) :: rest) := by
  induction rest generalizing name value text with
  | nil =>
    refine ⟨_, ?_, .one (line_member (depth + 1) first (newline_blank depth))⟩
    simp [indentedFields]
  | cons next rest ih =>
    obtain ⟨next, others⟩ := List.forall_mem_cons.mp others
    obtain ⟨body, same, members⟩ := ih next others
    refine ⟨_, ?_, .more (line_member (depth + 1) first blank_nil) members⟩
    simp [indentedFields, ← same]

/-- The indented form of a value is a text of it, at every depth. -/
theorem indented_value {value : Written} (proper : Proper value) :
    ∀ depth levels, mostFigures value ≤ bounds.figures →
      Json.levels bounds.constant value ≤ levels →
      Value bounds levels (indented depth value) value := by
  induction proper with
  | null => exact fun _ _ _ _ => .word (show ("null", _) ∈ words by simp [words])
  | bool value =>
    intro _ _ _ _
    cases value with
    | true => exact .word (show ("true", _) ∈ words by simp [words])
    | false => exact .word (show ("false", _) ∈ words by simp [words])
  | int value => exact fun _ _ short _ => int_value short
  | real stable => exact fun _ _ _ enough => real_value stable enough
  | text value => exact fun _ _ _ _ => quoted_value value
  | @list items _ ih =>
    intro depth levels short enough
    obtain ⟨levels, rfl⟩ : ∃ fewer, levels = fewer + 1 :=
      Nat.exists_eq_add_of_le' (Nat.le_of_add_left_le enough)
    cases items with
    | nil => exact .emptyList blank_nil
    | cons item rest =>
      rw [mostFigures] at short
      have inside := Nat.le_of_succ_le_succ enough
      have valued {item' : Written} (mem : item' ∈ item :: rest) :
          Value bounds levels (indented (depth + 1) item') item' :=
        ih item' mem (depth + 1) levels ((mostFigures_item mem).trans short)
          ((levels_item mem).trans inside)
      obtain ⟨body, same, elements⟩ := items_elements
        (valued List.mem_cons_self) fun item mem => valued (List.mem_cons_of_mem _ mem)
      rw [indented, List.cons_append, List.cons_append, List.append_assoc, same]
      exact .list elements
  | @object fields once _ ih =>
    intro depth levels short enough
    obtain ⟨levels, rfl⟩ : ∃ fewer, levels = fewer + 1 :=
      Nat.exists_eq_add_of_le' (Nat.le_of_add_left_le enough)
    cases fields with
    | nil => exact .emptyObject blank_nil
    | cons field rest =>
      obtain ⟨name, value⟩ := field
      rw [mostFigures] at short
      have inside := Nat.le_of_succ_le_succ enough
      have valued {field : Units × Written} (mem : field ∈ (name, value) :: rest) :
          Value bounds levels (indented (depth + 1) field.2) field.2 :=
        ih field mem (depth + 1) levels ((mostFigures_field mem).trans short)
          ((levels_field mem).trans inside)
      obtain ⟨body, same, members⟩ := fields_members
        (valued List.mem_cons_self) fun field mem => valued (List.mem_cons_of_mem _ mem)
      have settled : Settled ((name, value) :: rest) ((name, value) :: rest) := by
        have settled := settled_bindAll ((name, value) :: rest)
        rwa [bindAll_of_nodup once] at settled
      rw [indented]
      simp only [List.cons_append, List.append_assoc] at same ⊢
      rw [same]
      exact .object members settled

theorem pretty_text {value : Written} (proper : Proper value)
    (short : mostFigures value ≤ bounds.figures)
    (enough : Json.levels bounds.constant value ≤ levels) :
    IsText bounds levels value (pretty value) := by
  have element := Element.mk blank_nil (indented_value proper 0 levels short enough) blank_nil
  rw [List.nil_append, List.append_nil] at element
  rwa [IsText, pretty, String.toList_ofList]

end CodeAtlas.Json
