import CodeAtlas.Proofs.Json.Printing

/-! Reading and writing are inverse. What a reader gives, strict or not, is a value that can be
written, and the indented form of a value reads back as that value where the reader comes down to
all of it. -/
namespace CodeAtlas.Json

variable {α β : Type} {good : α → Prop} {better : β → Prop} {strict negative : Bool}
  {stack : Stack} {input figures : List Char} {value : Written}

/-- A value without repeated names and with no integer that is too long to be read. -/
structure Readable (value : Written) : Prop where
  proper : Proper value
  short : mostFigures value ≤ maxFigures

/-! Numbers. -/

theorem readable_int {value : Int} (low : value.natAbs < 10 ^ maxFigures) :
    Readable (.int value) :=
  ⟨.int value, (Nat.length_toDigits_le_iff (by decide) (by decide)).mpr low⟩

theorem readable_decimal (negative : Bool) (digits : Nat) (exponent : Int) :
    Readable (.real (.ofDecimal negative digits exponent)) :=
  ⟨.real (Real64.ofDecimal_stable negative digits exponent), Nat.zero_le _⟩

theorem signed_magnitude (negative : Bool) (magnitude : Nat) :
    (if negative then -(magnitude : Int) else magnitude).natAbs = magnitude := by
  cases negative with
  | false => rfl
  | true => exact Int.natAbs_neg _

theorem small_integer {magnitude limit : Nat} (limits : limit ∈ [2 ^ 63, 2 ^ 64 - 1])
    (small : magnitude ≤ limit) : magnitude < 10 ^ maxFigures := by
  have tens : 10 ^ 20 ≤ 10 ^ maxFigures := Nat.pow_le_pow_right (by decide) (by decide)
  have limited : limit < 10 ^ 20 := by
    simp only [List.mem_cons, List.not_mem_nil, or_false] at limits
    rcases limits with rfl | rfl <;> norm_num
  omega

theorem readable_whole (digits : ∀ c ∈ figures, c.isDigit = true)
    (read : wholeNumber strict negative figures = .ok value) : Readable value := by
  rw [wholeNumber] at read
  dsimp only at read
  cases strict with
  | true =>
    rw [if_pos rfl] at read
    obtain rfl := Except.ok.inj read
    by_cases long : (if negative then Nat.pow 2 63 else Nat.pow 2 64 - 1) < digitsValue figures
    · rw [if_pos long]
      exact readable_decimal ..
    · rw [if_neg long]
      refine readable_int ?_
      rw [signed_magnitude]
      refine small_integer ?_ (Nat.le_of_not_lt long)
      cases negative <;> simp
  | false =>
    rw [if_neg (by decide)] at read
    by_cases long : maxFigures < figures.length
    · rw [if_pos long] at read
      cases read
    · rw [if_neg long] at read
      obtain rfl := Except.ok.inj read
      refine readable_int ?_
      rw [signed_magnitude]
      exact (digits_value_lt digits).trans_le
        (Nat.pow_le_pow_right (by decide) (Nat.le_of_not_lt long))

/-! Parts of a text. -/

def Gives (good : α → Prop) (answer : Except Fault (α × List Char)) : Prop :=
  ∀ value rest, answer = .ok (value, rest) → good value

theorem Gives.ok {value : α} (holds : good value) : Gives good (.ok (value, input)) := by
  rintro _ _ same
  obtain ⟨rfl, -⟩ := Prod.mk.inj (Except.ok.inj same)
  exact holds

theorem Gives.error (fault : Fault) : Gives good (.error fault) := nofun

theorem Gives.bind {answer : Except Fault (α × List Char)}
    {next : α × List Char → Except Fault (β × List Char)} (gives : Gives good answer)
    (then' : ∀ value rest, good value → Gives better (next (value, rest))) :
    Gives better (answer >>= next) := by
  cases answer with
  | error fault => exact .error fault
  | ok parts => exact then' _ _ (gives _ _ rfl)

theorem gives_string {answer : Option (Units × List Char)}
    {next : Units × List Char → Except Fault (β × List Char)}
    (then' : ∀ text rest, Gives better (next (text, rest))) :
    Gives better (stack.orFault answer >>= next) := by
  cases answer with
  | none => exact .error _
  | some parts => exact then' _ _

theorem gives_inside {next : Stack → Except Fault (β × List Char)}
    (then' : ∀ stack, Gives better (next stack)) : Gives better (stack.inside >>= next) := by
  rw [Stack.inside]
  cases stack.room with
  | zero => exact .error _
  | succ room => exact then' _

theorem readable_word {word : String} (holds : Readable value) :
    Gives Readable (readWord word value input) := by
  rw [readWord]
  split_ifs
  · exact .ok holds
  · exact .error _

theorem readable_unsigned (strict negative : Bool) (input : List Char) :
    Gives Readable (readUnsigned strict negative input) := by
  rw [readUnsigned]
  cases whole : wholeFigures? input with
  | none => exact .error _
  | some parts =>
    obtain ⟨figures, rest⟩ := parts
    have digits := (whole_of_read whole).2.digits
    dsimp only [orMalformed, Bind.bind, Except.bind]
    generalize (readFraction rest).1 = fraction
    generalize readExponent (readFraction rest).2 = tail
    cases number : numberValue strict negative figures fraction tail.1 with
    | error fault => exact .error fault
    | ok value =>
      have readable : Readable value := by
        rw [numberValue] at number
        split_ifs at number
        · exact readable_whole digits number
        · obtain rfl := Except.ok.inj number
          exact readable_decimal ..
      dsimp only
      split_ifs
      · exact .error _
      · exact .ok readable

/-! Values without parts. -/

theorem readable_null : Readable .null := ⟨.null, Nat.zero_le _⟩

theorem readable_bool (value : Bool) : Readable (.bool value) := ⟨.bool value, Nat.zero_le _⟩

theorem readable_text (value : Units) : Readable (.text value) := ⟨.text value, Nat.zero_le _⟩

theorem readable_endless (negative : Bool) : Readable (.real (.infinite negative)) :=
  ⟨.real trivial, Nat.zero_le _⟩

theorem readable_no_number : Readable (.real .notANumber) := ⟨.real trivial, Nat.zero_le _⟩

theorem readable_constant {word : String} (holds : Readable value) :
    Gives Readable (readConstant strict stack word value input) := by
  cases strict with
  | true => exact .error _
  | false =>
    refine Gives.bind (readable_word holds) fun value rest readable => ?_
    split_ifs
    · exact .error _
    · exact .ok readable

theorem readable_atom (strict : Bool) (stack : Stack) (input : List Char) :
    Gives Readable (readAtom strict stack input) := by
  unfold readAtom
  split
  · exact gives_string fun text rest => .ok (readable_text text)
  · exact readable_word readable_null
  · exact readable_word (readable_bool true)
  · exact readable_word (readable_bool false)
  · exact readable_constant readable_no_number
  · exact readable_constant (readable_endless false)
  · exact readable_constant (readable_endless true)
  · exact readable_unsigned strict true _
  · exact readable_unsigned strict false _

/-! Values with parts. -/

structure ReadableFields (fields : List (Units × Written)) : Prop where
  once : (fields.map Prod.fst).Nodup
  values : ∀ field ∈ fields, Readable field.2

theorem readable_list {items : List Written} (each : ∀ item ∈ items, Readable item) :
    Readable (.list items) := by
  refine ⟨.list fun item mem => (each item mem).proper, ?_⟩
  rw [mostFigures]
  induction items with
  | nil => exact Nat.zero_le _
  | cons item items ih =>
    obtain ⟨first, rest⟩ := List.forall_mem_cons.mp each
    exact max_le first.short (ih rest)

theorem readable_object {fields : List (Units × Written)} (readable : ReadableFields fields) :
    Readable (.object fields) := by
  obtain ⟨once, each⟩ := readable
  refine ⟨.object once fun field mem => (each field mem).proper, ?_⟩
  clear once
  rw [mostFigures]
  induction fields with
  | nil => exact Nat.zero_le _
  | cons field fields ih =>
    obtain ⟨first, rest⟩ := List.forall_mem_cons.mp each
    exact max_le first.short (ih rest)

theorem ReadableFields.nil : ReadableFields [] := ⟨List.nodup_nil, List.forall_mem_nil _⟩

theorem ReadableFields.set {fields : List (Units × Written)} (readable : ReadableFields fields)
    (name : Units) (given : Readable value) :
    ReadableFields (CodeAtlas.bind name value fields) := by
  refine ⟨nodup_keys_bind readable.once, fun field mem => ?_⟩
  rcases mem_bind mem with rfl | known
  · exact given
  · exact readable.values field known

/-- With this much fuel whatever is read is readable. -/
structure GivesReadable (strict : Bool) (fuel : Nat) : Prop where
  value : ∀ stack input, Gives Readable (readValue strict fuel stack input)
  items : ∀ stack input, Gives (fun items => ∀ item ∈ items, Readable item)
    (readItems strict fuel stack input)
  fields : ∀ stack seen input, ReadableFields seen →
    Gives ReadableFields (readFields strict fuel stack seen input)

section Parts

variable {fuel : Nat} (smaller : GivesReadable strict fuel)

include smaller

theorem readable_value (stack : Stack) (input : List Char) :
    Gives Readable (readValue strict (fuel + 1) stack input) := by
  match input with
  | [] => exact readable_atom strict stack []
  | c :: rest =>
    by_cases bracket : c = '['
    · rw [bracket, readValue]
      refine gives_inside fun stack => ?_
      split
      · exact .ok (readable_list (List.forall_mem_nil _))
      · refine (smaller.items stack _).bind fun items rest each => ?_
        exact .ok (readable_list each)
    · by_cases brace : c = '{'
      · rw [brace, readValue]
        refine gives_inside fun stack => ?_
        split
        · exact .ok (readable_object .nil)
        · refine (smaller.fields stack [] _ .nil).bind fun fields rest readable => ?_
          exact .ok (readable_object readable)
      · rw [readValue_atom (by simpa using bracket) (by simpa using brace)]
        exact readable_atom strict stack _

theorem readable_items (stack : Stack) (input : List Char) :
    Gives (fun items => ∀ item ∈ items, Readable item)
      (readItems strict (fuel + 1) stack input) := by
  rw [readItems]
  refine (smaller.value stack input).bind fun item rest readable => ?_
  dsimp only
  split
  · exact .ok (List.forall_mem_singleton.mpr readable)
  · refine (smaller.items stack _).bind fun items rest each => ?_
    exact .ok (List.forall_mem_cons.mpr ⟨readable, each⟩)
  · exact .error _

theorem readable_member (stack : Stack) (input : List Char) :
    Gives (fun member => Readable member.2)
      (readMember stack (readValue strict fuel stack) input) := by
  unfold readMember
  split
  · refine gives_string fun name rest => ?_
    dsimp only
    split
    · exact (smaller.value stack _).bind fun value rest readable => .ok readable
    · exact .error _
  · exact .error _

theorem readable_fields (stack : Stack) (seen : List (Units × Written)) (input : List Char)
    (known : ReadableFields seen) :
    Gives ReadableFields (readFields strict (fuel + 1) stack seen input) := by
  rw [readFields]
  refine (readable_member smaller stack input).bind fun member rest readable => ?_
  obtain ⟨name, value⟩ := member
  have set := known.set name readable
  dsimp only
  split
  · exact .ok set
  · exact smaller.fields stack _ _ set
  · exact .error _

end Parts

theorem gives_readable (strict : Bool) (fuel : Nat) : GivesReadable strict fuel := by
  induction fuel with
  | zero => exact ⟨fun _ _ => .error _, fun _ _ => .error _, fun _ _ _ _ => .error _⟩
  | succ fuel ih => exact ⟨readable_value ih, readable_items ih, readable_fields ih⟩

/-! Whole texts. -/

theorem readable_of_read (read : readText strict stack input = .ok value) : Readable value := by
  rw [readText] at read
  have gives := (gives_readable strict (input.length + 1)).value stack (skipSpace input)
  cases taken : readValue strict (input.length + 1) stack (skipSpace input) with
  | error fault =>
    rw [taken] at read
    cases read
  | ok parts =>
    simp only [taken, Bind.bind, Except.bind] at read
    split_ifs at read
    obtain rfl := Except.ok.inj read
    exact gives _ _ taken

theorem proper_of_parsed {value : Json} {text : String} (parsed : parseStrict? text = some value) :
    Proper value := by
  rw [parseStrict?] at parsed
  cases read : readText true .strict text.toList with
  | error fault =>
    rw [read] at parsed
    cases parsed
  | ok form =>
    rw [read] at parsed
    obtain rfl := legible_eq_some.mp parsed
    exact proper_of_written (readable_of_read read).proper

/-- The indented form of a value is read as that value, unless an integer in it is too long or the
reader does not come down to all of it. -/
theorem read_pretty (proper : Proper value) (enough : levels stack.constant value ≤ stack.room) :
    read stack (pretty value) =
      if maxFigures < mostFigures value then .error .oversized else .ok value := by
  have text (bounds : Bounds) (short : mostFigures value ≤ bounds.figures)
      (same : stack.constant = bounds.constant) : IsText bounds stack.room value (pretty value) :=
    pretty_text proper short (same ▸ enough)
  split_ifs with long
  · obtain read | ⟨-, refused⟩ | ⟨deeper, -⟩ :=
      element_within (text ⟨mostFigures value, stack.constant⟩ le_rfl rfl) rfl
    · exact absurd (readable_of_read read).short (Nat.not_le_of_lt long)
    · exact refused
    · exact absurd deeper (Nat.lt_irrefl _)
  · exact read_iff.mpr (text stack.bounds (Nat.le_of_not_lt long) rfl)

end CodeAtlas.Json
