import CodeAtlas.Proofs.Distinct
import CodeAtlas.Proofs.Json.Numbers
import CodeAtlas.Proofs.Json.Pieces

/-! The reader reads exactly the texts of the grammar. What it takes is a value of it, what it
refuses is none, and it gives up only on an integer of too many figures or on too many levels. Both
directions are by induction on the fuel, which a text never uses up: each level and each item takes
a character. -/
namespace CodeAtlas.Json

variable {α β : Type} {most fuel levels : Nat} {deeper : Prop} {bounds : Bounds} {stack : Stack}
  {input text rest : List Char} {value : Written} {units : Units}

/-! Blanks. -/

theorem blank_iff : Blank text ↔ ∀ c ∈ text, isSpace c = true := by
  simp [Blank, isSpace, or_assoc]

theorem skip_blank {blank : List Char} (blanks : Blank blank)
    (right : ∀ c, rest.head? = some c → isSpace c = false) : skipSpace (blank ++ rest) = rest :=
  Text.dropWhile_run (blank_iff.mp blanks) right

theorem skipped (input : List Char) :
    ∃ blank rest, input = blank ++ rest ∧ Blank blank ∧ skipSpace input = rest := by
  refine ⟨input.takeWhile isSpace, _, (List.takeWhile_append_dropWhile ..).symm, ?_, rfl⟩
  exact blank_iff.mpr fun c => List.mem_takeWhile_imp

/-! Outcomes. -/

theorem Told.behind {spec : List Char → α → Prop} {answer : Except Fault (α × List Char)}
    (front : List Char) (told : Told stack (fun text => spec (front ++ text)) input answer) :
    Told stack spec (front ++ input) answer := by
  match answer with
  | .ok (value, rest) =>
    obtain ⟨text, rfl, holds⟩ := told
    exact ⟨front ++ text, (List.append_assoc ..).symm, holds⟩
  | .error .oversized => exact LongRun.mono (List.suffix_append ..).isInfix told
  | .error .tooDeep => exact Deep.mono (List.suffix_append ..) told
  | .error .malformed => trivial

theorem Told.mono {spec other : List Char → α → Prop} {answer : Except Fault (α × List Char)}
    (told : Told stack spec input answer)
    (weaker : ∀ text value, spec text value → other text value) :
    Told stack other input answer := by
  match answer with
  | .ok (value, rest) =>
    obtain ⟨text, split, holds⟩ := told
    exact ⟨text, split, weaker text value holds⟩
  | .error .oversized => exact told
  | .error .tooDeep => exact told
  | .error .malformed => trivial

theorem Told.bind {spec : List Char → α → Prop} {other : List Char → β → Prop}
    {answer : Except Fault (α × List Char)}
    {next : α × List Char → Except Fault (β × List Char)} (told : Told stack spec input answer)
    (goesOn : ∀ text value rest, spec text value →
      Told stack (fun behind => other (text ++ behind)) rest (next (value, rest))) :
    Told stack other input (answer >>= next) := by
  match answer with
  | .ok (value, rest) =>
    obtain ⟨text, rfl, holds⟩ := told
    exact (goesOn text value rest holds).behind text
  | .error .oversized => exact told
  | .error .tooDeep => exact told
  | .error .malformed => trivial

theorem told_fault {spec : List Char → α → Prop} : Told stack spec input (.error stack.fault) := by
  unfold Stack.fault
  split_ifs with enough
  · trivial
  · change stack.room < _ + max stack.constant stack.complaint
    omega

theorem told_inside {spec : List Char → α → Prop} {c : Char} {tail : List Char}
    {next : Stack → Except Fault (α × List Char)} (opens : c = '[' ∨ c = '{')
    (rest : ∀ inner, inner.bounds = stack.bounds → inner.room + 1 = stack.room →
      Told inner (fun text => spec (c :: text)) tail (next inner)) :
    Told stack spec (c :: tail) (stack.inside >>= next) := by
  have opened : openings (c :: tail) = openings tail + 1 := by
    rcases opens with rfl | rfl <;> simp [openings]
  obtain ⟨room, constant, complaint⟩ := stack
  cases room with
  | zero =>
    change 0 < openings (c :: tail) + _
    omega
  | succ room =>
    have told := rest ⟨room, constant, complaint⟩ rfl rfl
    change Told _ _ _ (next ⟨room, constant, complaint⟩)
    revert told
    match next ⟨room, constant, complaint⟩ with
    | .ok (value, rest) =>
      rintro ⟨text, rfl, holds⟩
      exact ⟨c :: text, rfl, holds⟩
    | .error .oversized => exact LongRun.mono (List.suffix_cons ..).isInfix
    | .error .tooDeep =>
      intro deep
      change room < openings tail + max constant complaint at deep
      change room + 1 < openings (c :: tail) + max constant complaint
      omega
    | .error .malformed => exact id

/-! Values without parts. -/

theorem word_read {word : String} (rest : List Char) (mem : (word, value) ∈ words) :
    readAtom false stack (word.toList ++ rest) = .ok (value, rest) := by
  simp only [words, List.mem_cons, Prod.mk.injEq, List.not_mem_nil, or_false] at mem
  rcases mem with ⟨rfl, rfl⟩ | ⟨rfl, rfl⟩ | ⟨rfl, rfl⟩ <;> rfl

theorem constant_read {word : String} (rest : List Char) (mem : (word, value) ∈ constants) :
    readAtom false stack (word.toList ++ rest) =
      if stack.room < stack.constant then .error .tooDeep else .ok (value, rest) := by
  simp only [constants, List.mem_cons, Prod.mk.injEq, List.not_mem_nil, or_false] at mem
  rcases mem with ⟨rfl, rfl⟩ | ⟨rfl, rfl⟩ | ⟨rfl, rfl⟩ <;> rfl

theorem constant_within {word : String} (rest : List Char) (mem : (word, value) ∈ constants)
    (enough : bounds.constant ≤ levels) (same : stack.constant = bounds.constant) :
    Within most (stack.room < levels) (readAtom false stack (word.toList ++ rest))
      (value, rest) := by
  rw [constant_read rest mem]
  split_ifs with short
  · exact .inr (.inr ⟨by omega, rfl⟩)
  · exact .inl rfl

theorem unsigned_head {negative : Bool} (number : Unsigned most negative text value) :
    ∃ c tail, text = c :: tail ∧ c.isDigit = true := by
  have head {figures : List Char} (whole : Whole figures) :
      ∃ c tail, figures = c :: tail ∧ c.isDigit = true := by
    rcases whole with rfl | ⟨⟨nonempty, digits⟩, -⟩
    · exact ⟨'0', [], rfl, rfl⟩
    · obtain ⟨c, tail, rfl⟩ := List.exists_cons_of_ne_nil nonempty
      exact ⟨c, tail, rfl, digits c List.mem_cons_self⟩
  cases number with
  | whole whole => exact head whole
  | real whole =>
    obtain ⟨c, tail, rfl, digit⟩ := head whole
    exact ⟨c, _, rfl, digit⟩

theorem figure_apart {c : Char} (digit : c.isDigit = true) :
    ∀ other ∈ ['"', 'n', 't', 'f', 'N', 'I', '-', '[', '{', ' ', '\t', '\n', '\r', ']', '}'],
      c ≠ other := by
  rintro other mem rfl
  have none : ∀ c ∈ ['"', 'n', 't', 'f', 'N', 'I', '-', '[', '{', ' ', '\t', '\n', '\r', ']', '}'],
      c.isDigit = false := by simp
  rw [none c mem] at digit
  cases digit

theorem readAtom_figure {c : Char} {tail : List Char} (digit : c.isDigit = true) :
    readAtom false stack (c :: tail) = readUnsigned false false (c :: tail) := by
  have apart := figure_apart digit
  simp only [List.mem_cons, forall_eq_or_imp] at apart
  simp [readAtom, apart]

theorem number_within (number : Number most text value) (delimited : Delimited rest) :
    Within most deeper (readAtom false stack (text ++ rest)) (value, rest) := by
  cases number with
  | plain number =>
    have read : Within most deeper (readUnsigned false false (text ++ rest)) (value, rest) :=
      unsigned_within number delimited
    obtain ⟨c, tail, rfl, digit⟩ := unsigned_head number
    rwa [List.cons_append, readAtom_figure digit]
  | @minus text _ number =>
    have read : Within most deeper (readUnsigned false true (text ++ rest)) (value, rest) :=
      unsigned_within number delimited
    obtain ⟨c, tail, rfl, digit⟩ := unsigned_head number
    have apart : c ≠ 'I' := figure_apart digit 'I' (by decide)
    have atom : readAtom false stack ('-' :: (c :: tail) ++ rest) =
        readUnsigned false true (c :: tail ++ rest) := by
      simp [readAtom, apart]
    rwa [atom]

theorem number_head (number : Number most text value) :
    ∃ c tail, text = c :: tail ∧
      ∀ other ∈ ['[', '{', ' ', '\t', '\n', '\r', ']', '}'], c ≠ other := by
  cases number with
  | plain number =>
    obtain ⟨c, tail, rfl, digit⟩ := unsigned_head number
    exact ⟨c, tail, rfl, fun other mem => figure_apart digit other (by simp_all)⟩
  | minus number => exact ⟨'-', _, rfl, by simp⟩

theorem name_read (body : Body text units) :
    stack.orFault (readString (text ++ '"' :: rest)) = .ok (units, rest) := by
  rw [read_string_iff.mpr ⟨text, rfl, body⟩]
  rfl

theorem string_read (body : Body text units) :
    readAtom false stack ('"' :: (text ++ '"' :: rest)) = .ok (.text units, rest) := by
  simp only [readAtom, name_read body]
  rfl

theorem word_told {spec : List Char → Written → Prop} {word : String}
    (holds : spec word.toList value) (input : List Char) :
    Told stack spec input (readWord word value input) := by
  unfold readWord
  split_ifs with begins
  · obtain ⟨rest, rfl⟩ := List.isPrefixOf_iff_prefix.mp begins
    refine ⟨word.toList, ?_, holds⟩
    rw [← String.length_toList, List.drop_left]
  · trivial

theorem constant_told {word : String} (mem : (word, value) ∈ constants) (input : List Char) :
    Told stack (Value stack.bounds stack.room) input
      (readConstant false stack word value input) := by
  by_cases short : stack.room < stack.constant
  · have taken : Told stack (fun _ _ => True) input (readWord word value input) :=
      word_told trivial input
    refine taken.bind fun text value rest _ => ?_
    rw [if_pos short]
    change stack.room < _ + max stack.constant stack.complaint
    omega
  · have taken : Told stack (Value stack.bounds stack.room) input (readWord word value input) :=
      word_told (.constant mem (Nat.not_lt.mp short)) input
    refine taken.bind fun text value rest holds => ?_
    rw [if_neg short]
    exact ⟨[], rfl, by simpa using holds⟩

theorem atom_told (stack : Stack) (input : List Char) :
    Told stack (Value stack.bounds stack.room) input (readAtom false stack input) := by
  unfold readAtom
  split
  · next tail =>
    cases read : readString tail with
    | none => exact told_fault
    | some parts =>
      obtain ⟨units, rest⟩ := parts
      obtain ⟨text, rfl, body⟩ := read_string_iff.mp read
      exact ⟨'"' :: (text ++ ['"']), by simp, .string body⟩
  · exact word_told (.word (by simp [words])) _
  · exact word_told (.word (by simp [words])) _
  · exact word_told (.word (by simp [words])) _
  · exact constant_told (by simp [constants]) _
  · exact constant_told (by simp [constants]) _
  · exact constant_told (by simp [constants]) _
  · next tail other =>
    refine Told.behind ['-'] ((unsigned_told true tail).mono ?_)
    exact fun text value number => .number (.minus number)
  · exact (unsigned_told false _).mono fun text value number => .number (.plain number)

/-! What is read is there. -/

theorem Blank.append {front back : List Char} (first : Blank front) (second : Blank back) :
    Blank (front ++ back) := by
  intro c mem
  exact (List.mem_append.mp mem).elim (first c) (second c)

theorem blank_nil : Blank [] := by simp [Blank]

theorem Element.behind {blank : List Char} (blanks : Blank blank)
    (element : Element bounds levels text value) : Element bounds levels (blank ++ text) value := by
  cases element with
  | mk before inner after =>
    rw [← List.append_assoc]
    exact .mk (blanks.append before) inner after

theorem Elements.behind {blank : List Char} {items : List Written} (blanks : Blank blank)
    (elements : Elements bounds levels text items) :
    Elements bounds levels (blank ++ text) items := by
  cases elements with
  | one element => exact .one (element.behind blanks)
  | more element rest =>
    rw [← List.append_assoc]
    exact .more (element.behind blanks) rest

theorem Member.behind {blank : List Char} {member : Units × Written} (blanks : Blank blank)
    (written : Member bounds levels text member) :
    Member bounds levels (blank ++ text) member := by
  cases written with
  | mk before name after element =>
    rw [← List.append_assoc]
    exact .mk (blanks.append before) name after element

theorem Members.behind {blank : List Char} {members : List (Units × Written)}
    (blanks : Blank blank) (written : Members bounds levels text members) :
    Members bounds levels (blank ++ text) members := by
  cases written with
  | one member => exact .one (member.behind blanks)
  | more member rest =>
    rw [← List.append_assoc]
    exact .more (member.behind blanks) rest

def ItemsText (bounds : Bounds) (levels : Nat) (text : List Char) (items : List Written) : Prop :=
  ∃ inner, text = inner ++ [']'] ∧ Elements bounds levels inner items

/-- The fields that are known behind the brace of an object, some having been `seen` before. -/
def FieldsText (bounds : Bounds) (levels : Nat) (seen : List (Units × Written)) (text : List Char)
    (fields : List (Units × Written)) : Prop :=
  ∃ inner members, text = inner ++ ['}'] ∧ Members bounds levels inner members ∧
    fields = members.foldl (fun known member => CodeAtlas.bind member.1 member.2 known) seen

/-- With this much fuel what is read is there. -/
structure Sound (fuel : Nat) : Prop where
  value : ∀ stack input, Told stack (Value stack.bounds stack.room) input
    (readValue false fuel stack input)
  items : ∀ stack input, Told stack (ItemsText stack.bounds stack.room) input
    (readItems false fuel stack input)
  fields : ∀ stack seen input, Told stack (FieldsText stack.bounds stack.room seen) input
    (readFields false fuel stack seen input)

theorem settled_bindAll (members : List (Units × Written)) : Settled members (bindAll members) :=
  ⟨keys_bindAll members, fun name => valueOf?_bindAll name members⟩

theorem Settled.eq {members fields : List (Units × Written)} (settled : Settled members fields) :
    fields = bindAll members := by
  have nodup : (fields.map Prod.fst).Nodup := settled.names ▸ nodup_distinct _
  rw [bindAll_eq, eq_of_keys nodup, settled.names]
  simp only [settled.values]

theorem list_told (smaller : Sound fuel) (stack : Stack) (tail : List Char) :
    Told stack (Value stack.bounds stack.room) ('[' :: tail)
      (readValue false (fuel + 1) stack ('[' :: tail)) := by
  obtain ⟨blank, rest, rfl, blanks, skip⟩ := skipped tail
  rw [readValue, skip]
  refine told_inside (.inl rfl) fun inner same less => ?_
  rw [← same, ← less]
  split
  · exact ⟨blank ++ [']'], by simp, .emptyList blanks⟩
  · refine Told.behind blank ((smaller.items inner rest).bind ?_)
    rintro text items behind ⟨inner, rfl, elements⟩
    exact ⟨[], rfl, by simpa using Value.list (elements.behind blanks)⟩

theorem object_told (smaller : Sound fuel) (stack : Stack) (tail : List Char) :
    Told stack (Value stack.bounds stack.room) ('{' :: tail)
      (readValue false (fuel + 1) stack ('{' :: tail)) := by
  obtain ⟨blank, rest, rfl, blanks, skip⟩ := skipped tail
  rw [readValue, skip]
  refine told_inside (.inr rfl) fun inner same less => ?_
  rw [← same, ← less]
  split
  · exact ⟨blank ++ ['}'], by simp, .emptyObject blanks⟩
  · refine Told.behind blank ((smaller.fields inner [] rest).bind ?_)
    rintro text fields behind ⟨inner, members, rfl, written, rfl⟩
    have settled : Settled members (members.foldl (fun known member =>
        CodeAtlas.bind member.1 member.2 known) []) := settled_bindAll members
    exact ⟨[], rfl, by simpa using Value.object (written.behind blanks) settled⟩

theorem items_told (smaller : Sound fuel) (stack : Stack) (input : List Char) :
    Told stack (ItemsText stack.bounds stack.room) input
      (readItems false (fuel + 1) stack input) := by
  rw [readItems]
  refine (smaller.value stack input).bind fun text item rest valued => ?_
  obtain ⟨blank, rest, rfl, blanks, skip⟩ := skipped rest
  have element : Element stack.bounds stack.room (text ++ blank) item := .mk blank_nil valued blanks
  simp only [skip]
  split
  · exact ⟨blank ++ [']'], by simp, text ++ blank, by simp, .one element⟩
  · next more =>
    obtain ⟨blank', behind, rfl, blanks', skip'⟩ := skipped more
    rw [skip']
    rw [show blank ++ ',' :: (blank' ++ behind) = (blank ++ ',' :: blank') ++ behind by simp]
    refine Told.behind _ ((smaller.items stack behind).bind ?_)
    rintro text' items last ⟨inner, rfl, elements⟩
    refine ⟨[], rfl, text ++ blank ++ ',' :: (blank' ++ inner), by simp, ?_⟩
    exact .more element (elements.behind blanks')
  · exact told_fault

def NameText (text : List Char) (name : Units) : Prop :=
  ∃ body, text = body ++ ['"'] ∧ Body body name

theorem name_told (input : List Char) :
    Told stack NameText input (stack.orFault (readString input)) := by
  cases read : readString input with
  | none => exact told_fault
  | some parts =>
    obtain ⟨name, rest⟩ := parts
    obtain ⟨text, rfl, body⟩ := read_string_iff.mp read
    exact ⟨text ++ ['"'], by simp, text, rfl, body⟩

theorem member_told (smaller : Sound fuel) (stack : Stack) (input : List Char) :
    Told stack (Member stack.bounds stack.room) input
      (readMember stack (readValue false fuel stack) input) := by
  unfold readMember
  split
  · next tail =>
    refine Told.behind ['"'] ((name_told tail).bind ?_)
    rintro _ _ rest ⟨name, rfl, body⟩
    obtain ⟨blank, rest, rfl, blanks, skip⟩ := skipped rest
    simp only [skip]
    split
    · next colon =>
      obtain ⟨before, behind, rfl, befores, skip⟩ := skipped colon
      rw [skip,
        show blank ++ ':' :: (before ++ behind) = (blank ++ ':' :: before) ++ behind by simp]
      refine Told.behind _ ((smaller.value stack behind).bind ?_)
      intro text value rest valued
      have member := Member.mk blank_nil body blanks (.mk befores valued blank_nil)
      exact ⟨[], rfl, by simpa using member⟩
    · exact told_fault
  · exact told_fault

theorem Element.before {blank : List Char} (element : Element bounds levels text value)
    (blanks : Blank blank) : Element bounds levels (text ++ blank) value := by
  cases element with
  | mk before inner after =>
    rw [List.append_assoc, List.append_assoc]
    exact .mk before inner (after.append blanks)

theorem Member.before {blank : List Char} {member : Units × Written}
    (written : Member bounds levels text member) (blanks : Blank blank) :
    Member bounds levels (text ++ blank) member := by
  cases written with
  | mk before name after element =>
    have member := Member.mk before name after (element.before blanks)
    simpa using member

theorem fields_told (smaller : Sound fuel) (stack : Stack) (seen : List (Units × Written))
    (input : List Char) : Told stack (FieldsText stack.bounds stack.room seen) input
      (readFields false (fuel + 1) stack seen input) := by
  rw [readFields]
  refine (member_told smaller stack input).bind fun text member rest written => ?_
  obtain ⟨blank, rest, rfl, blanks, skip⟩ := skipped rest
  have member := written.before blanks
  simp only [skip]
  split
  · exact ⟨blank ++ ['}'], by simp, _, _, by simp, .one member, rfl⟩
  · next more =>
    obtain ⟨blank', behind, rfl, blanks', skip⟩ := skipped more
    rw [skip, show blank ++ ',' :: (blank' ++ behind) = (blank ++ ',' :: blank') ++ behind by simp]
    refine Told.behind _ ((smaller.fields stack _ behind).mono ?_)
    rintro _ fields ⟨inner, members, rfl, others, rfl⟩
    exact ⟨_, _, by simp, .more member (others.behind blanks'), rfl⟩
  · exact told_fault

theorem readValue_atom {strict : Bool} (bracket : input.head? ≠ some '[')
    (brace : input.head? ≠ some '{') :
    readValue strict (fuel + 1) stack input = readAtom strict stack input := by
  unfold readValue
  split
  · contradiction
  · exact absurd rfl bracket
  · exact absurd rfl brace
  · simp_all

theorem value_told (smaller : Sound fuel) (stack : Stack) (input : List Char) :
    Told stack (Value stack.bounds stack.room) input
      (readValue false (fuel + 1) stack input) := by
  match input with
  | [] => exact atom_told stack []
  | c :: tail =>
    by_cases bracket : c = '['
    · exact bracket ▸ list_told smaller stack tail
    · by_cases brace : c = '{'
      · exact brace ▸ object_told smaller stack tail
      · rw [readValue_atom (by simpa using bracket) (by simpa using brace)]
        exact atom_told stack _

/-- What is read is there, with any fuel. -/
theorem sound (fuel : Nat) : Sound fuel := by
  induction fuel with
  | zero => exact ⟨fun _ _ => trivial, fun _ _ => trivial, fun _ _ _ => trivial⟩
  | succ fuel ih => exact ⟨value_told ih, items_told ih, fields_told ih⟩

/-! What is there is read. -/

theorem value_head (valued : Value bounds levels text value) :
    ∃ c tail, text = c :: tail ∧ isSpace c = false ∧ c ≠ ']' ∧ c ≠ '}' := by
  cases valued with
  | @word _ word _ mem =>
    simp only [words, List.mem_cons, Prod.mk.injEq, List.not_mem_nil, or_false] at mem
    rcases mem with ⟨rfl, -⟩ | ⟨rfl, -⟩ | ⟨rfl, -⟩ <;>
      exact ⟨_, _, rfl, by decide, by decide, by decide⟩
  | @constant _ word _ mem =>
    simp only [constants, List.mem_cons, Prod.mk.injEq, List.not_mem_nil, or_false] at mem
    rcases mem with ⟨rfl, -⟩ | ⟨rfl, -⟩ | ⟨rfl, -⟩ <;>
      exact ⟨_, _, rfl, by decide, by decide, by decide⟩
  | number number =>
    obtain ⟨c, tail, rfl, apart⟩ := number_head number
    refine ⟨c, tail, rfl, ?_, apart _ (by decide), apart _ (by decide)⟩
    simp only [List.mem_cons, forall_eq_or_imp] at apart
    simp [isSpace, apart]
  | string => exact ⟨_, _, rfl, by decide, by decide, by decide⟩
  | emptyList => exact ⟨_, _, rfl, by decide, by decide, by decide⟩
  | list => exact ⟨_, _, rfl, by decide, by decide, by decide⟩
  | emptyObject => exact ⟨_, _, rfl, by decide, by decide, by decide⟩
  | object => exact ⟨_, _, rfl, by decide, by decide, by decide⟩

theorem skip_to_value {blank : List Char} (blanks : Blank blank)
    (valued : Value bounds levels text value) :
    skipSpace (blank ++ (text ++ rest)) = text ++ rest := by
  obtain ⟨c, tail, rfl, visible, -⟩ := value_head valued
  refine skip_blank blanks fun first same => ?_
  obtain rfl := Option.some.inj same
  exact visible

theorem skip_to_mark {blank : List Char} {c : Char} (blanks : Blank blank)
    (visible : isSpace c = false) : skipSpace (blank ++ c :: rest) = c :: rest := by
  refine skip_blank blanks fun first same => ?_
  obtain rfl := Option.some.inj same
  exact visible

theorem delimited_blank {blank : List Char} (blanks : Blank blank) (delimited : Delimited rest) :
    Delimited (blank ++ rest) := by
  cases blank with
  | nil => exact delimited
  | cons c blank =>
    intro first same
    obtain rfl := Option.some.inj same
    have mem := blanks c List.mem_cons_self
    exact List.mem_append_left [',', ']', '}'] mem

theorem delimited_mark {blank : List Char} {c : Char} (blanks : Blank blank)
    (mark : c ∈ [',', ']', '}']) : Delimited (blank ++ c :: rest) := by
  refine delimited_blank blanks fun first same => ?_
  obtain rfl := Option.some.inj same
  exact List.mem_append_right [' ', '\t', '\n', '\r'] mark

/-- With this much fuel texts of this length are read, unless they ask for more than is left. -/
structure Complete (bounds : Bounds) (fuel : Nat) : Prop where
  value : ∀ {levels stack text rest value}, Value bounds levels text value → Delimited rest →
    stack.constant = bounds.constant → text.length ≤ fuel →
    Within bounds.figures (stack.room < levels) (readValue false fuel stack (text ++ rest))
      (value, rest)
  items : ∀ {levels stack text rest items}, Elements bounds levels text items →
    stack.constant = bounds.constant → text.length < fuel →
    Within bounds.figures (stack.room < levels)
      (readItems false fuel stack (skipSpace (text ++ ']' :: rest))) (items, rest)
  fields : ∀ {levels stack text rest members seen}, Members bounds levels text members →
    stack.constant = bounds.constant → text.length < fuel →
    Within bounds.figures (stack.room < levels)
      (readFields false fuel stack seen (skipSpace (text ++ '}' :: rest)))
      (members.foldl (fun known member => CodeAtlas.bind member.1 member.2 known) seen, rest)

section Complete

variable (smaller : Complete bounds fuel) (same : stack.constant = bounds.constant)

include smaller same

theorem items_within {items : List Written} (elements : Elements bounds levels text items)
    (enough : text.length < fuel + 1) :
    Within bounds.figures (stack.room < levels)
      (readItems false (fuel + 1) stack (skipSpace (text ++ ']' :: rest))) (items, rest) := by
  cases elements with
  | one element =>
    cases element with
    | mk befores valued afters =>
      simp only [List.length_append] at enough
      rw [List.append_assoc, List.append_assoc, skip_to_value befores valued, readItems]
      refine (smaller.value valued (delimited_mark afters (by decide)) same (by omega)).bind ?_
      simp only [skip_to_mark afters (by decide : isSpace ']' = false)]
      exact .inl rfl
  | more element others =>
    cases element with
    | mk befores valued afters =>
      simp only [List.length_append, List.length_cons] at enough
      rw [List.append_assoc, List.append_assoc, List.append_assoc,
        skip_to_value befores valued, readItems]
      refine (smaller.value valued (delimited_mark afters (by decide)) same (by omega)).bind ?_
      simp only [skip_to_mark afters (by decide : isSpace ',' = false)]
      exact (smaller.items others same (by omega)).bind (.inl rfl)

theorem member_within {member : Units × Written} {c : Char} (rest : List Char)
    (written : Member bounds levels text member) (mark : c ∈ [',', ']', '}'])
    (enough : text.length ≤ fuel) :
    ∃ blank, Blank blank ∧ Within bounds.figures (stack.room < levels)
      (readMember stack (readValue false fuel stack) (skipSpace (text ++ c :: rest)))
      (member, blank ++ c :: rest) := by
  cases written with
  | mk befores body afters element =>
    cases element with
    | mk inners valued ends =>
      simp only [List.length_append, List.length_cons] at enough
      refine ⟨_, ends, ?_⟩
      simp only [List.append_assoc, List.cons_append]
      rw [skip_to_mark befores (by decide), readMember]
      refine Within.bind (.inl (name_read body)) ?_
      simp only [skip_to_mark afters (by decide : isSpace ':' = false),
        skip_to_value inners valued]
      exact (smaller.value valued (delimited_mark ends mark) same (by omega)).bind (.inl rfl)

theorem fields_within {members seen : List (Units × Written)}
    (written : Members bounds levels text members) (enough : text.length < fuel + 1) :
    Within bounds.figures (stack.room < levels)
      (readFields false (fuel + 1) stack seen (skipSpace (text ++ '}' :: rest)))
      (members.foldl (fun known member => CodeAtlas.bind member.1 member.2 known) seen, rest) := by
  cases written with
  | one member =>
    obtain ⟨blank, blanks, read⟩ :=
      member_within smaller same rest member (by decide : '}' ∈ _) (by omega)
    rw [readFields]
    refine read.bind ?_
    simp only [skip_to_mark blanks (by decide : isSpace '}' = false)]
    exact .inl rfl
  | more member others =>
    simp only [List.length_append, List.length_cons] at enough
    obtain ⟨blank, blanks, read⟩ :=
      member_within smaller same _ member (by decide : ',' ∈ _) (by omega)
    rw [readFields, List.append_assoc]
    refine read.bind ?_
    simp only [skip_to_mark blanks (by decide : isSpace ',' = false)]
    exact smaller.fields others same (by omega)

end Complete

theorem elements_head {items : List Written} (elements : Elements bounds levels text items) :
    ∃ c tail, skipSpace (text ++ rest) = c :: tail ∧ c ≠ ']' := by
  have head {text rest : List Char} {item : Written} (element : Element bounds levels text item) :
      ∃ c tail, skipSpace (text ++ rest) = c :: tail ∧ c ≠ ']' := by
    cases element with
    | mk befores valued =>
      rw [List.append_assoc, List.append_assoc, skip_to_value befores valued]
      obtain ⟨c, tail, rfl, -, other, -⟩ := value_head valued
      exact ⟨c, _, rfl, other⟩
  cases elements with
  | one element => exact head element
  | more element =>
    rw [List.append_assoc]
    exact head element

theorem members_head {members : List (Units × Written)}
    (written : Members bounds levels text members) :
    ∃ tail, skipSpace (text ++ rest) = '"' :: tail := by
  have head {text rest : List Char} {member : Units × Written}
      (written : Member bounds levels text member) :
      ∃ tail, skipSpace (text ++ rest) = '"' :: tail := by
    cases written with
    | mk befores =>
      rw [List.append_assoc]
      exact ⟨_, skip_to_mark befores (by decide)⟩
  cases written with
  | one member => exact head member
  | more member =>
    rw [List.append_assoc]
    exact head member

theorem inside_within {next : Stack → Except Fault α} {result : α}
    (same : stack.constant = bounds.constant)
    (rest : ∀ inner : Stack, inner.constant = bounds.constant →
      Within most (inner.room < levels) (next inner) result) :
    Within most (stack.room < levels + 1) (stack.inside >>= next) result := by
  obtain ⟨room, constant, complaint⟩ := stack
  cases room with
  | zero => exact .inr (.inr ⟨Nat.succ_pos _, rfl⟩)
  | succ room => exact (rest ⟨room, constant, complaint⟩ same).mono Nat.succ_lt_succ

theorem list_within (smaller : Complete bounds fuel) (same : stack.constant = bounds.constant)
    {items : List Written} (elements : Elements bounds levels text items)
    (enough : text.length < fuel) :
    Within bounds.figures (stack.room < levels + 1)
      (readValue false (fuel + 1) stack ('[' :: (text ++ ']' :: rest))) (.list items, rest) := by
  rw [readValue]
  refine inside_within same fun inner same => ?_
  have read : Within bounds.figures (inner.room < levels)
      (readItems false fuel inner (skipSpace (text ++ ']' :: rest))) (items, rest) :=
    smaller.items elements same enough
  obtain ⟨c, tail, begun, other⟩ := elements_head elements
  rw [begun] at read ⊢
  split
  · next same => exact absurd (List.cons.inj same).1 other
  · exact read.bind (.inl rfl)

theorem object_within (smaller : Complete bounds fuel) (same : stack.constant = bounds.constant)
    {members fields : List (Units × Written)} (written : Members bounds levels text members)
    (settled : Settled members fields) (enough : text.length < fuel) :
    Within bounds.figures (stack.room < levels + 1)
      (readValue false (fuel + 1) stack ('{' :: (text ++ '}' :: rest))) (.object fields, rest) := by
  rw [readValue]
  refine inside_within same fun inner same => ?_
  have read : Within bounds.figures (inner.room < levels)
      (readFields false fuel inner [] (skipSpace (text ++ '}' :: rest)))
      (bindAll members, rest) :=
    smaller.fields written same enough
  rw [← settled.eq] at read
  obtain ⟨tail, begun⟩ := members_head written
  rw [begun] at read ⊢
  exact read.bind (.inl rfl)

theorem word_value_within {word : String} (rest : List Char) (mem : (word, value) ∈ words) :
    readValue false (fuel + 1) stack (word.toList ++ rest) = .ok (value, rest) := by
  have read : readAtom false stack (word.toList ++ rest) = .ok (value, rest) := word_read rest mem
  simp only [words, List.mem_cons, Prod.mk.injEq, List.not_mem_nil, or_false] at mem
  rcases mem with ⟨rfl, rfl⟩ | ⟨rfl, rfl⟩ | ⟨rfl, rfl⟩ <;>
    exact (readValue_atom (by simp) (by simp)).trans read

theorem constant_value_within {word : String} (rest : List Char)
    (mem : (word, value) ∈ constants) (enough : bounds.constant ≤ levels)
    (same : stack.constant = bounds.constant) :
    Within most (stack.room < levels) (readValue false (fuel + 1) stack (word.toList ++ rest))
      (value, rest) := by
  have read : Within most (stack.room < levels) (readAtom false stack (word.toList ++ rest))
    (value, rest) := constant_within rest mem enough same
  simp only [constants, List.mem_cons, Prod.mk.injEq, List.not_mem_nil, or_false] at mem
  rcases mem with ⟨rfl, rfl⟩ | ⟨rfl, rfl⟩ | ⟨rfl, rfl⟩ <;>
    rwa [readValue_atom (by simp) (by simp)]

theorem value_within (smaller : Complete bounds fuel) (valued : Value bounds levels text value)
    (delimited : Delimited rest) (same : stack.constant = bounds.constant)
    (enough : text.length ≤ fuel + 1) :
    Within bounds.figures (stack.room < levels)
      (readValue false (fuel + 1) stack (text ++ rest)) (value, rest) := by
  cases valued with
  | word mem => exact .inl (word_value_within rest mem)
  | constant mem above => exact constant_value_within rest mem above same
  | string body =>
    rw [readValue_atom (by simp) (by simp)]
    exact .inl (by simpa using string_read body)
  | number number =>
    have read : Within bounds.figures (stack.room < levels) (readAtom false stack (text ++ rest))
      (value, rest) := number_within number delimited
    obtain ⟨c, tail, rfl, apart⟩ := number_head number
    rwa [readValue_atom (by simpa using apart '[' (by decide))
      (by simpa using apart '{' (by decide))]
  | emptyList blanks =>
    simp only [List.cons_append, List.append_assoc, List.nil_append]
    rw [readValue, skip_to_mark blanks (by decide)]
    exact inside_within same fun _ _ => .inl rfl
  | list elements =>
    simp only [List.length_cons, List.length_append, List.length_nil] at enough
    simpa using list_within smaller same elements (by omega)
  | emptyObject blanks =>
    simp only [List.cons_append, List.append_assoc, List.nil_append]
    rw [readValue, skip_to_mark blanks (by decide)]
    exact inside_within same fun _ _ => .inl rfl
  | object written settled =>
    simp only [List.length_cons, List.length_append, List.length_nil] at enough
    simpa using object_within smaller same written settled (by omega)

/-- Texts that are shorter than the fuel are read. -/
theorem complete (bounds : Bounds) (fuel : Nat) : Complete bounds fuel := by
  induction fuel with
  | zero =>
    refine ⟨fun valued _ _ short => ?_, fun _ _ short => absurd short (Nat.not_lt_zero _),
      fun _ _ short => absurd short (Nat.not_lt_zero _)⟩
    obtain ⟨c, tail, rfl, -⟩ := value_head valued
    exact absurd short (Nat.not_succ_le_zero _)
  | succ fuel ih =>
    exact ⟨value_within ih, fun elements same => items_within ih same elements,
      fun written same => fields_within ih same written⟩

/-! Whole texts. -/

theorem element_within (written : Element bounds levels input value)
    (same : stack.constant = bounds.constant) :
    Within bounds.figures (stack.room < levels) (readText false stack input) value := by
  cases written with
  | @mk _ before text after _ befores valued afters =>
    have last : skipSpace after = [] := by
      rw [← List.append_nil after]
      exact skip_blank afters nofun
    have delimited : Delimited after := by
      rw [← List.append_nil after]
      exact delimited_blank afters nofun
    have enough : text.length ≤ (before ++ (text ++ after)).length + 1 := by
      simp only [List.length_append]
      omega
    rw [readText, skip_to_value befores valued]
    refine ((complete bounds _).value valued delimited same enough).bind ?_
    simp only [last]
    exact .inl rfl

/-- What is said of a whole text is true. -/
theorem text_told (stack : Stack) (input : List Char) :
    match readText false stack input with
    | .ok value => Element stack.bounds stack.room input value
    | .error .oversized => LongRun input
    | .error .tooDeep => Deep stack input
    | .error .malformed => True := by
  obtain ⟨blank, rest, rfl, blanks, skip⟩ := skipped input
  have told := (sound ((blank ++ rest).length + 1)).value stack rest
  rw [readText, skip]
  generalize readValue false ((blank ++ rest).length + 1) stack rest = answer at told ⊢
  match answer with
  | .error .oversized => exact LongRun.mono (List.suffix_append ..).isInfix told
  | .error .tooDeep => exact Deep.mono (List.suffix_append ..) told
  | .error .malformed => trivial
  | .ok (valued, behind) =>
    obtain ⟨text, rfl, holds⟩ := told
    obtain ⟨after, last, rfl, afters, skip'⟩ := skipped behind
    simp only [Bind.bind, Except.bind, skip']
    cases last with
    | nil => simpa using Element.mk blanks holds afters
    | cons => trivial

/-- What is read is what is written. -/
theorem read_iff {content : String} : read stack content = .ok value ↔
    IsText stack.bounds stack.room value content := by
  constructor
  · intro done
    have told := text_told stack content.toList
    rw [show readText false stack content.toList = .ok value from done] at told
    exact told
  · intro written
    obtain read | ⟨longer, -⟩ | ⟨deeper, -⟩ := element_within written rfl
    · exact read
    · exact absurd longer (Nat.lt_irrefl _)
    · exact absurd deeper (Nat.lt_irrefl _)

theorem given_up {content : String} (done : read stack content = .error .oversized) :
    LongRun content.toList := by
  have told := text_told stack content.toList
  rwa [show readText false stack content.toList = .error .oversized from done] at told

theorem given_up_inside {content : String} (done : read stack content = .error .tooDeep) :
    Deep stack content.toList := by
  have told := text_told stack content.toList
  rwa [show readText false stack content.toList = .error .tooDeep from done] at told

/-! Lists that are not closed. -/

theorem value_closed {tail : List Char} (written : Value bounds levels ('[' :: tail) value) :
    ']' ∈ tail := by
  generalize same : '[' :: tail = text at written
  cases written with
  | word mem =>
    simp only [words, List.mem_cons, Prod.mk.injEq, List.not_mem_nil, or_false] at mem
    rcases mem with ⟨rfl, -⟩ | ⟨rfl, -⟩ | ⟨rfl, -⟩ <;> simp at same
  | constant mem =>
    simp only [constants, List.mem_cons, Prod.mk.injEq, List.not_mem_nil, or_false] at mem
    rcases mem with ⟨rfl, -⟩ | ⟨rfl, -⟩ | ⟨rfl, -⟩ <;> simp at same
  | string => cases same
  | number number =>
    obtain ⟨c, behind, rfl, apart⟩ := number_head number
    exact absurd (List.cons.inj same).1.symm (apart '[' (by decide))
  | emptyList => exact (List.cons.inj same).2 ▸ by simp
  | list => exact (List.cons.inj same).2 ▸ by simp
  | emptyObject => cases same
  | object => cases same

theorem list_closed {tail : List Char} (written : Element bounds levels ('[' :: tail) value) :
    ']' ∈ tail := by
  generalize same : '[' :: tail = text at written
  cases written with
  | @mk _ before inner after _ befores valued afters =>
    cases before with
    | cons c before =>
      obtain ⟨rfl, -⟩ := List.cons.inj same
      exact absurd (befores '[' List.mem_cons_self) (by decide)
    | nil =>
      obtain ⟨c, behind, rfl, -⟩ := value_head valued
      obtain ⟨rfl, rfl⟩ := List.cons.inj same
      exact List.mem_append_left after (value_closed valued)

theorem unclosed_given_up {figures : List Char} (whole : Whole figures)
    (long : maxFigures < figures.length) (room : 0 < stack.room) :
    readText false stack ('[' :: figures) = .error .oversized := by
  have given : readUnsigned false false figures = .error .oversized := by
    have read : readUnsigned false false (figures ++ []) =
        (wholeNumber false false figures).map fun value => (value, []) :=
      number_read whole .none .none nofun
    rwa [List.append_nil, whole_number_long long] at read
  obtain ⟨left, constant, complaint⟩ := stack
  obtain ⟨left, rfl⟩ := Nat.exists_eq_succ_of_ne_zero room.ne'
  cases figures with
  | nil => exact absurd long (Nat.not_lt_zero _)
  | cons c tail =>
    have digit : c.isDigit = true := whole.digits c List.mem_cons_self
    have apart := figure_apart digit
    have visible : skipSpace (c :: tail) = c :: tail := by
      simp only [List.mem_cons, forall_eq_or_imp] at apart
      simp [skipSpace, isSpace, apart]
    have value (fuel : Nat) (stack : Stack) :
        readValue false (fuel + 1) stack (c :: tail) = .error .oversized := by
      rw [readValue_atom (by simpa using apart '[' (by decide))
        (by simpa using apart '{' (by decide)), readAtom_figure digit, given]
    have items (fuel : Nat) (stack : Stack) :
        readItems false (fuel + 2) stack (c :: tail) = .error .oversized := by
      rw [readItems, value]
      rfl
    have bracket : skipSpace ('[' :: c :: tail) = '[' :: c :: tail := rfl
    have inside : Stack.inside ⟨left.succ, constant, complaint⟩ = .ok ⟨left, constant, complaint⟩ :=
      rfl
    have other : c ≠ ']' := apart ']' (by decide)
    rw [readText, bracket, List.length_cons, List.length_cons, readValue, visible, inside]
    simp [items, other, Bind.bind, Except.bind]

end CodeAtlas.Json
