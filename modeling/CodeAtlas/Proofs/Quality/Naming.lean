import CodeAtlas.Quality.NamingStyle
import Mathlib.Computability.Language

/-! The two naming styles. Each of them is given as a regular expression and character by character,
and the reader of names agrees with both. No name has both styles, so that the style most names have
is a matter of two counts. -/
namespace CodeAtlas.Quality.NamingStyle

open Language
open scoped Computability

variable {p : Char → Bool} {c : Char} {text rest block : List Char} {name : String}
  {atStart joined : Bool} {good : List Char → Prop} {style : NamingStyle}
  {names extra : List String}

/-! Classes of characters. -/

theorem lower_eq (c : Char) : isLower c = c.isLower := rfl

theorem plain_eq (c : Char) : isPlain c = (c.isLower || c.isDigit) := rfl

theorem upper_eq (c : Char) : isUpper c = c.isUpper :=
  (Bool.decide_and ('A' ≤ c) (c ≤ 'Z')).symm

theorem alphanum_eq (c : Char) : c.isAlphanum = (isUpper c || isPlain c) := by
  rw [plain_eq, upper_eq, ← Bool.or_assoc]
  rfl

theorem alphanum_iff (c : Char) : c.isAlphanum = true ↔ isUpper c = true ∨ isPlain c = true := by
  rw [alphanum_eq, Bool.or_eq_true]

theorem plain_of_lower (lower : isLower c = true) : isPlain c = true := by
  rw [isPlain, lower, Bool.true_or]

theorem plain_not_upper (plain : isPlain c = true) : isUpper c = false := by
  simp only [isPlain, isLower, Bool.or_eq_true, Bool.and_eq_true, decide_eq_true_eq] at plain
  rw [Bool.eq_false_iff]
  intro upper
  simp only [isUpper, Bool.and_eq_true, decide_eq_true_eq] at upper
  rcases plain with ⟨low, -⟩ | ⟨-, high⟩
  · exact absurd (Char.le_trans low upper.2) (by decide)
  · exact absurd (Char.le_trans upper.1 high) (by decide)

theorem underscore_not_plain : isPlain '_' = false := by decide

/-! The styles as regular expressions. -/

def oneOf (p : Char → Bool) : Language Char := {text | ∃ c, p c = true ∧ text = [c]}

def plains : Language Char := (oneOf fun c => c.isLower || c.isDigit)∗

def several (part : Language Char) : Language Char := part * part∗

/-- The expression `[A-Z][a-z0-9]*`. -/
def hump : Language Char := oneOf Char.isUpper * plains

/-- The expression `_[a-z0-9]+`. -/
def tail : Language Char := oneOf (· == '_') * several (oneOf fun c => c.isLower || c.isDigit)

/-- The expression `[a-z][a-z0-9]*(?:[A-Z][a-z0-9]*)+`. -/
def camelPattern : Language Char := oneOf Char.isLower * (plains * several hump)

/-- The expression `[a-z][a-z0-9]*(?:_[a-z0-9]+)+`. -/
def snakePattern : Language Char := oneOf Char.isLower * (plains * several tail)

/-! The styles character by character. -/

/-- Letters and digits, a lower-case letter first and some upper-case letter later. -/
structure Humped (text : List Char) : Prop where
  begins : ∃ c, text.head? = some c ∧ c.isLower = true
  letters : ∀ c ∈ text, c.isAlphanum = true
  hump : ∃ c ∈ text, c.isUpper = true

/-- Lower-case letters, digits and underscores, a letter first; there are underscores, but none at
the end and no two in a row. -/
structure Underscored (text : List Char) : Prop where
  begins : ∃ c, text.head? = some c ∧ c.isLower = true
  letters : ∀ c ∈ text, c.isLower = true ∨ c.isDigit = true ∨ c = '_'
  joined : '_' ∈ text
  ends : text.getLast? ≠ some '_'
  single : ¬ ['_', '_'] <:+: text

/-- A text is good as it stands or without a line feed at its end. -/
def ButForNewline (good : List Char → Prop) (text : List Char) : Prop :=
  good text ∨ ∃ body, text = body ++ ['\n'] ∧ good body

/-! Parts of the expressions. -/

theorem mem_one_of_mul {part : Language Char} :
    text ∈ oneOf p * part ↔ ∃ c rest, text = c :: rest ∧ p c = true ∧ rest ∈ part := by
  rw [mem_mul]
  constructor
  · rintro ⟨_, ⟨c, inside, rfl⟩, rest, mem, rfl⟩
    exact ⟨c, rest, rfl, inside, mem⟩
  · rintro ⟨c, rest, rfl, inside, mem⟩
    exact ⟨[c], ⟨c, inside, rfl⟩, rest, mem, rfl⟩

section Repeated

variable {part : Language Char}

theorem mem_star : text ∈ part∗ ↔ text = [] ∨ text ∈ several part := by
  rw [← one_add_self_mul_kstar_eq_kstar, Language.mem_add, mem_one, several]

theorem mem_several (empty : [] ∉ part) : text ∈ several part ↔ text ∈ part∗ ∧ text ≠ [] := by
  rw [mem_star]
  constructor
  · intro mem
    refine ⟨.inr mem, ?_⟩
    rintro rfl
    obtain ⟨first, inside, others, -, whole⟩ := mem_mul.mp mem
    obtain ⟨rfl, -⟩ := List.append_eq_nil_iff.mp whole
    exact empty inside
  · rintro ⟨rfl | mem, some⟩
    · exact absurd rfl some
    · exact mem

theorem mem_star_one_of : text ∈ (oneOf p)∗ ↔ ∀ c ∈ text, p c = true := by
  induction text with
  | nil => simp [nil_mem_kstar]
  | cons c text ih =>
    rw [mem_star, several, mem_one_of_mul, List.forall_mem_cons, ← ih]
    simp

end Repeated

theorem mem_several_one_of : text ∈ several (oneOf p) ↔ (∀ c ∈ text, p c = true) ∧ text ≠ [] := by
  have empty : [] ∉ oneOf p := by
    rintro ⟨c, -, none⟩
    cases none
  rw [mem_several empty, mem_star_one_of]

theorem mem_plains : text ∈ plains ↔ ∀ c ∈ text, isPlain c = true := mem_star_one_of

theorem mem_hump : text ∈ hump ↔
    ∃ c rest, text = c :: rest ∧ c.isUpper = true ∧ ∀ d ∈ rest, isPlain d = true := by
  rw [hump, mem_one_of_mul]
  simp only [mem_plains]

theorem mem_tail : text ∈ tail ↔
    ∃ rest, text = '_' :: rest ∧ rest ≠ [] ∧ ∀ d ∈ rest, isPlain d = true := by
  rw [tail, mem_one_of_mul]
  simp only [mem_several_one_of, beq_iff_eq]
  constructor
  · rintro ⟨c, rest, rfl, rfl, inside, some⟩
    exact ⟨rest, rfl, some, inside⟩
  · rintro ⟨rest, rfl, some, inside⟩
    exact ⟨'_', rest, rfl, rfl, inside, some⟩

/-! Names in humps. -/

theorem letters_of_humps (humps : text ∈ hump∗) : ∀ c ∈ text, c.isAlphanum = true := by
  obtain ⟨parts, rfl, each⟩ := mem_kstar.mp humps
  intro c mem
  obtain ⟨part, inside, mem⟩ := List.mem_flatten.mp mem
  obtain ⟨d, rest, rfl, upper, plain⟩ := mem_hump.mp (each part inside)
  rcases List.mem_cons.mp mem with rfl | later
  · exact (alphanum_iff c).mpr (.inl ((upper_eq c).trans upper))
  · exact (alphanum_iff c).mpr (.inr (plain c later))

/-- Letters and digits are a block without upper-case letters, and humps behind it. -/
theorem split_humps (letters : ∀ c ∈ text, c.isAlphanum = true) :
    ∃ block humps, text = block ++ humps ∧ block ∈ plains ∧ humps ∈ hump∗ := by
  induction text with
  | nil => exact ⟨[], [], rfl, nil_mem_kstar _, nil_mem_kstar _⟩
  | cons c text ih =>
    obtain ⟨first, others⟩ := List.forall_mem_cons.mp letters
    obtain ⟨block, humps, rfl, plain, rest⟩ := ih others
    rcases (alphanum_iff c).mp first with upper | lower
    · refine ⟨[], c :: (block ++ humps), rfl, nil_mem_kstar _, mem_star.mpr (.inr ?_)⟩
      have begun : c :: block ∈ hump :=
        mem_hump.mpr ⟨c, block, rfl, (upper_eq c).symm.trans upper, mem_plains.mp plain⟩
      exact append_mem_mul begun rest
    · refine ⟨c :: block, humps, rfl, ?_, rest⟩
      exact mem_plains.mpr (List.forall_mem_cons.mpr ⟨lower, mem_plains.mp plain⟩)

theorem mem_camel_pattern : text ∈ camelPattern ↔ Humped text := by
  rw [camelPattern, mem_one_of_mul]
  constructor
  · rintro ⟨c, _, rfl, lower, mem⟩
    obtain ⟨block, plain, humps, several, rfl⟩ := mem_mul.mp mem
    have whole := letters_of_humps (mem_star.mpr (.inr several))
    obtain ⟨_, first, _, -, rfl⟩ := mem_mul.mp several
    obtain ⟨d, rest, rfl, upper, -⟩ := mem_hump.mp first
    refine ⟨⟨c, rfl, lower⟩, fun e mem => ?_, ⟨d, by simp, upper⟩⟩
    rcases List.mem_cons.mp mem with rfl | later
    · exact (alphanum_iff e).mpr (.inr (plain_of_lower lower))
    · rcases List.mem_append.mp later with inBlock | inHumps
      · exact (alphanum_iff e).mpr (.inr (mem_plains.mp plain e inBlock))
      · exact whole e inHumps
  · rintro ⟨⟨c, head, lower⟩, letters, ⟨d, mem, upper⟩⟩
    cases text with
    | nil => cases head
    | cons first rest =>
      obtain rfl := Option.some.inj head
      obtain ⟨block, humps, rfl, plain, later⟩ :=
        split_humps (List.forall_mem_cons.mp letters).2
      refine ⟨first, _, rfl, lower, append_mem_mul plain ?_⟩
      rcases mem_star.mp later with rfl | several
      · have flat : ∀ e ∈ first :: block, isPlain e = true :=
          List.forall_mem_cons.mpr ⟨plain_of_lower lower, mem_plains.mp plain⟩
        rw [List.append_nil] at mem
        rw [← upper_eq, plain_not_upper (flat d mem)] at upper
        cases upper
      · exact several

theorem humps_after_plains : humps (rest.dropWhile isPlain) = true ↔
    (∀ c ∈ rest, c.isAlphanum = true) ∧ ∃ c ∈ rest, c.isUpper = true := by
  induction rest with
  | nil => simp [humps]
  | cons c rest ih =>
    rw [List.forall_mem_cons, List.exists_mem_cons_iff, List.dropWhile_cons]
    by_cases plain : isPlain c = true
    · have letter := (alphanum_iff c).mpr (.inr plain)
      have flat := plain_not_upper plain
      rw [upper_eq] at flat
      simp [plain, ih, letter, flat]
    · rw [if_neg plain, humps, Bool.and_eq_true, List.all_eq_true]
      simp only [← alphanum_eq]
      constructor
      · rintro ⟨upper, letters⟩
        exact ⟨⟨(alphanum_iff c).mpr (.inl upper), letters⟩, .inl ((upper_eq c).symm.trans upper)⟩
      · rintro ⟨⟨first, letters⟩, -⟩
        exact ⟨((alphanum_iff c).mp first).resolve_right plain, letters⟩

theorem is_camel_case_iff : isCamelCase text = true ↔ Humped text := by
  cases text with
  | nil =>
    constructor
    · nofun
    · rintro ⟨⟨c, head, -⟩, -, -⟩
      cases head
  | cons c rest =>
    rw [isCamelCase, Bool.and_eq_true, humps_after_plains]
    constructor
    · rintro ⟨lower, letters, d, mem, upper⟩
      have first := (alphanum_iff c).mpr (.inr (plain_of_lower lower))
      exact ⟨⟨c, rfl, lower⟩, List.forall_mem_cons.mpr ⟨first, letters⟩,
        d, List.mem_cons_of_mem c mem, upper⟩
    · rintro ⟨⟨_, head, lower⟩, letters, d, mem, upper⟩
      obtain rfl := Option.some.inj head
      refine ⟨lower, (List.forall_mem_cons.mp letters).2, d, ?_, upper⟩
      rcases List.mem_cons.mp mem with rfl | later
      · have flat := plain_not_upper (plain_of_lower lower)
        rw [upper_eq, upper] at flat
        cases flat
      · exact later

/-! Names with underscores. -/

/-- Underscores stand apart and not at the end. -/
structure Spaced (text : List Char) : Prop where
  letters : ∀ c ∈ text, c.isLower = true ∨ c.isDigit = true ∨ c = '_'
  ends : text.getLast? ≠ some '_'
  single : ¬ ['_', '_'] <:+: text

theorem spaced_nil : Spaced [] := ⟨nofun, nofun, by simp⟩

theorem last_after (ordinary : c ≠ '_') :
    (c :: rest).getLast? = some '_' ↔ rest.getLast? = some '_' := by
  rw [List.getLast?_cons]
  cases rest.getLast? with
  | none => simp [ordinary]
  | some d => simp

theorem doubled_after (ordinary : c ≠ '_') : ['_', '_'] <:+: c :: rest ↔ ['_', '_'] <:+: rest := by
  rw [List.infix_cons_iff, List.cons_prefix_cons]
  simp [ordinary.symm]

theorem plain_iff (c : Char) : isPlain c = true ↔ c.isLower = true ∨ c.isDigit = true := by
  rw [plain_eq, Bool.or_eq_true]

theorem plain_ordinary (plain : isPlain c = true) : c ≠ '_' := by
  rintro rfl
  cases plain

theorem spaced_plain (plain : isPlain c = true) : Spaced (c :: rest) ↔ Spaced rest := by
  have last : (c :: rest).getLast? = some '_' ↔ rest.getLast? = some '_' :=
    last_after (plain_ordinary plain)
  have doubled : ['_', '_'] <:+: c :: rest ↔ ['_', '_'] <:+: rest :=
    doubled_after (plain_ordinary plain)
  have letter : c.isLower = true ∨ c.isDigit = true ∨ c = '_' :=
    ((plain_iff c).mp plain).imp_right .inl
  constructor
  · rintro ⟨letters, ends, single⟩
    exact ⟨(List.forall_mem_cons.mp letters).2, mt last.mpr ends, mt doubled.mpr single⟩
  · rintro ⟨letters, ends, single⟩
    exact ⟨List.forall_mem_cons.mpr ⟨letter, letters⟩, mt last.mp ends, mt doubled.mp single⟩

theorem spaced_underscore :
    Spaced ('_' :: rest) ↔ Spaced rest ∧ ∃ d, rest.head? = some d ∧ isPlain d = true := by
  constructor
  · rintro ⟨letters, ends, single⟩
    cases rest with
    | nil => exact absurd rfl ends
    | cons d rest =>
      obtain ⟨-, letters⟩ := List.forall_mem_cons.mp letters
      have first : d ≠ '_' := by
        rintro rfl
        exact single ⟨[], rest, rfl⟩
      refine ⟨⟨letters, ends, fun doubled => single (doubled.trans (List.suffix_cons _ _).isInfix)⟩,
        d, rfl, ?_⟩
      obtain lower | digit | rfl := letters d List.mem_cons_self
      · exact (plain_iff d).mpr (.inl lower)
      · exact (plain_iff d).mpr (.inr digit)
      · exact absurd rfl first
  · rintro ⟨⟨letters, ends, single⟩, d, head, plain⟩
    cases rest with
    | nil => cases head
    | cons e rest =>
      obtain rfl := Option.some.inj head
      refine ⟨List.forall_mem_cons.mpr ⟨.inr (.inr rfl), letters⟩, ends, ?_⟩
      rw [List.infix_cons_iff, List.cons_prefix_cons, List.cons_prefix_cons]
      rintro (⟨-, same, -⟩ | later)
      · exact plain_ordinary plain same.symm
      · exact single later

theorem plain_or_underscore (spaced : Spaced (c :: rest)) : c = '_' ∨ isPlain c = true := by
  obtain lower | digit | rfl := spaced.letters c List.mem_cons_self
  · exact .inr ((plain_iff c).mpr (.inl lower))
  · exact .inr ((plain_iff c).mpr (.inr digit))
  · exact .inl rfl

/-- The state of the reader: right after an underscore the next character has to be a plain one. -/
theorem pieces_iff : pieces atStart joined text = true ↔ Spaced text ∧
    (joined = true ∨ '_' ∈ text) ∧
    (atStart = true → ∃ c, text.head? = some c ∧ isPlain c = true) := by
  induction text generalizing atStart joined with
  | nil => simp [pieces, spaced_nil]
  | cons c rest ih =>
    rw [pieces]
    by_cases underscore : c = '_'
    · subst underscore
      rw [if_pos rfl, Bool.and_eq_true, ih, spaced_underscore]
      cases atStart <;> simp [underscore_not_plain]
    · rw [if_neg underscore, Bool.and_eq_true, ih]
      by_cases plain : isPlain c = true
      · simp [plain, spaced_plain plain, Ne.symm underscore]
      · have other : ¬ Spaced (c :: rest) := fun spaced =>
          (plain_or_underscore spaced).elim underscore plain
        simp [plain, other]

theorem not_underscored_nil : ¬ Underscored [] := by
  rintro ⟨⟨c, head, -⟩, -, -, -, -⟩
  cases head

theorem underscored_cons :
    Underscored (c :: rest) ↔ c.isLower = true ∧ Spaced rest ∧ '_' ∈ rest := by
  constructor
  · rintro ⟨⟨_, head, lower⟩, letters, joined, ends, single⟩
    obtain rfl := Option.some.inj head
    have plain := plain_of_lower lower
    refine ⟨lower, (spaced_plain plain).mp ⟨letters, ends, single⟩, ?_⟩
    exact (List.mem_cons.mp joined).resolve_left (plain_ordinary plain).symm
  · rintro ⟨lower, spaced, joined⟩
    obtain ⟨letters, ends, single⟩ := (spaced_plain (plain_of_lower lower)).mpr spaced
    exact ⟨⟨c, rfl, lower⟩, letters, List.mem_cons_of_mem c joined, ends, single⟩

theorem is_snake_case_iff : isSnakeCase text = true ↔ Underscored text := by
  cases text with
  | nil => exact ⟨nofun, fun underscored => absurd underscored not_underscored_nil⟩
  | cons c rest =>
    rw [isSnakeCase, Bool.and_eq_true, pieces_iff, underscored_cons, lower_eq]
    simp

theorem spaced_block (plain : ∀ c ∈ block, isPlain c = true) :
    Spaced (block ++ rest) ↔ Spaced rest := by
  induction block with
  | nil => rfl
  | cons c block ih =>
    obtain ⟨first, others⟩ := List.forall_mem_cons.mp plain
    rw [List.cons_append, spaced_plain first, ih others]

theorem spaced_of_tails (tails : text ∈ tail∗) : Spaced text := by
  obtain ⟨parts, rfl, each⟩ := mem_kstar.mp tails
  clear tails
  induction parts with
  | nil => exact spaced_nil
  | cons part parts ih =>
    obtain ⟨first, others⟩ := List.forall_mem_cons.mp each
    obtain ⟨block, rfl, some, plain⟩ := mem_tail.mp first
    cases block with
    | nil => exact absurd rfl some
    | cons c block =>
      refine spaced_underscore.mpr ⟨(spaced_block plain).mpr (ih others), c, rfl, ?_⟩
      exact plain c List.mem_cons_self

theorem split_tails (spaced : Spaced text) :
    ∃ block tails, text = block ++ tails ∧ block ∈ plains ∧ tails ∈ tail∗ := by
  induction text with
  | nil => exact ⟨[], [], rfl, nil_mem_kstar _, nil_mem_kstar _⟩
  | cons c text ih =>
    rcases plain_or_underscore spaced with rfl | plain
    · obtain ⟨spaced, d, head, plain⟩ := spaced_underscore.mp spaced
      obtain ⟨block, tails, rfl, flat, rest⟩ := ih spaced
      have some : block ≠ [] := by
        rintro rfl
        rcases mem_star.mp rest with rfl | several
        · cases head
        · obtain ⟨_, first, _, -, rfl⟩ := mem_mul.mp several
          obtain ⟨_, rfl, -, -⟩ := mem_tail.mp first
          obtain rfl := Option.some.inj head
          cases plain
      refine ⟨[], '_' :: (block ++ tails), rfl, nil_mem_kstar _, mem_star.mpr (.inr ?_)⟩
      have begun : '_' :: block ∈ tail := mem_tail.mpr ⟨block, rfl, some, mem_plains.mp flat⟩
      exact append_mem_mul begun rest
    · obtain ⟨block, tails, rfl, flat, rest⟩ := ih ((spaced_plain plain).mp spaced)
      refine ⟨c :: block, tails, rfl, ?_, rest⟩
      exact mem_plains.mpr (List.forall_mem_cons.mpr ⟨plain, mem_plains.mp flat⟩)

theorem mem_snake_pattern : text ∈ snakePattern ↔ Underscored text := by
  rw [snakePattern, mem_one_of_mul]
  constructor
  · rintro ⟨c, _, rfl, lower, mem⟩
    obtain ⟨block, plain, tails, several, rfl⟩ := mem_mul.mp mem
    have spaced := spaced_of_tails (mem_star.mpr (.inr several))
    obtain ⟨_, first, _, -, rfl⟩ := mem_mul.mp several
    obtain ⟨_, rfl, -, -⟩ := mem_tail.mp first
    exact underscored_cons.mpr ⟨lower, (spaced_block (mem_plains.mp plain)).mpr spaced, by simp⟩
  · intro underscored
    cases text with
    | nil => exact absurd underscored not_underscored_nil
    | cons c rest =>
      obtain ⟨lower, spaced, joined⟩ := underscored_cons.mp underscored
      obtain ⟨block, tails, rfl, plain, later⟩ := split_tails spaced
      refine ⟨c, _, rfl, lower, append_mem_mul plain ?_⟩
      rcases mem_star.mp later with rfl | several
      · rw [List.append_nil] at joined
        exact absurd rfl (plain_ordinary (mem_plains.mp plain _ joined))
      · exact several

/-! Names. -/

theorem not_both : ¬ (Humped text ∧ Underscored text) := by
  rintro ⟨humped, underscored⟩
  have letter := humped.letters '_' underscored.joined
  exact absurd letter (by decide)

theorem humped_one_line (humped : Humped text) : '\n' ∉ text := by
  intro mem
  exact absurd (humped.letters '\n' mem) (by decide)

theorem underscored_one_line (underscored : Underscored text) : '\n' ∉ text := by
  intro mem
  exact absurd (underscored.letters '\n' mem) (by decide)

theorem but_for_newline_iff (clean : ∀ text, good text → '\n' ∉ text) :
    ButForNewline good text ↔ good (withoutFinalNewline text) := by
  rw [withoutFinalNewline]
  constructor
  · rintro (whole | ⟨body, rfl, whole⟩)
    · rwa [if_neg fun last => clean text whole (List.mem_of_getLast? last)]
    · simpa using whole
  · intro whole
    by_cases last : text.getLast? = some '\n'
    · rw [if_pos last] at whole
      exact .inr ⟨_, (List.dropLast_append_getLast? _ last).symm, whole⟩
    · rw [if_neg last] at whole
      exact .inl whole

theorem camel_case_iff : ofName? name = some .camelCase ↔ ButForNewline Humped name.toList := by
  rw [but_for_newline_iff fun _ => humped_one_line, ← is_camel_case_iff, ofName?]
  split_ifs with camel snake <;> simp [camel]

theorem snake_case_iff :
    ofName? name = some .snakeCase ↔ ButForNewline Underscored name.toList := by
  rw [but_for_newline_iff fun _ => underscored_one_line, ← is_snake_case_iff, ofName?]
  split_ifs with camel snake
  · have other : ¬ isSnakeCase (withoutFinalNewline name.toList) = true := fun snake =>
      not_both ⟨is_camel_case_iff.mp camel, is_snake_case_iff.mp snake⟩
    simp [other]
  · simp [snake]
  · simp [snake]

/-! Conventions. -/

theorem count_append (style : NamingStyle) (names extra : List String) :
    count style (names ++ extra) = count style names + count style extra := by
  rw [count, List.filter_append, List.length_append, count, count]

theorem count_perm {names mixed : List String} (perm : names.Perm mixed) (style : NamingStyle) :
    count style names = count style mixed := (perm.filter _).length_eq

theorem count_without_style (none : ∀ name ∈ extra, ofName? name = none) (style : NamingStyle) :
    count style extra = 0 := by
  rw [count, List.length_eq_zero_iff, List.filter_eq_nil_iff]
  intro name mem
  simp [none name mem]

theorem dominant_iff :
    dominant? names = some style ↔
      ∀ other, other ≠ style → count other names < count style names := by
  rw [dominant?]
  constructor
  · intro found other different
    split_ifs at found with tie more
    · obtain rfl := Option.some.inj found
      cases other with
      | camelCase => exact absurd rfl different
      | snakeCase => exact more
    · obtain rfl := Option.some.inj found
      cases other with
      | camelCase => omega
      | snakeCase => exact absurd rfl different
  · intro more
    cases style with
    | camelCase =>
      have most := more .snakeCase nofun
      rw [if_neg (by omega), if_pos most]
    | snakeCase =>
      have most := more .camelCase nofun
      rw [if_neg (by omega), if_neg (by omega)]

theorem dominant_reordered {names mixed : List String} (perm : names.Perm mixed) :
    dominant? names = dominant? mixed := by
  rw [dominant?, dominant?, count_perm perm, count_perm perm]

theorem dominant_append (none : ∀ name ∈ extra, ofName? name = none) :
    dominant? (names ++ extra) = dominant? names := by
  rw [dominant?, dominant?, count_append, count_append, count_without_style none,
    count_without_style none, Nat.add_zero, Nat.add_zero]

/-- The styles are what the two expressions match, which can be told character by character, and no
name has both. The style that names have by majority is a matter of how many have each style: it
depends neither on their order nor on names without a style. -/
theorem styles_exact :
    (∀ name : String,
      (ofName? name = some .camelCase ↔ ButForNewline (· ∈ camelPattern) name.toList) ∧
      (ofName? name = some .camelCase ↔ ButForNewline Humped name.toList) ∧
      (ofName? name = some .snakeCase ↔ ButForNewline (· ∈ snakePattern) name.toList) ∧
      (ofName? name = some .snakeCase ↔ ButForNewline Underscored name.toList) ∧
      ¬ (ButForNewline (· ∈ camelPattern) name.toList ∧
        ButForNewline (· ∈ snakePattern) name.toList)) ∧
    (∀ names style, dominant? names = some style ↔
      ∀ other, other ≠ style → count other names < count style names) ∧
    (∀ names mixed : List String, names.Perm mixed → dominant? names = dominant? mixed) ∧
    (∀ names extra mixed : List String, mixed.Perm (names ++ extra) →
      (∀ name ∈ extra, ofName? name = none) → dominant? mixed = dominant? names) := by
  have camel : (· ∈ camelPattern) = Humped := funext fun text => propext mem_camel_pattern
  have snake : (· ∈ snakePattern) = Underscored := funext fun text => propext mem_snake_pattern
  rw [camel, snake]
  refine ⟨fun name => ?_, fun names style => dominant_iff,
    fun names mixed => dominant_reordered, ?_⟩
  · refine ⟨camel_case_iff, camel_case_iff, snake_case_iff, snake_case_iff, ?_⟩
    rintro ⟨humped, underscored⟩
    have both := (camel_case_iff.mpr humped).symm.trans (snake_case_iff.mpr underscored)
    cases both
  · intro names extra mixed perm none
    exact (dominant_reordered perm).trans (dominant_append none)

/-- Two humped names, one of them before a line feed, one with underscores and two without a style.
-/
theorem humps_prevail :
    dominant? ["Node", "get_user", "getUser", "a__b", "sortBy\n"] = some .camelCase := by
  have none : ∀ name ∈ ["Node", "a__b"], ofName? name = none := by decide
  have perm : ["Node", "get_user", "getUser", "a__b", "sortBy\n"].Perm
      (["get_user", "getUser", "sortBy\n"] ++ ["Node", "a__b"]) := by decide
  obtain ⟨-, -, -, among⟩ := styles_exact
  rw [among ["get_user", "getUser", "sortBy\n"] ["Node", "a__b"] _ perm none]
  decide

end CodeAtlas.Quality.NamingStyle
