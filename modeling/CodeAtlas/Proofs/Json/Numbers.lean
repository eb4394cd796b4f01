import CodeAtlas.Proofs.Json.Grammar
import CodeAtlas.Proofs.Text.Runs

/-! Numbers are read as the grammar says, up to the first character that does not continue them. An
integer of too many figures is the one thing that is not read and yet no fault of the text. -/
namespace CodeAtlas.Json

variable {α β : Type} {most : Nat} {deeper : Prop} {stack : Stack}
  {input text figures rest : List Char}

/-! Outcomes. -/

def LongRun (text : List Char) : Prop :=
  ∃ figures, figures <:+: text ∧ maxFigures < figures.length ∧ ∀ c ∈ figures, c.isDigit = true

def openings (text : List Char) : Nat := text.countP fun c => c == '[' || c == '{'

/-- The calls that are left may not be enough for what the text opens, and for what else takes
some. -/
def Deep (stack : Stack) (text : List Char) : Prop :=
  stack.room < openings text + max stack.constant stack.complaint

/-- What a reader says of a text is true: the part that it took is of the value it gives, and it
gives up only at too many figures or too many levels. -/
def Told (stack : Stack) (spec : List Char → α → Prop) (input : List Char) :
    Except Fault (α × List Char) → Prop
  | .ok (value, rest) => ∃ text, input = text ++ rest ∧ spec text value
  | .error .oversized => LongRun input
  | .error .tooDeep => Deep stack input
  | .error .malformed => True

/-- A reader gives the expected answer, unless longer integers are expected than it takes, or
deeper values. -/
def Within (most : Nat) (deeper : Prop) (answer : Except Fault α) (value : α) : Prop :=
  answer = .ok value ∨ (maxFigures < most ∧ answer = .error .oversized) ∨
    (deeper ∧ answer = .error .tooDeep)

theorem LongRun.mono {inner outer : List Char} (within : inner <:+: outer) (long : LongRun inner) :
    LongRun outer := by
  obtain ⟨figures, inside, rest⟩ := long
  exact ⟨figures, inside.trans within, rest⟩

theorem Deep.mono {inner outer : List Char} (within : inner <:+ outer) (deep : Deep stack inner) :
    Deep stack outer :=
  lt_of_lt_of_le deep (Nat.add_le_add_right within.sublist.countP_le _)

theorem Within.bind {answer : Except Fault α} {next : α → Except Fault β} {value : α} {result : β}
    (first : Within most deeper answer value) (second : Within most deeper (next value) result) :
    Within most deeper (answer >>= next) result := by
  obtain rfl | ⟨longer, rfl⟩ | ⟨deep, rfl⟩ := first
  · exact second
  · exact .inr (.inl ⟨longer, rfl⟩)
  · exact .inr (.inr ⟨deep, rfl⟩)

theorem Within.mono {other : Prop} {answer : Except Fault α} {value : α}
    (within : Within most deeper answer value) (weaker : deeper → other) :
    Within most other answer value :=
  within.imp_right fun refused => refused.imp_right fun ⟨deep, same⟩ => ⟨weaker deep, same⟩

/-! Figures. -/

theorem figures_taken (digits : Figures text)
    (right : ∀ c, rest.head? = some c → c.isDigit = false) :
    (text ++ rest).takeWhile Char.isDigit = text ∧ (text ++ rest).dropWhile Char.isDigit = rest :=
  ⟨Text.takeWhile_run digits.2 right, Text.dropWhile_run digits.2 right⟩

theorem figures_of_taken {first : Char} {others : List Char}
    (taken : input.takeWhile Char.isDigit = first :: others) :
    input = (first :: others) ++ input.dropWhile Char.isDigit ∧ Figures (first :: others) := by
  refine ⟨taken ▸ (List.takeWhile_append_dropWhile ..).symm, List.cons_ne_nil _ _, ?_⟩
  intro c mem
  exact List.mem_takeWhile_imp (taken ▸ mem)

theorem whole_read (whole : Whole figures)
    (right : ∀ c, rest.head? = some c → c.isDigit = false) :
    wholeFigures? (figures ++ rest) = some (figures, rest) := by
  rcases whole with rfl | ⟨digits, nonzero⟩
  · rfl
  · obtain ⟨taken, dropped⟩ := figures_taken digits right
    cases figures with
    | nil => exact absurd rfl digits.1
    | cons first figures =>
      unfold wholeFigures?
      split
      · next zero =>
        obtain ⟨rfl, -⟩ := List.cons.inj zero
        exact absurd rfl nonzero
      · rw [taken, dropped]

theorem whole_of_read (read : wholeFigures? input = some (figures, rest)) :
    input = figures ++ rest ∧ Whole figures := by
  unfold wholeFigures? at read
  split at read
  · cases read
    exact ⟨rfl, .inl rfl⟩
  · next zero =>
    cases taken : input.takeWhile Char.isDigit with
    | nil => simp [taken] at read
    | cons first others =>
      obtain ⟨split, digits⟩ := figures_of_taken taken
      obtain ⟨rfl, rfl⟩ : first :: others = figures ∧ input.dropWhile Char.isDigit = rest := by
        simpa [taken] using read
      refine ⟨split, .inr ⟨digits, ?_⟩⟩
      rintro ⟨rfl⟩
      exact zero _ split

theorem Whole.digits (whole : Whole figures) : ∀ c ∈ figures, c.isDigit = true := by
  rcases whole with rfl | ⟨digits, -⟩
  · simp
  · exact digits.2

/-! Fractions and exponents. -/

theorem fraction_read (fraction : Fraction text figures)
    (right : ∀ c, rest.head? = some c → c.isDigit = false) (point : rest.head? ≠ some '.') :
    readFraction (text ++ rest) = (figures, rest) := by
  cases fraction with
  | none =>
    unfold readFraction
    split
    · next other same => exact absurd (congrArg List.head? same) point
    · rfl
  | some digits =>
    obtain ⟨taken, dropped⟩ := figures_taken digits right
    cases figures with
    | nil => exact absurd rfl digits.1
    | cons first figures =>
      rw [List.cons_append, readFraction, taken, dropped]

theorem fraction_of_read (read : readFraction input = (figures, rest)) :
    ∃ text, input = text ++ rest ∧ Fraction text figures := by
  unfold readFraction at read
  split at read
  · next tail =>
    cases taken : tail.takeWhile Char.isDigit with
    | nil =>
      obtain ⟨rfl, rfl⟩ : [] = figures ∧ '.' :: tail = rest := by simpa [taken] using read
      exact ⟨[], rfl, .none⟩
    | cons first others =>
      obtain ⟨split, digits⟩ := figures_of_taken taken
      obtain ⟨rfl, rfl⟩ : first :: others = figures ∧ tail.dropWhile Char.isDigit = rest := by
        simpa [taken] using read
      exact ⟨'.' :: first :: others, congrArg ('.' :: ·) split, .some digits⟩
  · cases read
    exact ⟨[], rfl, .none⟩

/-- What may stand behind a value: nothing, a blank, or a mark of the list or object around it. -/
def Delimited (rest : List Char) : Prop :=
  ∀ c, rest.head? = some c → c ∈ [' ', '\t', '\n', '\r', ',', ']', '}']

theorem Delimited.no_digit (delimited : Delimited rest) :
    ∀ c, rest.head? = some c → c.isDigit = false := by
  intro c first
  have marks : ∀ c ∈ [' ', '\t', '\n', '\r', ',', ']', '}'], c.isDigit = false := by simp
  exact marks c (delimited c first)

theorem Delimited.head_ne (delimited : Delimited rest) {c : Char}
    (other : c ∉ [' ', '\t', '\n', '\r', ',', ']', '}']) : rest.head? ≠ some c :=
  fun first => other (delimited c first)

theorem exponent_read {exponent : Option Int} (written : Exponent text exponent)
    (delimited : Delimited rest) : readExponent (text ++ rest) = (exponent, rest) := by
  cases written with
  | none =>
    cases rest with
    | nil => rfl
    | cons c rest =>
      have mem := delimited c rfl
      have apart : c ≠ 'e' ∧ c ≠ 'E' := by
        constructor <;>
        · rintro rfl
          revert mem
          decide
      simp [readExponent, apart]
  | @some mark sign figures unit marked signed digits =>
    obtain ⟨taken, dropped⟩ := figures_taken digits delimited.no_digit
    cases figures with
    | nil => exact absurd rfl digits.1
    | cons first figures =>
      have apart : first ≠ '-' ∧ first ≠ '+' := by
        have digit := digits.2 first List.mem_cons_self
        constructor <;>
        · rintro rfl
          revert digit
          decide
      simp only [signs, List.mem_cons, Prod.mk.injEq, List.not_mem_nil, or_false] at marked signed
      rcases marked with rfl | rfl <;> rcases signed with ⟨rfl, rfl⟩ | ⟨rfl, rfl⟩ | ⟨rfl, rfl⟩ <;>
        simp_all [readExponent, exponentFigures]

theorem exponent_of_figures {mark : Char} {sign tail : List Char} {unit : Int}
    {exponent : Option Int} (marked : mark ∈ ['e', 'E'])
    (signed : (sign, unit) ∈ signs)
    (read : exponentFigures (mark :: (sign ++ tail)) unit tail = (exponent, rest)) :
    ∃ text, mark :: (sign ++ tail) = text ++ rest ∧ Exponent text exponent := by
  unfold exponentFigures at read
  cases taken : tail.takeWhile Char.isDigit with
  | nil =>
    rw [taken] at read
    obtain ⟨rfl, rfl⟩ := Prod.mk.inj read
    exact ⟨[], rfl, .none⟩
  | cons first others =>
    obtain ⟨split, digits⟩ := figures_of_taken taken
    rw [taken] at read
    obtain ⟨rfl, rfl⟩ := Prod.mk.inj read
    refine ⟨mark :: (sign ++ first :: others), ?_, .some marked signed digits⟩
    rw [List.cons_append, List.append_assoc, ← split]

theorem exponent_of_read {exponent : Option Int} (read : readExponent input = (exponent, rest)) :
    ∃ text, input = text ++ rest ∧ Exponent text exponent := by
  have unsigned : ([], (1 : Int)) ∈ signs := by decide
  have plus : (['+'], (1 : Int)) ∈ signs := by decide
  have minus : (['-'], (-1 : Int)) ∈ signs := by decide
  unfold readExponent at read
  split at read
  · exact exponent_of_figures (by decide) minus read
  · exact exponent_of_figures (by decide) minus read
  · exact exponent_of_figures (by decide) plus read
  · exact exponent_of_figures (by decide) plus read
  · exact exponent_of_figures (by decide) unsigned read
  · exact exponent_of_figures (by decide) unsigned read
  · obtain ⟨rfl, rfl⟩ := Prod.mk.inj read
    exact ⟨[], rfl, .none⟩

/-! Numbers. -/

theorem exponent_head {exponent : Option Int} (written : Exponent text exponent)
    (delimited : Delimited rest) {c : Char} (first : (text ++ rest).head? = some c) :
    c.isDigit = false ∧ c ≠ '.' := by
  cases written with
  | none =>
    refine ⟨delimited.no_digit c first, ?_⟩
    rintro rfl
    exact delimited.head_ne (by decide) first
  | some marked signed digits =>
    obtain rfl := Option.some.inj first
    simp only [List.mem_cons, List.not_mem_nil, or_false] at marked
    rcases marked with rfl | rfl <;> decide

theorem fraction_head {point tail : List Char} (fraction : Fraction point figures)
    (right : ∀ c, tail.head? = some c → c.isDigit = false) :
    ∀ c, (point ++ tail).head? = some c → c.isDigit = false := by
  cases fraction with
  | none => exact right
  | some digits =>
    intro c first
    obtain rfl := Option.some.inj first
    rfl

theorem unsigned_parts {negative : Bool} {fraction tail behind : List Char}
    {exponent : Option Int} (first : wholeFigures? input = some (figures, tail))
    (second : readFraction tail = (fraction, behind))
    (third : readExponent behind = (exponent, rest)) :
    readUnsigned false negative input =
      (numberValue false negative figures fraction exponent).map fun value => (value, rest) := by
  simp only [readUnsigned, first, second, third, orMalformed, Bind.bind, Except.bind,
    Bool.false_and, Bool.false_eq_true, if_false]
  cases numberValue false negative figures fraction exponent <;> rfl

/-- Every number is read up to what delimits it. -/
theorem number_read {negative : Bool} {point fraction mark : List Char} {exponent : Option Int}
    (whole : Whole figures) (pointed : Fraction point fraction) (marked : Exponent mark exponent)
    (delimited : Delimited rest) :
    readUnsigned false negative (figures ++ (point ++ (mark ++ rest))) =
      (numberValue false negative figures fraction exponent).map fun value => (value, rest) := by
  have head : ∀ c, (mark ++ rest).head? = some c → c.isDigit = false ∧ c ≠ '.' :=
    fun c => exponent_head marked delimited
  have digit : ∀ c, (mark ++ rest).head? = some c → c.isDigit = false := fun c first =>
    (head c first).1
  have dot : (mark ++ rest).head? ≠ some '.' := fun first => (head '.' first).2 rfl
  exact unsigned_parts (whole_read whole (fraction_head pointed digit))
    (fraction_read pointed digit dot) (exponent_read marked delimited)

theorem whole_number_short {negative : Bool} (short : figures.length ≤ maxFigures) :
    wholeNumber false negative figures =
      .ok (.int (if negative then -(digitsValue figures : Int) else digitsValue figures)) := by
  simp [wholeNumber, Nat.not_lt.mpr short]

theorem whole_number_long {negative : Bool} (long : maxFigures < figures.length) :
    wholeNumber false negative figures = .error .oversized := by
  simp [wholeNumber, long]

theorem number_value_real {negative : Bool} {point fraction mark : List Char}
    {exponent : Option Int} (pointed : Fraction point fraction) (marked : Exponent mark exponent)
    (some : point ++ mark ≠ []) :
    numberValue false negative figures fraction exponent =
      .ok (.real (.ofDecimal negative (digitsValue (figures ++ fraction))
        (exponent.getD 0 - fraction.length))) := by
  have apart : (fraction.isEmpty && exponent.isNone) = false := by
    cases pointed with
    | none =>
      cases marked with
      | none => exact absurd rfl some
      | some => simp
    | some digits => simp [digits.1]
  rw [numberValue, apart]
  rfl

theorem unsigned_within {negative : Bool} {value : Written}
    (number : Unsigned most negative text value) (delimited : Delimited rest) :
    Within most deeper (readUnsigned false negative (text ++ rest)) (value, rest) := by
  cases number with
  | whole whole short =>
    have read : readUnsigned false negative (text ++ rest) =
        (wholeNumber false negative text).map fun value => (value, rest) :=
      number_read whole .none .none delimited
    by_cases long : maxFigures < text.length
    · rw [read, whole_number_long long]
      exact .inr (.inl ⟨by omega, rfl⟩)
    · rw [read, whole_number_short (by omega)]
      exact .inl rfl
  | real whole pointed marked some =>
    rw [List.append_assoc, List.append_assoc, number_read whole pointed marked delimited,
      number_value_real pointed marked some]
    exact .inl rfl

/-- What is read as a number is one. -/
theorem unsigned_told (negative : Bool) (input : List Char) :
    Told stack (Unsigned maxFigures negative) input (readUnsigned false negative input) := by
  cases read : wholeFigures? input with
  | none =>
    simp [readUnsigned, read, orMalformed, Told, Bind.bind, Except.bind]
  | some parts =>
    obtain ⟨figures, tail⟩ := parts
    obtain ⟨rfl, whole⟩ := whole_of_read read
    cases first : readFraction tail with
    | mk fraction behind =>
    cases second : readExponent behind with
    | mk exponent rest =>
    obtain ⟨point, rfl, pointed⟩ := fraction_of_read first
    obtain ⟨mark, rfl, marked⟩ := exponent_of_read second
    rw [unsigned_parts read first second]
    by_cases some : point ++ mark = []
    · obtain ⟨rfl, rfl⟩ := List.append_eq_nil_iff.mp some
      cases pointed
      cases marked
      change Told _ _ _ ((wholeNumber false negative figures).map fun value => (value, rest))
      by_cases long : maxFigures < figures.length
      · rw [whole_number_long long]
        exact ⟨figures, (List.prefix_append ..).isInfix, long, whole.digits⟩
      · rw [whole_number_short (by omega)]
        exact ⟨figures, rfl, .whole whole (by omega)⟩
    · rw [number_value_real pointed marked some]
      exact ⟨figures ++ (point ++ mark), by simp, .real whole pointed marked some⟩

end CodeAtlas.Json
