import CodeAtlas.Relations.Inference
import Mathlib.Data.List.TakeWhile

/-! Where heritage is read. No part of a heritage clause reads past a brace, so each clause lies
before the first one or behind it. The interfaces are those of the header. The superclass is that of
the header if there is one, and else the first one that is named behind the brace, in whatever class
or text stands there. -/
namespace CodeAtlas.Relations

open CodeAtlas.Source (ClassElement)
open CodeAtlas.Text

variable {header body other : List Char}

/-! A brace stops every reader. -/

theorem takeWhile_stopped {p : Char → Bool} (stops : p '{' = false) (header body : List Char) :
    (header ++ '{' :: body).takeWhile p = header.takeWhile p := by
  rw [List.takeWhile_append, List.takeWhile_cons_of_neg (by simp [stops]), List.append_nil]
  split
  case isTrue whole => exact ((List.takeWhile_prefix p).eq_of_length whole).symm
  case isFalse => rfl

theorem dropWhile_stopped {p : Char → Bool} (stops : p '{' = false) (header body : List Char) :
    (header ++ '{' :: body).dropWhile p = header.dropWhile p ++ '{' :: body := by
  rw [List.dropWhile_append, List.dropWhile_cons_of_neg (by simp [stops])]
  split
  case isTrue none => rw [List.isEmpty_iff.mp none, List.nil_append]
  case isFalse => rfl

theorem brace_not_blank : isBlank '{' = false := by decide

theorem brace_no_name : isNameChar '{' = false := by decide +kernel

theorem after_stopped {start : List Char} (plain : '{' ∉ start) (header body : List Char) :
    after? start (header ++ '{' :: body) = (after? start header).map (· ++ '{' :: body) := by
  induction start generalizing header with
  | nil => rfl
  | cons s start ih =>
    have other : s ≠ '{' := fun same => plain (same ▸ List.mem_cons_self)
    have plain : '{' ∉ start := fun mem => plain (List.mem_cons_of_mem _ mem)
    cases header with
    | nil => simp [after?, other]
    | cons c header =>
      simp only [List.cons_append, after?]
      by_cases same : s = c
      · rw [if_pos same, if_pos same, ih plain]
      · rw [if_neg same, if_neg same]
        rfl

theorem word_stopped {word : String} (plain : '{' ∉ word.toList) (header body : List Char) :
    afterWord? word (header ++ '{' :: body) = (afterWord? word header).map (· ++ '{' :: body) :=
  after_stopped plain header body

theorem blanks_stopped (header body : List Char) :
    afterBlanks? (header ++ '{' :: body) = (afterBlanks? header).map (· ++ '{' :: body) := by
  cases header with
  | nil => rfl
  | cons c header =>
    simp only [List.cons_append, afterBlanks?, dropWhile_stopped brace_not_blank]
    split <;> rfl

theorem name_stopped (header body : List Char) : name? (header ++ '{' :: body) =
    (name? header).map fun read => (read.1, read.2 ++ '{' :: body) := by
  rw [name?, name?, takeWhile_stopped brace_no_name, dropWhile_stopped brace_no_name]
  cases header.takeWhile isNameChar <;> rfl

theorem length_of_name {text name rest : List Char} (read : name? text = some (name, rest)) :
    rest.length < text.length := by
  unfold name? at read
  split at read
  · cases read
  · next nonempty =>
    obtain ⟨rfl, rfl⟩ := Prod.mk.inj (Option.some.inj read)
    have whole : (text.takeWhile isNameChar).length + (text.dropWhile isNameChar).length =
        text.length := by
      rw [← List.length_append, List.takeWhile_append_dropWhile]
    have := List.length_pos_iff.mpr nonempty
    omega

/-- Any number of steps that suffices for the header suffices for both. -/
theorem component_stopped (header body last : List Char) {fuel enough : Nat}
    (long : header.length ≤ fuel) (longer : header.length ≤ enough) :
    lastComponent last fuel (header ++ '{' :: body) = lastComponent last enough header := by
  induction fuel generalizing header last enough with
  | zero =>
    obtain rfl := List.length_eq_zero_iff.mp (Nat.le_zero.mp long)
    cases enough <;> rfl
  | succ fuel ih =>
    match header, long, longer with
    | [], _, _ => cases enough <;> simp [lastComponent]
    | c :: header, long, longer =>
      obtain ⟨enough, rfl⟩ : ∃ n, enough = n + 1 := ⟨enough - 1, by simp at longer; omega⟩
      by_cases dot : c = '.'
      · subst dot
        rw [List.cons_append, lastComponent, lastComponent, name_stopped]
        cases read : name? header with
        | none => rfl
        | some found =>
          obtain ⟨name, rest⟩ := found
          have := length_of_name read
          simp only [List.length_cons] at long longer
          exact ih rest name (by omega) (by omega)
      · simp [lastComponent, dot]

theorem bind_stopped {α β : Type} {read longer : Option α} {left : α → α} {next : α → Option β}
    (stopped : longer = read.map left) (same : ∀ rest, next (left rest) = next rest) :
    longer.bind next = read.bind next := by
  subst stopped
  cases read with
  | none => rfl
  | some rest => exact same rest

theorem clause_stopped (header body : List Char) :
    extendsClause? (header ++ '{' :: body) = extendsClause? header := by
  refine bind_stopped (blanks_stopped header body) fun rest => ?_
  refine bind_stopped (word_stopped (by decide) rest body) fun rest => ?_
  refine bind_stopped (blanks_stopped rest body) fun rest => ?_
  refine bind_stopped (name_stopped rest body) fun ⟨name, rest⟩ => ?_
  exact congrArg some (component_stopped rest body name (by simp) (Nat.le_refl _))

theorem parameters_stopped (header body : List Char) :
    extendsAfterParameters? (header ++ '{' :: body) = extendsAfterParameters? header := by
  induction header with
  | nil => rfl
  | cons c header ih =>
    by_cases brace : c = '{'
    · subst brace
      rfl
    · by_cases closes : c = '>'
      · subst closes
        rw [List.cons_append, extendsAfterParameters?, extendsAfterParameters?, clause_stopped, ih]
      · simp [extendsAfterParameters?, ih]

theorem superclass_here_stopped (header body : List Char) :
    superclassHere? (header ++ '{' :: body) = superclassHere? header := by
  refine bind_stopped (word_stopped (by decide) header body) fun rest => ?_
  refine bind_stopped (blanks_stopped rest body) fun rest => ?_
  refine bind_stopped (name_stopped rest body) fun ⟨name, rest⟩ => ?_
  simp only [dropWhile_stopped brace_not_blank, clause_stopped]
  cases rest.dropWhile isBlank with
  | nil => rfl
  | cons c inner =>
    by_cases opens : c = '<'
    · subst opens
      simp only [List.cons_append, parameters_stopped]
    · simp [opens]

theorem superclass_in_stopped (header body : List Char) : superclassIn? (header ++ '{' :: body) =
    (superclassIn? header).or (superclassIn? body) := by
  induction header with
  | nil => rfl
  | cons c header ih =>
    rw [List.cons_append, superclassIn?, superclassIn?, ← List.cons_append,
      superclass_here_stopped, ih]
    cases superclassHere? (c :: header) <;> rfl

/-! Declarations. -/

variable {header body other : String}

theorem toList_declaration (header body : String) :
    (header.push '{' ++ body).toList = header.toList ++ '{' :: body.toList := by
  simp

theorem superclass_of_parts (header body : String) : findSuperclass (header.push '{' ++ body) =
    (findSuperclass header).or (findSuperclass body) := by
  rw [findSuperclass, toList_declaration, superclass_in_stopped, findSuperclass, findSuperclass]
  cases superclassIn? header.toList <;> rfl

theorem interfaces_of_header (plain : '{' ∉ header.toList) (body : String) :
    findInterfaces (header.push '{' ++ body) = findInterfaces header := by
  have whole : header.toList.takeWhile (· != '{') = header.toList := by
    rw [List.takeWhile_eq_self_iff]
    intro c mem
    exact bne_iff_ne.mpr fun same => plain (same ▸ mem)
  rw [findInterfaces, toList_declaration, takeWhile_stopped rfl, findInterfaces, whole]

theorem of_class_eq_iff {name text rewritten : String}
    (interfaces : findInterfaces text = findInterfaces rewritten) :
    ofClass ⟨name, text⟩ = ofClass ⟨name, rewritten⟩ ↔
      findSuperclass text = findSuperclass rewritten := by
  constructor
  · intro same
    rw [ofClass, ofClass, interfaces, List.append_left_inj] at same
    have targets := congrArg (List.map Relationship.targetName) same
    simp only [List.map_map, Function.comp_def, List.map_id'] at targets
    simpa only [Option.head?_toList] using congrArg List.head? targets
  · intro same
    rw [ofClass, ofClass, interfaces, same]

/-- Of a declaration whose header holds no brace, the interfaces are those of the header, whatever
stands behind it. The superclass is that of the header, or else the one that is named first behind
the brace; so two declarations with one header have the same heritage just when the header names the
superclass, or what stands behind names the same one in both. -/
theorem heritage_of_parts (plain : '{' ∉ header.toList) (name body other : String) :
    findInterfaces (header.push '{' ++ body) = findInterfaces (header.push '{' ++ other) ∧
    findInterfaces (header.push '{' ++ body) = findInterfaces header ∧
    findSuperclass (header.push '{' ++ body) = (findSuperclass header).or (findSuperclass body) ∧
    (ofClass ⟨name, header.push '{' ++ body⟩ = ofClass ⟨name, header.push '{' ++ other⟩ ↔
      (findSuperclass header).isSome ∨ findSuperclass body = findSuperclass other) := by
  have same : findInterfaces (header.push '{' ++ body) =
      findInterfaces (header.push '{' ++ other) := by
    rw [interfaces_of_header plain, interfaces_of_header plain]
  refine ⟨same, interfaces_of_header plain body, superclass_of_parts header body, ?_⟩
  rw [of_class_eq_iff same, superclass_of_parts, superclass_of_parts]
  cases findSuperclass header <;> simp

/-- A class that names its superclass keeps it, even with another class in one of its methods. -/
theorem named_superclass_kept :
    '{' ∉ "class Card<T> extends ui.Base implements Shown, Sized ".toList ∧
    findInterfaces ("class Card<T> extends ui.Base implements Shown, Sized ".push '{' ++
      " m() { class Inner extends Other implements Hidden {} } ".push '}') = ["Shown", "Sized"] ∧
    findSuperclass ("class Card<T> extends ui.Base implements Shown, Sized ".push '{' ++
      " m() { class Inner extends Other implements Hidden {} } ".push '}') = some "Base" := by
  have plain : '{' ∉ "class Card<T> extends ui.Base implements Shown, Sized ".toList := by decide
  obtain ⟨-, interfaces, superclass, -⟩ := heritage_of_parts plain "Card"
    (" m() { class Inner extends Other implements Hidden {} } ".push '}') ""
  refine ⟨plain, interfaces.trans ?_, superclass.trans ?_⟩
  · decide +kernel
  · decide +kernel

/-- A class without a superclass gets the one of a class in its method. -/
theorem superclass_behind_brace :
    ¬ ∀ header body other : String, '{' ∉ header.toList →
      findSuperclass (header.push '{' ++ body) = findSuperclass (header.push '{' ++ other) := by
  intro claimed
  have same := claimed "class A " (" m() { class B extends C {} } ".push '}') (" ".push '}')
    (by decide)
  revert same
  decide +kernel

end CodeAtlas.Relations
