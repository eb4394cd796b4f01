import CodeAtlas.Library.Manifest
import CodeAtlas.Proofs.Json.Reading

/-! The dependencies that a manifest names, for every text that is one and for every text that is
none. -/
namespace CodeAtlas.Library

open CodeAtlas.Json (Deep IsText LongRun Stack Written maxFigures)

variable {stack : Stack} {content : String} {manifest : Written}

def NamedAt (manifest : Written) (place : Nat × Nat) (name : Name) : Prop :=
  ∃ part fields value, dependencySections[place.1]? = some part ∧
    manifest.field? (Json.units part) = some (.object fields) ∧
    fields[place.2]? = some (name, value)

/-- The names of all sections that are objects, each once and in the order of the sections. -/
structure Dependencies (manifest : Written) (names : List Name) : Prop where
  once : names.Nodup
  named : ∀ name, name ∈ names ↔ ∃ place, NamedAt manifest place name
  ordered : InOrder (Prod.Lex (· < ·) (· < ·)) (NamedAt manifest) names

theorem named_at_iff {place : Nat × Nat} {name : Name} : NamedAt manifest place name ↔
    ∃ part, dependencySections[place.1]? = some part ∧
      (sectionNames manifest part)[place.2]? = some name := by
  constructor
  · rintro ⟨part, fields, value, here, given, there⟩
    refine ⟨part, here, ?_⟩
    rw [sectionNames, given, List.getElem?_map, there]
    rfl
  · rintro ⟨part, here, there⟩
    unfold sectionNames at there
    split at there
    · next fields given =>
      rw [List.getElem?_map, Option.map_eq_some_iff] at there
      obtain ⟨⟨known, value⟩, there, rfl⟩ := there
      exact ⟨part, fields, value, here, given, there⟩
    · simp at there

theorem names_in_manifest (manifest : Written) : Dependencies manifest (namesIn manifest) where
  once := nodup_distinct _
  named name := by
    rw [namesIn, mem_distinct, List.mem_flatMap]
    constructor
    · rintro ⟨part, mem, inside⟩
      obtain ⟨k, here⟩ := List.mem_iff_getElem?.mp mem
      obtain ⟨i, there⟩ := List.mem_iff_getElem?.mp inside
      exact ⟨(k, i), named_at_iff.mpr ⟨part, here, there⟩⟩
    · rintro ⟨place, stands⟩
      obtain ⟨part, here, there⟩ := named_at_iff.mp stands
      exact ⟨part, List.mem_of_getElem? here, List.mem_of_getElem? there⟩
  ordered := by
    refine (distinct_flatMap_in_order dependencySections (sectionNames manifest)).congr ?_
    exact fun name _ place => named_at_iff.symm

theorem names_in_other (other : ∀ fields, manifest ≠ .object fields) : namesIn manifest = [] := by
  have missing (part : String) : sectionNames manifest part = [] := by
    cases manifest with
    | object fields => exact absurd rfl (other fields)
    | _ => rfl
  simp only [namesIn, dependencySections, List.flatMap_cons, List.flatMap_nil, missing]
  rfl

theorem dependencies_of_manifest (written : IsText stack.bounds stack.room manifest content) :
    readDependencies stack content = .ok (namesIn manifest) := by
  have read := Json.read_iff.mpr written
  rw [readDependencies, dependencyNames, read]

theorem dependencies_of_malformed
    (malformed : ∀ manifest, ¬ IsText stack.bounds stack.room manifest content) :
    readDependencies stack content = .ok [] ∨
      (readDependencies stack content = .error .impossibleValue ∧ LongRun content.toList) ∨
      (readDependencies stack content = .error .tooDeep ∧ Deep stack content.toList) := by
  rw [readDependencies, dependencyNames]
  cases read : Json.read stack content with
  | ok manifest => exact absurd (Json.read_iff.mp read) (malformed manifest)
  | error fault =>
    cases fault with
    | malformed => exact .inl rfl
    | oversized => exact .inr (.inl ⟨rfl, Json.given_up read⟩)
    | tooDeep => exact .inr (.inr ⟨rfl, Json.given_up_inside read⟩)

theorem dependencies_of_other {most levels : Nat}
    (written : IsText ⟨most, stack.constant⟩ levels manifest content)
    (other : ∀ manifest, ¬ IsText stack.bounds stack.room manifest content) :
    (maxFigures < most ∧ readDependencies stack content = .error .impossibleValue) ∨
      (stack.room < levels ∧ readDependencies stack content = .error .tooDeep) := by
  obtain read | ⟨longer, read⟩ | ⟨deeper, read⟩ := Json.element_within written rfl
  · exact absurd (Json.read_iff.mp read) (other manifest)
  · have read : Json.read stack content = .error .oversized := read
    rw [readDependencies, read]
    exact .inl ⟨longer, rfl⟩
  · have read : Json.read stack content = .error .tooDeep := read
    rw [readDependencies, read]
    exact .inr ⟨deeper, rfl⟩

/-- The dependencies are read exactly. A JSON text that a reader with these calls comes down to
gives the names that its value has in the three sections, and none unless it is an object; a text
that is no JSON gives none. Only where more figures stand in a row than an integer may have, or more
lists and objects are opened than there are calls, can it happen that there is no answer. It does
happen when those figures, or those levels, are all that is wrong with the text. -/
theorem dependencies_read_exactly (stack : Stack) (content : String) :
    (∀ manifest, IsText stack.bounds stack.room manifest content → ∃ names,
      readDependencies stack content = .ok names ∧ Dependencies manifest names ∧
        ((∀ fields, manifest ≠ .object fields) → names = [])) ∧
    ((∀ manifest, ¬ IsText stack.bounds stack.room manifest content) →
      readDependencies stack content = .ok [] ∨
        (readDependencies stack content = .error .impossibleValue ∧ LongRun content.toList) ∨
        (readDependencies stack content = .error .tooDeep ∧ Deep stack content.toList)) ∧
    ((∀ manifest, ¬ IsText stack.bounds stack.room manifest content) →
      (∀ most manifest, IsText ⟨most, stack.constant⟩ stack.room manifest content →
        readDependencies stack content = .error .impossibleValue) ∧
      (∀ levels manifest, IsText stack.bounds levels manifest content →
        readDependencies stack content = .error .tooDeep)) := by
  refine ⟨fun manifest written => ?_, dependencies_of_malformed, fun other => ⟨?_, ?_⟩⟩
  · exact ⟨_, dependencies_of_manifest written, names_in_manifest manifest, names_in_other⟩
  · intro most manifest written
    obtain ⟨-, refused⟩ | ⟨deeper, -⟩ := dependencies_of_other written other
    · exact refused
    · exact absurd deeper (Nat.lt_irrefl _)
  · intro levels manifest written
    obtain ⟨longer, -⟩ | ⟨-, refused⟩ := dependencies_of_other written other
    · exact absurd longer (Nat.lt_irrefl _)
    · exact refused

def braced (members : String) : String := String.ofList ('{' :: members.toList ++ ['}'])

/-- A manifest with blanks, a section given twice, one that is a list, a name in two sections, and
two names that are one half of a surrogate pair each. -/
def threeSections : String :=
  braced ("\"dependencies\" : " ++ braced "\"x\":1" ++ ",\n \"devDependencies\":" ++
    braced "\"b\":\"2\", \"a\":[], \"\\ud800\":\"1\", \"\\uD801\":\"1\"" ++
    ",\"peerDependencies\":[\"q\"], \"n\":-Infinity,\"dependencies\":" ++
    braced "\"a\":null,\"c\":1.5e3,\"a\":0" ++ " ")

theorem three_sections_read :
    ∃ manifest names, IsText (Stack.bounds {}) 960 manifest threeSections ∧
      readDependencies {} threeSections = .ok names ∧ Dependencies manifest names ∧
      names = [Json.units "a", Json.units "c", Json.units "b", [0xD800], [0xD801]] := by
  obtain ⟨readable, listed⟩ : (Json.read {} threeSections).isOk = true ∧
      (readDependencies {} threeSections).toOption =
        some [Json.units "a", Json.units "c", Json.units "b", [0xD800], [0xD801]] := by
    decide +kernel
  cases read : Json.read {} threeSections with
  | error fault =>
    rw [read] at readable
    cases readable
  | ok manifest =>
    have written := Json.read_iff.mp read
    obtain ⟨names, answered, dependencies, -⟩ :=
      (dependencies_read_exactly {} threeSections).1 manifest written
    rw [answered] at listed
    exact ⟨manifest, names, written, answered, dependencies, Option.some.inj listed⟩

def unclosedList : String := String.ofList ('[' :: List.replicate (maxFigures + 1) '1')

/-- A text that is no JSON, whatever integers and levels are allowed, is not answered with no
names. -/
theorem unclosed_list_not_answered :
    (∀ bounds levels manifest, ¬ IsText bounds levels manifest unclosedList) ∧
      readDependencies {} unclosedList = .error .impossibleValue := by
  constructor
  · intro bounds levels manifest written
    rw [IsText, unclosedList, String.toList_ofList] at written
    have bracket := List.eq_of_mem_replicate (Json.list_closed written)
    exact absurd bracket (by decide)
  · have whole : Json.Whole (List.replicate (maxFigures + 1) '1') := by
      refine .inr ⟨⟨List.cons_ne_nil _ _, fun c mem => ?_⟩, ?_⟩
      · rw [List.eq_of_mem_replicate mem]
        rfl
      · rw [List.replicate_succ, List.head?_cons]
        decide
    have long : maxFigures < (List.replicate (maxFigures + 1) '1').length := by
      rw [List.length_replicate]
      exact Nat.lt_succ_self _
    have read : Json.read {} unclosedList = .error .oversized := by
      rw [Json.read, unclosedList, String.toList_ofList]
      exact Json.unclosed_given_up whole long (by decide)
    rw [readDependencies, read]

end CodeAtlas.Library
