import CodeAtlas.Proofs.Decimal.Stable
import CodeAtlas.Proofs.Distinct
import CodeAtlas.Proofs.Json.Reading

/-! Values as texts hold them: no object has a name twice, and every floating-point number is held
by its shortest decimal. Whatever a reader gives is such a value. -/
namespace CodeAtlas.Json

variable {Text : Type}

/-- A value that is a JSON value through and through. -/
inductive Proper : Json Text → Prop
  | null : Proper .null
  | bool (value : Bool) : Proper (.bool value)
  | int (value : Int) : Proper (.int value)
  | real {value : Real64} : value.Stable → Proper (.real value)
  | text (value : Text) : Proper (.text value)
  | list {items : List (Json Text)} : (∀ item ∈ items, Proper item) → Proper (.list items)
  | object {fields : List (Text × Json Text)} : (fields.map Prod.fst).Nodup →
      (∀ field ∈ fields, Proper field.2) → Proper (.object fields)

namespace Proper

attribute [simp] null bool int text

theorem list_map {α : Type} {f : α → Json Text} {items : List α}
    (each : ∀ item ∈ items, Proper (f item)) :
    Proper (.list (items.map f)) := by
  refine .list fun value mem => ?_
  obtain ⟨item, inside, rfl⟩ := List.mem_map.mp mem
  exact each item inside

@[simp] theorem texts (values : List String) : Proper (Json.texts values) :=
  list_map fun value _ => .text value

@[simp] theorem nat (value : Nat) : Proper (Json.nat value) := .int value

@[simp] theorem of_text? (value : Option String) : Proper (ofText? value) := by
  cases value with
  | none => exact .null
  | some value => exact .text value

theorem counts {α : Type} {name : α → String} (injective : Function.Injective name)
    {counts : List (α × Nat)} (once : (counts.map Prod.fst).Nodup) :
    Proper (.object (counts.map fun entry => (name entry.1, Json.nat entry.2))) := by
  refine .object ?_ fun field mem => ?_
  · have names := once.map injective
    rw [List.map_map] at names
    rwa [List.map_map]
  · obtain ⟨entry, -, rfl⟩ := List.mem_map.mp mem
    exact nat entry.2

end Proper

theorem mostFigures_item {item : Json Text} {items : List (Json Text)} (mem : item ∈ items) :
    mostFigures item ≤ mostFiguresOfItems items := by
  induction mem with
  | head => exact le_max_left ..
  | tail _ _ ih => exact ih.trans (le_max_right ..)

theorem mostFigures_field {field : Text × Json Text} {fields : List (Text × Json Text)}
    (mem : field ∈ fields) : mostFigures field.2 ≤ mostFiguresOfFields fields := by
  induction mem with
  | head => exact le_max_left ..
  | tail _ _ ih => exact ih.trans (le_max_right ..)

theorem levels_item {constant : Nat} {item : Json Text} {items : List (Json Text)}
    (mem : item ∈ items) : levels constant item ≤ levelsOfItems constant items := by
  induction mem with
  | head => exact le_max_left ..
  | tail _ _ ih => exact ih.trans (le_max_right ..)

theorem levels_field {constant : Nat} {field : Text × Json Text}
    {fields : List (Text × Json Text)} (mem : field ∈ fields) :
    levels constant field.2 ≤ levelsOfFields constant fields := by
  induction mem with
  | head => exact le_max_left ..
  | tail _ _ ih => exact ih.trans (le_max_right ..)

end CodeAtlas.Json
