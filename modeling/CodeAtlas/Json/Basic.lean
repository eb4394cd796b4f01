import CodeAtlas.Decimal.Shortest

/-! JSON values. Objects keep their fields in the order of first appearance. -/

namespace CodeAtlas

/-- A JSON value whose texts are of some kind; integers are unbounded and the fields of an object
are ordered. -/
inductive Json (Text : Type := String) where
  | null
  | bool (value : Bool)
  | int (value : Int)
  | real (value : Real64)
  | text (value : Text)
  | list (items : List (Json Text))
  | object (fields : List (Text × Json Text))
  deriving Inhabited

namespace Json

variable {Text : Type} [DecidableEq Text]

def field? (value : Json Text) (name : Text) : Option (Json Text) :=
  match value with
  | .object fields => fields.lookup name
  | _ => none

def fieldOrNull (value : Json) (name : String) : Json := (value.field? name).getD .null

def text? : Json → Option String
  | .text value => some value
  | _ => none

/-- Whether a value counts as given: null, false, zero and everything empty do not. -/
def isGiven : Json → Bool
  | .null => false
  | .bool value => value
  | .int value => value != 0
  | .real (.finite _ digits _) => digits != 0
  | .real _ => true
  | .text value => value != ""
  | .list items => !items.isEmpty
  | .object fields => !fields.isEmpty

def texts (values : List String) : Json := .list (values.map .text)

def ofText? : Option String → Json
  | some value => .text value
  | none => .null

def nat (value : Nat) : Json := .int value

/-- The most figures of an integer that is read or written out. -/
def maxFigures : Nat := 4300

def figuresOf (value : Int) : List Char := Nat.toDigits 10 value.natAbs

mutual

def mostFigures {Text : Type} : Json Text → Nat
  | .int value => (figuresOf value).length
  | .list items => mostFiguresOfItems items
  | .object fields => mostFiguresOfFields fields
  | _ => 0

def mostFiguresOfItems {Text : Type} : List (Json Text) → Nat
  | [] => 0
  | item :: rest => max (mostFigures item) (mostFiguresOfItems rest)

def mostFiguresOfFields {Text : Type} : List (Text × Json Text) → Nat
  | [] => 0
  | (_, value) :: rest => max (mostFigures value) (mostFiguresOfFields rest)

end

mutual

/-- The levels of lists and objects in a value, where a number that is none or has no end counts as
some. -/
def levels {Text : Type} (constant : Nat) : Json Text → Nat
  | .real (.finite ..) => 0
  | .real _ => constant
  | .list items => levelsOfItems constant items + 1
  | .object fields => levelsOfFields constant fields + 1
  | _ => 0

def levelsOfItems {Text : Type} (constant : Nat) : List (Json Text) → Nat
  | [] => 0
  | item :: rest => max (levels constant item) (levelsOfItems constant rest)

def levelsOfFields {Text : Type} (constant : Nat) : List (Text × Json Text) → Nat
  | [] => 0
  | (_, value) :: rest => max (levels constant value) (levelsOfFields constant rest)

end

end Json

end CodeAtlas
