import CodeAtlas.Json.Basic

/-! Texts by their UTF-16 units, in which JSON writes them. A text can so be written that holds one
half of a surrogate pair by itself and is made of no characters. -/

namespace CodeAtlas.Json

abbrev Units := List UInt16

/-- A JSON value as a text writes it. -/
abbrev Written := Json Units

def isHigh (unit : UInt16) : Bool := 0xD800 ≤ unit && unit < 0xDC00

def isLow (unit : UInt16) : Bool := 0xDC00 ≤ unit && unit < 0xE000

/-- One unit, or the two halves of a pair for a character beyond U+FFFF. -/
def charUnits (c : Char) : Units :=
  let n := c.toNat
  if n < 0x10000 then [.ofNat n]
  else [.ofNat (0xD800 + (n - 0x10000) / 0x400), .ofNat (0xDC00 + (n - 0x10000) % 0x400)]

def units (text : String) : Units := text.toList.flatMap charUnits

def pairChar (high low : UInt16) : Char :=
  Char.ofNat (0x10000 + (high.toNat - 0xD800) * 0x400 + (low.toNat - 0xDC00))

def chars? : Units → Option (List Char)
  | [] => some []
  | [unit] => if isHigh unit || isLow unit then none else some [Char.ofNat unit.toNat]
  | unit :: next :: rest =>
    if isHigh unit then
      if isLow next then (chars? rest).map (pairChar unit next :: ·) else none
    else if isLow unit then none
    else (chars? (next :: rest)).map (Char.ofNat unit.toNat :: ·)

def textOf? (units : Units) : Option String := (chars? units).map String.ofList

mutual

def written : Json → Written
  | .null => .null
  | .bool value => .bool value
  | .int value => .int value
  | .real value => .real value
  | .text value => .text (units value)
  | .list items => .list (writtenItems items)
  | .object fields => .object (writtenFields fields)

def writtenItems : List Json → List Written
  | [] => []
  | item :: rest => written item :: writtenItems rest

def writtenFields : List (String × Json) → List (Units × Written)
  | [] => []
  | (name, value) :: rest => (units name, written value) :: writtenFields rest

end

mutual

def legible? : Written → Option Json
  | .null => some .null
  | .bool value => some (.bool value)
  | .int value => some (.int value)
  | .real value => some (.real value)
  | .text value => (textOf? value).map .text
  | .list items => (legibleItems? items).map .list
  | .object fields => (legibleFields? fields).map .object

def legibleItems? : List Written → Option (List Json)
  | [] => some []
  | item :: rest => do
    let item ← legible? item
    let rest ← legibleItems? rest
    return item :: rest

def legibleFields? : List (Units × Written) → Option (List (String × Json))
  | [] => some []
  | (name, value) :: rest => do
    let name ← textOf? name
    let value ← legible? value
    let rest ← legibleFields? rest
    return (name, value) :: rest

end

end CodeAtlas.Json
