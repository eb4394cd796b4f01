import CodeAtlas.Json.Units

/-! Two written forms of JSON. The indented form is plain ASCII: every other character becomes a
`\u` escape of its UTF-16 units. The compact form has no blanks and escapes only what JSON
forces. -/

namespace CodeAtlas.Json

def hexDigit (n : Nat) : Char :=
  if n < 10 then Char.ofNat (48 + n) else Char.ofNat (87 + n)

def unitEscape (n : Nat) : List Char :=
  ['\\', 'u', hexDigit (n / 4096 % 16), hexDigit (n / 256 % 16), hexDigit (n / 16 % 16),
    hexDigit (n % 16)]

def shortEscape? (c : Char) : Option Char :=
  if c = '"' then some '"'
  else if c = '\\' then some '\\'
  else if c = '\n' then some 'n'
  else if c = '\r' then some 'r'
  else if c = '\t' then some 't'
  else if c = Char.ofNat 8 then some 'b'
  else if c = Char.ofNat 12 then some 'f'
  else none

def asciiEscape (unit : UInt16) : List Char :=
  let n := unit.toNat
  if n < 0x7F then
    match shortEscape? (Char.ofNat n) with
    | some letter => ['\\', letter]
    | none => if n < 0x20 then unitEscape n else [Char.ofNat n]
  else unitEscape n

def compactEscape (c : Char) : List Char :=
  match shortEscape? c with
  | some letter => ['\\', letter]
  | none => if c.toNat < 0x20 then unitEscape c.toNat else [c]

def quoted {α : Type} (escape : α → List Char) (parts : List α) : List Char :=
  '"' :: parts.flatMap escape ++ ['"']

def asciiQuoted (value : Units) : List Char := quoted asciiEscape value

def compactQuoted (value : String) : List Char := quoted compactEscape value.toList

def realText : Real64 → List Char
  | .notANumber => "NaN".toList
  | .infinite negative => (if negative then "-Infinity" else "Infinity").toList
  | value => value.render.toList

/-- The text of a floating-point number in the compact form, in which there is none but a finite
one: positional while the order of magnitude is from -5 to 15, otherwise with an exponent. -/
def compactReal : Real64 → List Char
  | .finite negative digits exponent =>
    let sign := if negative then ['-'] else []
    if digits = 0 then sign ++ ['0', '.', '0']
    else
      let figures := Nat.toDigits 10 digits
      let order : Int := figures.length + exponent - 1
      let zeros (n : Nat) := List.replicate n '0'
      let body : List Char :=
        if -5 ≤ order && order < 0 then '0' :: '.' :: zeros (order.natAbs - 1) ++ figures
        else if 0 ≤ order && order < 16 then
          let whole := order.natAbs + 1
          let padded := figures ++ zeros (whole - figures.length)
          let fraction := padded.drop whole
          padded.take whole ++ '.' :: (if fraction.isEmpty then ['0'] else fraction)
        else
          let mantissa := match figures with
            | first :: second :: rest => first :: '.' :: second :: rest
            | short => short
          mantissa ++ 'e' :: (toString order).toList
      sign ++ body
  | _ => "null".toList

def atomText {Text : Type} (quote : Text → List Char) (real : Real64 → List Char) :
    Json Text → List Char
  | .bool true => "true".toList
  | .bool false => "false".toList
  | .int value => (toString value).toList
  | .real value => real value
  | .text value => quote value
  | _ => "null".toList

def newline (depth : Nat) : List Char := '\n' :: List.replicate (2 * depth) ' '

mutual

def indented (depth : Nat) : Written → List Char
  | .list [] => ['[', ']']
  | .list (item :: rest) =>
    '[' :: newline (depth + 1) ++ indented (depth + 1) item ++ indentedItems depth rest
  | .object [] => ['{', '}']
  | .object ((name, value) :: rest) =>
    '{' :: newline (depth + 1) ++ asciiQuoted name ++ [':', ' '] ++
      indented (depth + 1) value ++ indentedFields depth rest
  | atom => atomText asciiQuoted realText atom

def indentedItems (depth : Nat) : List Written → List Char
  | [] => newline depth ++ [']']
  | item :: rest =>
    ',' :: newline (depth + 1) ++ indented (depth + 1) item ++ indentedItems depth rest

def indentedFields (depth : Nat) : List (Units × Written) → List Char
  | [] => newline depth ++ ['}']
  | (name, value) :: rest =>
    ',' :: newline (depth + 1) ++ asciiQuoted name ++ [':', ' '] ++
      indented (depth + 1) value ++ indentedFields depth rest

end

def pretty (value : Written) : String := String.ofList (indented 0 value)

mutual

def compactly : Json → List Char
  | .list [] => ['[', ']']
  | .list (item :: rest) => '[' :: compactly item ++ compactItems rest
  | .object [] => ['{', '}']
  | .object ((name, value) :: rest) =>
    '{' :: compactQuoted name ++ [':'] ++ compactly value ++ compactFields rest
  | atom => atomText compactQuoted compactReal atom

def compactItems : List Json → List Char
  | [] => [']']
  | item :: rest => ',' :: compactly item ++ compactItems rest

def compactFields : List (String × Json) → List Char
  | [] => ['}']
  | (name, value) :: rest =>
    ',' :: compactQuoted name ++ [':'] ++ compactly value ++ compactFields rest

end

def compact (value : Json) : String := String.ofList (compactly value)

mutual

def hasWords : Json → Bool
  | .int value => -(2 ^ 63) ≤ value && value < 2 ^ 64
  | .list items => haveWords items
  | .object fields => fieldsHaveWords fields
  | _ => true

def haveWords : List Json → Bool
  | [] => true
  | item :: rest => hasWords item && haveWords rest

def fieldsHaveWords : List (String × Json) → Bool
  | [] => true
  | (_, value) :: rest => hasWords value && fieldsHaveWords rest

end

/-- Whether a value has a compact form: its integers are of 64 bits and it is not nested deeply. -/
def isCompactable (value : Json) : Bool := value.hasWords && value.levels 0 ≤ 254

end CodeAtlas.Json
