import CodeAtlas.Error
import CodeAtlas.Text.Classes
import CodeAtlas.Json.Printer

/-! The plain text of a value, in which it is stored where text is wanted and shown in messages: a
text is itself, a number its digits, and null and the truth values are capitalised words. Texts
inside lists and objects stand between quotes. -/

namespace CodeAtlas.Json

def isInvisible (c : Char) : Bool :=
  Text.inRanges c.toNat
    [(0x0, 0x1F), (0x7F, 0xA0), (0xAD, 0xAD), (0x600, 0x605), (0x61C, 0x61C), (0x6DD, 0x6DD),
     (0x70F, 0x70F), (0x1680, 0x1680), (0x180E, 0x180E), (0x2000, 0x200F), (0x2028, 0x202F),
     (0x205F, 0x206F), (0x3000, 0x3000), (0xE000, 0xF8FF), (0xFEFF, 0xFEFF), (0xFFF0, 0xFFFB),
     (0xFFFE, 0xFFFF), (0xE0000, 0x10FFFF)]

def hexDigits (n : Nat) : Nat → List Char
  | 0 => []
  | count + 1 => hexDigits (n / 16) count ++ [hexDigit (n % 16)]

def plainEscape (quote c : Char) : List Char :=
  if c = quote || c = '\\' then ['\\', c]
  else if c = '\n' then ['\\', 'n']
  else if c = '\r' then ['\\', 'r']
  else if c = '\t' then ['\\', 't']
  else if isInvisible c then
    if c.toNat < 0x100 then '\\' :: 'x' :: hexDigits c.toNat 2
    else if c.toNat < 0x10000 then '\\' :: 'u' :: hexDigits c.toNat 4
    else '\\' :: 'U' :: hexDigits c.toNat 8
  else [c]

/-- A text between quotes: single ones, unless it holds those and no double ones. -/
def plainQuoted (value : String) : List Char :=
  let chars := value.toList
  let quote := if chars.contains '\'' && !chars.contains '"' then '"' else '\''
  quote :: chars.flatMap (plainEscape quote) ++ [quote]

mutual

def plainInside : Json → List Char
  | .null => "None".toList
  | .bool value => (if value then "True" else "False").toList
  | .int value => (toString value).toList
  | .real value => value.render.toList
  | .text value => plainQuoted value
  | .list [] => ['[', ']']
  | .list (item :: rest) => '[' :: plainInside item ++ plainItems rest
  | .object [] => ['{', '}']
  | .object ((name, value) :: rest) =>
    '{' :: plainQuoted name ++ [':', ' '] ++ plainInside value ++ plainFields rest

def plainItems : List Json → List Char
  | [] => [']']
  | item :: rest => ',' :: ' ' :: plainInside item ++ plainItems rest

def plainFields : List (String × Json) → List Char
  | [] => ['}']
  | (name, value) :: rest =>
    ',' :: ' ' :: plainQuoted name ++ [':', ' '] ++ plainInside value ++ plainFields rest

end

def plain : Json → String
  | .text value => value
  | value => String.ofList (plainInside value)

def hasParts : Json → Bool
  | .list _ | .object _ => true
  | _ => false

/-- The plain text of a value that has one: an integer must not have too many figures, and a list or
an object must not be nested more deeply than calls are left. -/
def printed (isTooDeep : Json → Bool) : Json → Except Error String
  | .text value => .ok value
  | value =>
    if value.hasParts && isTooDeep value then .error .tooDeep
    else if maxFigures < value.mostFigures then .error .impossibleValue
    else .ok value.plain

end CodeAtlas.Json
