import CodeAtlas.Json.Plain
import CodeAtlas.Text.Words
import CodeAtlas.Yaml.Binary
import CodeAtlas.Yaml.Moment
import CodeAtlas.Yaml.Node

/-! The values behind YAML nodes. What a plain scalar means is decided by its form: null, a truth
value, an integer in one of five notations, a floating-point number, a date, or else a text. A
scalar that has the form of a value which does not exist is a fault. -/

namespace CodeAtlas

inductive Yaml where
  | null
  | bool (value : Bool)
  | int (value : Int)
  | real (value : Real64)
  | text (value : String)
  | moment (value : Yaml.Moment)
  | binary (bytes : List UInt8)
  | list (items : List Yaml)
  | mapping (pairs : List (Yaml × Yaml))
  | set (members : List Yaml)
  /-- Pairs in order, in which a key can stand more than once. -/
  | ordered (entries : List (Yaml × Yaml))
  deriving Inhabited

namespace Yaml

def isSpacedDigit (c : Char) : Bool := c.isDigit || c == '_'

def signed : List Char → Bool × List Char
  | '-' :: rest => (true, rest)
  | '+' :: rest => (false, rest)
  | digits => (false, digits)

def digitsIn (base : Nat) (digits : List Char) : Nat :=
  (digits.filter (· != '_')).foldl (fun n c => base * n + (Json.hexValue? c).getD 0) 0

def isSixtieth : List Char → Bool
  | [c] => c.isDigit
  | [tens, c] => '0' ≤ tens && tens ≤ '5' && c.isDigit
  | _ => false

/-- The value of numbers between colons, each worth sixty of the next. -/
def sixties (parts : List (List Char)) : Nat :=
  parts.foldl (fun n part => 60 * n + digitsIn 10 part) 0

def unsignedInt? (text : List Char) : Option Nat :=
  match text with
  | ['0'] => some 0
  | '0' :: 'b' :: digits =>
    if !digits.isEmpty && digits.all fun c => c == '0' || c == '1' || c == '_' then
      some (digitsIn 2 digits)
    else none
  | '0' :: 'x' :: digits =>
    if !digits.isEmpty && digits.all fun c => (Json.hexValue? c).isSome || c == '_' then
      some (digitsIn 16 digits)
    else none
  | '0' :: digits =>
    if digits.all fun c => ('0' ≤ c && c ≤ '7') || c == '_' then some (digitsIn 8 digits) else none
  | c :: _ =>
    if !c.isDigit then none
    else match Text.splitAt ':' text with
      | [whole] => if whole.all isSpacedDigit then some (digitsIn 10 whole) else none
      | whole :: parts =>
        if whole.all isSpacedDigit && parts.all isSixtieth then some (sixties (whole :: parts))
        else none
      | [] => none
  | [] => none

def int? (text : List Char) : Option Int :=
  let (negative, digits) := signed text
  (unsignedInt? digits).map fun n => if negative then -n else n

def exponent? : List Char → Option Int
  | [] => some 0
  | e :: sign :: digits =>
    if (e == 'e' || e == 'E') && (sign == '+' || sign == '-') && !digits.isEmpty
        && digits.all Char.isDigit then
      some (if sign == '-' then -(digitsIn 10 digits : Int) else digitsIn 10 digits)
    else none
  | _ => none

def decimal (negative : Bool) (whole fraction : List Char) (exponent : Int) : Real64 :=
  let fraction := fraction.filter (· != '_')
  .ofDecimal negative (digitsIn 10 (whole ++ fraction)) (exponent - fraction.length)

def real? (text : List Char) : Option Real64 :=
  let (negative, body) := signed text
  let word := String.ofList body
  if [".inf", ".Inf", ".INF"].contains word then some (.infinite negative)
  else if [".nan", ".NaN", ".NAN"].contains (String.ofList text) then some .notANumber
  else
    let whole := body.takeWhile fun c => isSpacedDigit c || c == ':'
    match body.drop whole.length with
    | '.' :: rest =>
      let fraction := rest.takeWhile isSpacedDigit
      let ending := rest.drop fraction.length
      match Text.splitAt ':' whole with
      | [[]] =>
        if text.head? == some '.' && fraction.head?.any Char.isDigit then
          (exponent? ending).map (decimal false [] fraction)
        else none
      | [digits] =>
        if digits.head?.any Char.isDigit then
          (exponent? ending).map (decimal negative digits fraction)
        else none
      | digits :: parts =>
        if digits.head?.any Char.isDigit && !digits.contains ':' && parts.all isSixtieth
            && ending.isEmpty then
          some (decimal negative (toString (sixties (digits :: parts))).toList fraction 0)
        else none
      | [] => none
    | _ => none

def bool? (word : String) : Option Bool :=
  if ["yes", "Yes", "YES", "true", "True", "TRUE", "on", "On", "ON"].contains word then some true
  else if ["no", "No", "NO", "false", "False", "FALSE", "off", "Off", "OFF"].contains word then
    some false
  else none

def isNullWord (word : String) : Bool := ["", "~", "null", "Null", "NULL"].contains word

def lacksDigits (text : List Char) : Bool :=
  match (signed text).2 with
  | '0' :: base :: digits =>
    (base == 'b' || base == 'x') && !digits.isEmpty && digits.all (· == '_')
  | _ => false

/-- Whether the figures of an integer in decimal notation are too many; before a colon they count
too. -/
def hasTooManyFigures (text : List Char) : Bool :=
  match (signed text).2 with
  | '0' :: _ => false
  | figures => Json.maxFigures < ((figures.takeWhile isSpacedDigit).filter (· != '_')).length

def checkedInt (text : List Char) (value : Int) : Except Fault Yaml :=
  if lacksDigits text || hasTooManyFigures text then .error .impossible else .ok (.int value)

def lacksFirst (text : List Char) : Bool :=
  (signed (text.filter (· != '_'))).2.isEmpty

def checkedMoment (value : Moment) : Except Fault Yaml :=
  if value.isPossible then .ok (.moment value) else .error .impossible

/-- The value of a plain scalar. The signs `<<` and `=` have no value by themselves. -/
def ofPlain (word : String) : Except Fault Yaml :=
  let chars := word.toList
  if word == "<<" || word == "=" then .error .malformed
  else if isNullWord word then .ok .null
  else match bool? word, real? chars, int? chars, Moment.ofWord? chars with
    | some value, _, _, _ => .ok (.bool value)
    | none, some value, _, _ => .ok (.real value)
    | none, none, some value, _ => checkedInt chars value
    | none, none, none, some value => checkedMoment value
    | none, none, none, none => .ok (.text word)

def ofTagged (name word : String) : Except Fault Yaml :=
  let chars := word.toList
  if name == "str" then .ok (.text word)
  else if name == "null" then .ok .null
  else if name == "bool" then
    let word := Text.lowerString word
    match bool? word with
    | some value => .ok (.bool value)
    | none => .error (.noTruth word)
  else if name == "int" then
    match int? chars with
    | some value => checkedInt chars value
    | none => .error (if lacksFirst chars then .noCharacter else .impossible)
  else if name == "float" then
    match real? chars, int? chars with
    | some value, _ => .ok (.real value)
    | none, some n => .ok (.real (.ofDecimal (n < 0) n.natAbs 0))
    | none, none =>
      .error (if chars.all (· == '_') then .noCharacter else .impossible)
  else if name == "timestamp" then
    match Moment.ofText? chars with
    | some value => checkedMoment value
    | none => .error .noMoment
  else if name == "binary" then
    match bytes? chars with
    | some bytes => .ok (.binary bytes)
    | none => .error .malformed
  else .error .malformed

def ofScalar (word : String) (plain : Bool) : Option Yaml.Tag → Except Fault Yaml
  | some .foreign => .error .malformed
  | some (.common name) => ofTagged name word
  | some .nonSpecific => ofPlain word
  | none => if plain then ofPlain word else .ok (.text word)

def allows (kind : String) : Option Yaml.Tag → Bool
  | none | some .nonSpecific => true
  | some (.common name) => name == kind
  | some .foreign => false

def canBeKey : Yaml → Bool
  | list _ | mapping _ | set _ | ordered _ => false
  | _ => true

def text? : Yaml → Option String
  | text value => some value
  | _ => none

/-- Binds a key. A text that is bound already keeps its place and takes the new value. -/
def bindPair (key value : Yaml) (pairs : List (Yaml × Yaml)) : List (Yaml × Yaml) :=
  match key.text? with
  | some name =>
    if pairs.any fun (known, _) => known.text? == some name then
      pairs.map fun (known, old) =>
        if known.text? == some name then (known, value) else (known, old)
    else pairs ++ [(key, value)]
  | none => pairs ++ [(key, value)]

def isMerge (node : Yaml.Node) : Bool := node.isSign "<<"

/-- The values of pairs by their keys; the last one of a key counts. -/
def bound (pairs : List (Yaml × Yaml)) : List (Yaml × Yaml) :=
  pairs.foldl (fun bound (key, value) => bindPair key value bound) []

mutual

def ofNode : Yaml.Node → Except Fault Yaml
  | .scalar word plain tag => ofScalar word plain tag
  | .sequence items tag =>
    if allows "seq" tag then (ofItems items).map .list
    else if tag == some (.common "omap") || tag == some (.common "pairs") then
      (ofEntries items).map .ordered
    else .error .malformed
  | .mapping pairs tag =>
    if allows "map" tag then do
      let (merged, own) ← ofPairs pairs
      return .mapping (bound (merged ++ own))
    else if tag == some (.common "set") then do
      let (merged, own) ← ofPairs pairs
      return .set ((bound (merged ++ own)).map Prod.fst)
    else .error .malformed
  | .around _ => .error .malformed

def ofItems : List Yaml.Node → Except Fault (List Yaml)
  | [] => .ok []
  | item :: rest => do
    let value ← ofNode item
    let more ← ofItems rest
    return value :: more

/-- The entries of an ordered mapping, each a mapping of one key. -/
def ofEntries : List Yaml.Node → Except Fault (List (Yaml × Yaml))
  | [] => .ok []
  | .mapping [(key, value)] _ :: rest => do
    let key ← ofNode key
    let value ← ofNode value
    let more ← ofEntries rest
    return (key, value) :: more
  | _ :: _ => .error .malformed

def ofPairs :
    List (Yaml.Node × Yaml.Node) → Except Fault (List (Yaml × Yaml) × List (Yaml × Yaml))
  | [] => .ok ([], [])
  | (key, value) :: rest => do
    if isMerge key then
      let merged ← ofMerged value
      let (more, own) ← ofPairs rest
      return (merged ++ more, own)
    else
      let keyValue ← if key.isSign "=" then .ok (.text "=") else ofNode key
      if !keyValue.canBeKey then throw .malformed
      let value ← ofNode value
      let (merged, own) ← ofPairs rest
      return (merged, (keyValue, value) :: own)

/-- The pairs to merge in: those of a mapping, or of several, of which the first counts most. -/
def ofMerged : Yaml.Node → Except Fault (List (Yaml × Yaml))
  | .mapping pairs _ => do
    let (merged, own) ← ofPairs pairs
    return merged ++ own
  | .sequence items _ => ofMergedItems items
  | .scalar .. | .around _ => .error .malformed

def ofMergedItems : List Yaml.Node → Except Fault (List (Yaml × Yaml))
  | [] => .ok []
  | .mapping pairs _ :: rest => do
    let (merged, own) ← ofPairs pairs
    let more ← ofMergedItems rest
    return more ++ merged ++ own
  | _ :: _ => .error .malformed

end

def parse (input : String) : Except Fault Yaml := do
  match ← Yaml.Node.ofTokens (← Yaml.scan input.toList) with
  | none => return .null
  | some node => ofNode node

mutual

/-- The value as JSON. Keys become their plain text, moments their figures, and bytes the text in
which they are shown. -/
def toJson : Yaml → Json
  | null => .null
  | bool value => .bool value
  | int value => .int value
  | real value => .real value
  | text value => .text value
  | moment value => .text value.render
  | binary bytes => .text (Yaml.plainBytes bytes)
  | list items => .list (itemsToJson items)
  | mapping pairs => .object (pairsToJson pairs)
  | set members => .list (itemsToJson members)
  | ordered entries => .list (entriesToJson entries)

def itemsToJson : List Yaml → List Json
  | [] => []
  | item :: rest => item.toJson :: itemsToJson rest

def pairsToJson : List (Yaml × Yaml) → List (String × Json)
  | [] => []
  | (key, value) :: rest => (key.toJson.plain, value.toJson) :: pairsToJson rest

def entriesToJson : List (Yaml × Yaml) → List Json
  | [] => []
  | (key, value) :: rest => .list [key.toJson, value.toJson] :: entriesToJson rest

end

mutual

def mostFigures : Yaml → Nat
  | int value => (Json.figuresOf value).length
  | list items => mostFiguresOfItems items
  | mapping pairs => mostFiguresOfPairs pairs
  | set members => mostFiguresOfItems members
  | ordered entries => mostFiguresOfPairs entries
  | _ => 0

def mostFiguresOfItems : List Yaml → Nat
  | [] => 0
  | item :: rest => max item.mostFigures (mostFiguresOfItems rest)

def mostFiguresOfPairs : List (Yaml × Yaml) → Nat
  | [] => 0
  | (key, value) :: rest =>
    max (max key.mostFigures value.mostFigures) (mostFiguresOfPairs rest)

end

/-- The plain text of a value that has one: an integer must not have too many figures, and a
collection must not be nested more deeply than calls are left. -/
def printed (isTooDeep : Yaml → Bool) : Yaml → Except Error String
  | text value => .ok value
  | value =>
    if !value.canBeKey && isTooDeep value then .error .tooDeep
    else if Json.maxFigures < value.mostFigures then .error .impossibleValue
    else .ok value.toJson.plain

def isGiven : Yaml → Bool
  | binary bytes => !bytes.isEmpty
  | value => value.toJson.isGiven

mutual

def ofJson : Json → Yaml
  | .null => null
  | .bool value => bool value
  | .int value => int value
  | .real value => real value
  | .text value => .text value
  | .list items => list (itemsOfJson items)
  | .object fields => mapping (pairsOfJson fields)

def itemsOfJson : List Json → List Yaml
  | [] => []
  | item :: rest => ofJson item :: itemsOfJson rest

def pairsOfJson : List (String × Json) → List (Yaml × Yaml)
  | [] => []
  | (name, value) :: rest => (.text name, ofJson value) :: pairsOfJson rest

end

end Yaml

end CodeAtlas
