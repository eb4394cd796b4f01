import CodeAtlas.Json.Plain

/-! Bytes as YAML writes them, in base 64, and as they are shown in messages. -/

namespace CodeAtlas.Yaml

def sextet? (c : Char) : Option Nat :=
  if 'A' ≤ c && c ≤ 'Z' then some (c.toNat - 65)
  else if 'a' ≤ c && c ≤ 'z' then some (c.toNat - 71)
  else if c.isDigit then some (c.toNat + 4)
  else if c = '+' then some 62
  else if c = '/' then some 63
  else none

/-- The bytes of a text in base 64. `place` counts the characters read of a group of four, `left`
holds the bits that have made no byte yet, and `pads` counts the equals signs since. A full group
ends where equals signs complete it; characters of another kind are passed over. -/
def fromBase64 (place left pads : Nat) : List Char → Option (List UInt8)
  | [] => if place = 0 then some [] else none
  | '=' :: rest =>
    if place < 2 then fromBase64 place left pads rest
    else if place + pads + 1 < 4 then fromBase64 place left (pads + 1) rest
    else some []
  | c :: rest =>
    match sextet? c, place with
    | none, _ => fromBase64 place left pads rest
    | some bits, 0 => fromBase64 1 bits 0 rest
    | some bits, 1 => (fromBase64 2 (bits % 16) 0 rest).map (.ofNat (left * 4 + bits / 16) :: ·)
    | some bits, 2 => (fromBase64 3 (bits % 4) 0 rest).map (.ofNat (left * 16 + bits / 4) :: ·)
    | some bits, _ => (fromBase64 0 0 0 rest).map (.ofNat (left * 64 + bits) :: ·)

def bytes? (text : List Char) : Option (List UInt8) :=
  if text.all fun c => c.toNat < 128 then fromBase64 0 0 0 text else none

def plainByte (quote : Char) (byte : UInt8) : List Char :=
  if byte.toNat < 127 then Json.plainEscape quote (Char.ofNat byte.toNat)
  else '\\' :: 'x' :: Json.hexDigits byte.toNat 2

def plainBytes (bytes : List UInt8) : String :=
  let holds (c : Char) : Bool := bytes.any fun byte => byte.toNat == c.toNat
  let quote := if holds '\'' && !holds '"' then '"' else '\''
  String.ofList ('b' :: quote :: bytes.flatMap (plainByte quote) ++ [quote])

end CodeAtlas.Yaml
