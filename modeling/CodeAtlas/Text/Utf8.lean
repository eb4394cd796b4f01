/-! Text from bytes. What is no UTF-8 becomes U+FFFD, one for every longest part that could have
begun a character. -/

namespace CodeAtlas.Text

/-- The number of bytes after a leading byte, and the bounds of the first of them. -/
def leadOf (b : Nat) : Option (Nat × Nat × Nat) :=
  if 0xC2 ≤ b && b ≤ 0xDF then some (1, 0x80, 0xBF)
  else if b = 0xE0 then some (2, 0xA0, 0xBF)
  else if b = 0xED then some (2, 0x80, 0x9F)
  else if 0xE1 ≤ b && b ≤ 0xEF then some (2, 0x80, 0xBF)
  else if b = 0xF0 then some (3, 0x90, 0xBF)
  else if 0xF1 ≤ b && b ≤ 0xF3 then some (3, 0x80, 0xBF)
  else if b = 0xF4 then some (3, 0x80, 0x8F)
  else none

/-- Where a character that takes several bytes stands: how many are to come, the bounds of the next
one, and the bits so far. -/
structure Pending where
  remaining : Nat
  low : Nat
  high : Nat
  bits : Nat

/-- Decodes bytes after an unfinished character; `none` stands for what cannot be decoded. -/
def decodeAfter : Option Pending → List UInt8 → List (Option Char)
  | none, [] => []
  | some _, [] => [none]
  | pending, byte :: rest =>
    let b := byte.toNat
    let fresh : List (Option Char) :=
      if b < 0x80 then some (Char.ofNat b) :: decodeAfter none rest
      else match leadOf b with
        | some (count, low, high) =>
          let bits := if count = 1 then b % 32 else if count = 2 then b % 16 else b % 8
          decodeAfter (some ⟨count, low, high, bits⟩) rest
        | none => none :: decodeAfter none rest
    match pending with
    | none => fresh
    | some p =>
      if p.low ≤ b && b ≤ p.high then
        let bits := p.bits * 64 + b % 64
        if p.remaining ≤ 1 then some (Char.ofNat bits) :: decodeAfter none rest
        else decodeAfter (some ⟨p.remaining - 1, 0x80, 0xBF, bits⟩) rest
      else none :: fresh

def decodeReplacing (bytes : List UInt8) : List Char :=
  (decodeAfter none bytes).map (·.getD '\uFFFD')

def decode? (bytes : List UInt8) : Option (List Char) := (decodeAfter none bytes).mapM id

def normalLineEnds : List Char → List Char
  | [] => []
  | '\r' :: '\n' :: rest => '\n' :: normalLineEnds rest
  | '\r' :: rest => '\n' :: normalLineEnds rest
  | c :: rest => c :: normalLineEnds rest

end CodeAtlas.Text
