/-! The SHA-1 digest of a byte string, as forty hexadecimal digits. -/

namespace CodeAtlas.Digest

structure State where
  a : UInt32
  b : UInt32
  c : UInt32
  d : UInt32
  e : UInt32
  deriving DecidableEq

def State.initial : State := ⟨0x67452301, 0xEFCDAB89, 0x98BADCFE, 0x10325476, 0xC3D2E1F0⟩

def State.add (s t : State) : State := ⟨s.a + t.a, s.b + t.b, s.c + t.c, s.d + t.d, s.e + t.e⟩

def rotate (word : UInt32) (count : UInt32) : UInt32 :=
  (word <<< count) ||| (word >>> (32 - count))

def mix (round : Nat) (s : State) : UInt32 × UInt32 :=
  if round < 20 then ((s.b &&& s.c) ||| (s.b.complement &&& s.d), 0x5A827999)
  else if round < 40 then (s.b ^^^ s.c ^^^ s.d, 0x6ED9EBA1)
  else if round < 60 then ((s.b &&& s.c) ||| (s.b &&& s.d) ||| (s.c &&& s.d), 0x8F1BBCDC)
  else (s.b ^^^ s.c ^^^ s.d, 0xCA62C1D6)

/-- The remaining rounds of a block. The window holds the next sixteen words of the schedule. -/
def rounds : Nat → List UInt32 → State → State
  | 0, _, s => s
  | left + 1, window, s =>
    let word := window.headD 0
    let (f, k) := mix (79 - left) s
    let next := rotate
      (window.headD 0 ^^^ window.getD 2 0 ^^^ window.getD 8 0 ^^^ window.getD 13 0) 1
    rounds left (window.drop 1 ++ [next])
      ⟨rotate s.a 5 + f + s.e + k + word, s.a, rotate s.b 30, s.c, s.d⟩

def wordsOf : List UInt8 → List UInt32
  | p :: q :: r :: s :: rest =>
    (p.toUInt32 <<< 24 ||| q.toUInt32 <<< 16 ||| r.toUInt32 <<< 8 ||| s.toUInt32) :: wordsOf rest
  | _ => []

def blocks : Nat → List UInt32 → State → State
  | 0, _, s => s
  | count + 1, words, s =>
    blocks count (words.drop 16) (s.add (rounds 80 (words.take 16) s))

def lengthBytes (n : Nat) : List UInt8 :=
  [56, 48, 40, 32, 24, 16, 8, 0].map fun shift => UInt8.ofNat (n >>> shift)

/-- The message with its end mark, zeros and bit length: a multiple of 64 bytes. -/
def padded (message : List UInt8) : List UInt8 :=
  let zeros := (119 - message.length % 64) % 64
  message ++ 0x80 :: List.replicate zeros 0 ++ lengthBytes (8 * message.length)

def hexWord (word : UInt32) : List Char :=
  [28, 24, 20, 16, 12, 8, 4, 0].map fun shift => Nat.digitChar (word.toNat >>> shift % 16)

def sha1 (message : List UInt8) : String :=
  let bytes := padded message
  let s := blocks (bytes.length / 64) (wordsOf bytes) .initial
  String.ofList ([s.a, s.b, s.c, s.d, s.e].flatMap hexWord)

-- irreducible, so that only the kernel computes a digest
@[irreducible]
def ofText (text : String) : String := sha1 text.toUTF8.data.toList

end CodeAtlas.Digest
