import CodeAtlas.Text.WordRanges
import CodeAtlas.Text.CaseRanges

/-! Character classes and letter case over all of Unicode. A word character is a letter, a number or
`_`; a blank is a space, a line end or one of the information separators. Lower-casing is the full
mapping, in which the form of a final sigma depends on its neighbours. -/

namespace CodeAtlas.Text

def inRanges (n : Nat) : List (Nat × Nat) → Bool
  | [] => false
  | (first, last) :: rest => first ≤ n && (n ≤ last || inRanges n rest)

def isAlphanumeric (c : Char) : Bool := inRanges c.toNat alphanumericRanges

/-- Letters, numbers and the underscore; combining marks are not word characters. -/
def isWord (c : Char) : Bool := c == '_' || isAlphanumeric c

/-- Spaces of every width, line ends, tabs and the information separators U+001C to U+001F. -/
def isBlank (c : Char) : Bool :=
  inRanges c.toNat
    [(0x9, 0xD), (0x1C, 0x20), (0x85, 0x85), (0xA0, 0xA0), (0x1680, 0x1680), (0x2000, 0x200A),
     (0x2028, 0x2029), (0x202F, 0x202F), (0x205F, 0x205F), (0x3000, 0x3000)]

/-- An upper-case letter; a title-case letter is not one. -/
def isUppercase (c : Char) : Bool :=
  uppercaseRuns.any fun (first, last, step) =>
    first ≤ c.toNat && c.toNat ≤ last && (c.toNat - first) % step == 0

def runImage (n : Nat) : List (Nat × Nat × Nat × Nat) → Option Nat
  | [] => none
  | (first, last, step, image) :: rest =>
    if first ≤ n && n ≤ last && (n - first) % step == 0 then some (image + (n - first))
    else runImage n rest

/-- The lower case of a character by itself, without the final-sigma rule. -/
def lowerOf (c : Char) : List Char :=
  if c.toNat < 0x80 then [c.toLower]
  else if c == 'İ' then ['i', Char.ofNat 0x307]
  else [((runImage c.toNat lowerRuns).map Char.ofNat).getD c]

def upperOf (c : Char) : List Char :=
  if c.toNat < 0x80 then [c.toUpper]
  else match upperExpansions.lookup c.toNat with
    | some codes => codes.map Char.ofNat
    | none => [((runImage c.toNat upperRuns).map Char.ofNat).getD c]

def casedFirst : List Char → Bool
  | [] => false
  | c :: rest =>
    if inRanges c.toNat caseIgnorableRanges then casedFirst rest
    else inRanges c.toNat casedRanges

/-- Lower-cases `text`, where `before` holds the characters already passed, nearest first. A capital
sigma that ends a word becomes the final form. -/
def lowerAfter (before : List Char) : List Char → List Char
  | [] => []
  | c :: rest =>
    let image :=
      if c == 'Σ' then [if casedFirst before && !casedFirst rest then 'ς' else 'σ'] else lowerOf c
    image ++ lowerAfter (c :: before) rest

def lower (text : List Char) : List Char := lowerAfter [] text

def upper (text : List Char) : List Char := text.flatMap upperOf

def lowerString (text : String) : String := String.ofList (lower text.toList)

def upperString (text : String) : String := String.ofList (upper text.toList)

end CodeAtlas.Text
