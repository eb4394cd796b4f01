/-! The tokens of a YAML text, and places in it. Indentation shows in the tokens as starts and ends
of blocks, so that what follows the scanning does not look at columns any more. -/

namespace CodeAtlas.Yaml

inductive Fault where
  /-- The text breaks the rules of the format. -/
  | malformed
  /-- A scalar is to be a number, a moment or a character that does not exist. -/
  | impossible
  /-- A scalar is to be a number, and no character is left to begin it. -/
  | noCharacter
  /-- A scalar is to be a truth value, but is none of their words. -/
  | noTruth (word : String)
  /-- A scalar is to be a moment, but has not the form of one. -/
  | noMoment
  /-- The text is nested more deeply than calls are left. -/
  | tooDeep
  deriving DecidableEq, Repr

inductive Directive where
  | version
  /-- What a handle stands for in the tags of the document. -/
  | tag (handle start : String)
  | other
  deriving DecidableEq, Repr

inductive Token where
  | directive (directive : Directive)
  | documentStart
  | documentEnd
  | blockSequenceStart
  | blockMappingStart
  | blockEnd
  | flowSequenceStart
  | flowSequenceEnd
  | flowMappingStart
  | flowMappingEnd
  | blockEntry
  | flowEntry
  | key
  | value
  | alias (name : String)
  | anchor (name : String)
  /-- A tag as it is written; one that is written out in full has no handle. -/
  | tag (handle : Option String) (rest : String)
  | scalar (text : String) (plain : Bool)
  deriving DecidableEq, Repr

/-- A place in a text: what is left, how much was passed, and the line and column reached. -/
structure Place where
  rest : List Char
  index : Nat := 0
  line : Nat := 0
  column : Nat := 0
  deriving Repr

def isBreak (c : Char) : Bool :=
  c == '\n' || c == '\r' || c == Char.ofNat 0x85 || c == Char.ofNat 0x2028 || c == Char.ofNat 0x2029

def endsLine : Option Char → Bool
  | none => true
  | some c => isBreak c

def endsWord : Option Char → Bool
  | none => true
  | some c => c == ' ' || c == '\t' || isBreak c

namespace Place

def peek (place : Place) (distance : Nat := 0) : Option Char := place.rest[distance]?

def next (place : Place) : Place :=
  match place.rest with
  | [] => place
  | c :: rest =>
    if isBreak c && !(c == '\r' && rest.head? == some '\n') then
      ⟨rest, place.index + 1, place.line + 1, 0⟩
    else if c == Char.ofNat 0xFEFF then ⟨rest, place.index + 1, place.line, place.column⟩
    else ⟨rest, place.index + 1, place.line, place.column + 1⟩

def forward (place : Place) : Nat → Place
  | 0 => place
  | count + 1 => place.next.forward count

def takeWhile (place : Place) (p : Char → Bool) : List Char × Place :=
  let taken := place.rest.takeWhile p
  (taken, place.forward taken.length)

def skipWhile (place : Place) (p : Char → Bool) : Place := (place.takeWhile p).2

def lineBreak (place : Place) : Option (Char × Place) :=
  match place.rest with
  | '\r' :: '\n' :: _ => some ('\n', place.forward 2)
  | c :: _ =>
    if c == '\r' || c == '\n' || c == Char.ofNat 0x85 then some ('\n', place.next)
    else if isBreak c then some (c, place.next)
    else none
  | [] => none

/-- Whether a line that begins here marks the bounds of a document with three of `c`. -/
def isMarker (place : Place) (c : Char) : Bool :=
  place.rest.take 3 == [c, c, c] && endsWord (place.peek 3)

def isDocumentMarker (place : Place) : Bool := place.isMarker '-' || place.isMarker '.'

end Place

end CodeAtlas.Yaml
