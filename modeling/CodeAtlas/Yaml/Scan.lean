import CodeAtlas.Text.Utf8
import CodeAtlas.Yaml.Scalar

/-! Scanning a YAML text into tokens. Columns open and close blocks. A mapping key shows only by the
colon after it, so the scanner remembers where a key may have begun and puts the key's token there
when the colon comes. -/

namespace CodeAtlas.Yaml

/-- A token that may turn out to be a key: where its token stands and where it began. -/
structure KeyCandidate where
  /-- Nesting of brackets and braces at the key. -/
  level : Nat
  /-- How many tokens stood before the key. -/
  position : Nat
  /-- Whether a key must stand here. -/
  required : Bool
  index : Nat
  line : Nat
  column : Nat
  deriving Repr

structure Scanner where
  place : Place
  tokens : List Token := []
  level : Nat := 0
  indent : Int := -1
  outer : List Int := []
  keyAllowed : Bool := true
  candidates : List KeyCandidate := []
  deriving Repr

namespace Scanner

def emit (s : Scanner) (token : Token) : Scanner := { s with tokens := s.tokens ++ [token] }

def insert (s : Scanner) (position : Nat) (token : Token) : Scanner :=
  { s with tokens := s.tokens.take position ++ token :: s.tokens.drop position }

def moved (s : Scanner) (place : Place) : Scanner := { s with place := place }

def unwind (s : Scanner) (column : Int) : Nat → Scanner
  | 0 => s
  | fuel + 1 =>
    if s.level == 0 && s.indent > column then
      unwind { s.emit .blockEnd with indent := s.outer.headD (-1), outer := s.outer.tail } column
        fuel
    else s

def unwindTo (s : Scanner) (column : Int) : Scanner := s.unwind column (s.outer.length + 1)

def deepen (s : Scanner) (column : Nat) : Option Scanner :=
  if s.indent < column then some { s with outer := s.indent :: s.outer, indent := column } else none

/-- Forgets key candidates of other lines or too far back; one that had to be a key is a fault. -/
def dropStale (s : Scanner) : Except Fault Scanner :=
  let stale (key : KeyCandidate) : Bool :=
    key.line != s.place.line || s.place.index - key.index > 1024
  if s.candidates.any fun key => stale key && key.required then .error .malformed
  else .ok { s with candidates := s.candidates.filter fun key => !stale key }

def dropCandidate (s : Scanner) : Except Fault Scanner :=
  if s.candidates.any fun key => key.level == s.level && key.required then .error .malformed
  else .ok { s with candidates := s.candidates.filter fun key => key.level != s.level }

def noteCandidate (s : Scanner) : Except Fault Scanner :=
  if s.keyAllowed then do
    let s ← s.dropCandidate
    let candidate : KeyCandidate :=
      { level := s.level, position := s.tokens.length
        required := s.level == 0 && s.indent == s.place.column
        index := s.place.index, line := s.place.line, column := s.place.column }
    return { s with candidates := s.candidates ++ [candidate] }
  else .ok s

/-- Passes spaces, comments and line ends. After a line end a key may begin, except within brackets
and braces. -/
def toNextToken (s : Scanner) : Nat → Scanner
  | 0 => s
  | fuel + 1 =>
    let place := s.place.skipWhile (· == ' ')
    let place := if place.peek == some '#' then place.skipWhile fun c => !isBreak c else place
    match place.lineBreak with
    | some (_, after) =>
      toNextToken { s.moved after with keyAllowed := s.keyAllowed || s.level == 0 } fuel
    | none => s.moved place

/-- The signs of directives and of document bounds, which close all blocks. -/
def boundary (s : Scanner) (token : Token) (place : Place) : Except Fault Scanner := do
  let s ← (s.unwindTo (-1)).dropCandidate
  return { s with keyAllowed := false }.emit token |>.moved place

def isAnchorChar (c : Char) : Bool := c.isAlphanum || c == '-' || c == '_'

def isTagChar (c : Char) : Bool :=
  c.isAlphanum || "-;/?:@&=+$,_.!~*'()[]%".toList.contains c

def escapedBytes : Nat → Place → Except Fault (List UInt8 × Place)
  | 0, place => .ok ([], place)
  | fuel + 1, place => do
    match place.rest with
    | '%' :: high :: low :: _ =>
      let some byte := hexNumber? [high, low] | throw .malformed
      let (bytes, after) ← escapedBytes fuel (place.forward 3)
      return (.ofNat byte :: bytes, after)
    | '%' :: _ => throw .malformed
    | _ => return ([], place)

def readUri : Nat → Place → Except Fault (List Char × Place)
  | 0, place => .ok ([], place)
  | fuel + 1, place => do
    let (plain, after) := place.takeWhile fun c => isTagChar c && c != '%'
    if after.peek != some '%' then return (plain, after)
    let (bytes, after) ← escapedBytes after.rest.length after
    let some escaped := Text.decode? bytes | throw .malformed
    let (more, after) ← readUri fuel after
    return (plain ++ escaped ++ more, after)

def uri (place : Place) : Except Fault (String × Place) := do
  let (text, after) ← readUri (place.rest.length + 1) place
  if text.isEmpty then throw .malformed
  return (String.ofList text, after)

def tagHandle (place : Place) : Except Fault (String × Place) := do
  if place.peek != some '!' then throw .malformed
  if place.peek 1 == some ' ' then return ("!", place.next)
  let (name, after) := place.next.takeWhile isAnchorChar
  if after.peek != some '!' then throw .malformed
  return (String.ofList ('!' :: name ++ ['!']), after.next)

def versionPart (place : Place) : Except Fault (Nat × Place) := do
  let (figures, after) := place.takeWhile Char.isDigit
  if figures.isEmpty then throw .malformed
  return (figures.foldl (fun n c => 10 * n + (c.toNat - 48)) 0, after)

/-- A version must be one of the first ones. -/
def versionDirective (place : Place) : Except Fault (Directive × Place) := do
  let (major, after) ← versionPart (place.skipWhile (· == ' '))
  if major != 1 || after.peek != some '.' then throw .malformed
  let (_, after) ← versionPart after.next
  if after.peek != some ' ' && !endsLine after.peek then throw .malformed
  return (.version, after)

def tagDirective (place : Place) : Except Fault (Directive × Place) := do
  let (handle, after) ← tagHandle (place.skipWhile (· == ' '))
  if after.peek != some ' ' then throw .malformed
  let (start, after) ← uri (after.skipWhile (· == ' '))
  if after.peek != some ' ' && !endsLine after.peek then throw .malformed
  return (.tag handle start, after)

def directive (s : Scanner) : Except Fault Scanner := do
  let (name, place) := s.place.next.takeWhile isAnchorChar
  if name.isEmpty || (place.peek != some ' ' && !endsLine place.peek) then throw .malformed
  let (directive, place) ←
    if name == "YAML".toList then versionDirective place
    else if name == "TAG".toList then tagDirective place
    else pure (.other, place.skipWhile fun c => !isBreak c)
  let place := place.skipWhile (· == ' ')
  let place := if place.peek == some '#' then place.skipWhile fun c => !isBreak c else place
  if !endsLine place.peek then throw .malformed
  s.boundary (.directive directive) place

def openFlow (s : Scanner) (token : Token) : Except Fault Scanner := do
  let s ← s.noteCandidate
  return { s with level := s.level + 1, keyAllowed := true }.emit token |>.moved s.place.next

def closeFlow (s : Scanner) (token : Token) : Except Fault Scanner := do
  let s ← s.dropCandidate
  return { s with level := s.level - 1, keyAllowed := false }.emit token |>.moved s.place.next

def flowEntry (s : Scanner) : Except Fault Scanner := do
  let s ← s.dropCandidate
  return { s with keyAllowed := true }.emit .flowEntry |>.moved s.place.next

/-- A place outside brackets and braces where an entry or a key begins, which may open a block. -/
def openBlock (s : Scanner) (token : Token) : Except Fault Scanner :=
  if s.level != 0 then .ok s
  else if !s.keyAllowed then .error .malformed
  else match s.deepen s.place.column with
    | some deeper => .ok (deeper.emit token)
    | none => .ok s

def blockEntry (s : Scanner) : Except Fault Scanner := do
  let s ← s.openBlock .blockSequenceStart
  let s ← { s with keyAllowed := true }.dropCandidate
  return s.emit .blockEntry |>.moved s.place.next

def explicitKey (s : Scanner) : Except Fault Scanner := do
  let s ← s.openBlock .blockMappingStart
  let s ← { s with keyAllowed := s.level == 0 }.dropCandidate
  return s.emit .key |>.moved s.place.next

def value (s : Scanner) : Except Fault Scanner := do
  match s.candidates.find? fun key => key.level == s.level with
  | some key =>
    let s := { s with
      candidates := s.candidates.filter fun key => key.level != s.level, keyAllowed := false }
    let s := s.insert key.position .key
    let s :=
      if s.level == 0 then
        match s.deepen key.column with
        | some deeper => deeper.insert key.position .blockMappingStart
        | none => s
      else s
    return s.emit .value |>.moved s.place.next
  | none =>
    let s ← s.openBlock .blockMappingStart
    let s ← { s with keyAllowed := s.level == 0 }.dropCandidate
    return s.emit .value |>.moved s.place.next

def content (s : Scanner) (token : Token) (place : Place) (keyAllowed : Bool := false) :
    Except Fault Scanner := do
  let s ← s.noteCandidate
  return { s with keyAllowed := keyAllowed }.emit token |>.moved place

def reference (s : Scanner) (token : String → Token) : Except Fault Scanner := do
  let (name, place) := s.place.next.takeWhile isAnchorChar
  let closed := match place.peek with
    | some c => endsWord (some c) || ['?', ':', ',', ']', '}', '%', '@', '`'].contains c
    | none => true
  if name.isEmpty || !closed then throw .malformed
  s.content (token (String.ofList name)) place

/-- A tag. It has a handle of more than one mark if there is a second one before the next blank. -/
def tag (s : Scanner) : Except Fault Scanner := do
  let after := s.place.next
  let (token, place) ←
    if after.peek == some '<' then do
      let (name, place) ← uri after.next
      if place.peek != some '>' then throw .malformed
      pure (.tag none name, place.next)
    else if endsWord after.peek then pure (.tag none "!", after)
    else do
      let word := after.rest.takeWhile fun c => c != ' ' && !isBreak c
      let (handle, place) ← if word.contains '!' then tagHandle s.place else pure ("!", after)
      let (name, place) ← uri place
      pure (.tag (some handle) name, place)
  if place.peek != some ' ' && !endsLine place.peek then throw .malformed
  s.content token place

def quotedScalar (s : Scanner) (double : Bool) : Except Fault Scanner := do
  let (text, place) ← readQuoted double s.place
  s.content (.scalar text false) place

def plainScalar (s : Scanner) : Except Fault Scanner :=
  let (text, broken, place) := readPlain (s.level != 0) (s.indent + 1).toNat s.place
  s.content (.scalar text true) place broken

def blockScalar (s : Scanner) (folded : Bool) : Except Fault Scanner := do
  let s ← { s with keyAllowed := true }.dropCandidate
  let (text, place) ← readBlock folded s.indent s.place
  return s.emit (.scalar text false) |>.moved place

def isIndicator (c : Char) : Bool :=
  ['-', '?', ':', ',', '[', ']', '{', '}', '#', '&', '*', '!', '|', '>', '\'', '"', '%', '@',
    '`'].contains c

def startsPlain (s : Scanner) (c : Char) : Bool :=
  let next := s.place.peek 1
  (!endsWord (some c) && !isIndicator c)
    || (!endsWord next && (c == '-' || (s.level == 0 && (c == '?' || c == ':'))))

def step (s : Scanner) (c : Char) : Except Fault Scanner :=
  let wordEnds := endsWord (s.place.peek 1)
  let inFlow := s.level != 0
  if c == '%' && s.place.column == 0 then s.directive
  else if s.place.column == 0 && s.place.isMarker '-' then
    s.boundary .documentStart (s.place.forward 3)
  else if s.place.column == 0 && s.place.isMarker '.' then
    s.boundary .documentEnd (s.place.forward 3)
  else if c == '[' then s.openFlow .flowSequenceStart
  else if c == '{' then s.openFlow .flowMappingStart
  else if c == ']' then s.closeFlow .flowSequenceEnd
  else if c == '}' then s.closeFlow .flowMappingEnd
  else if c == ',' then s.flowEntry
  else if c == '-' && wordEnds then s.blockEntry
  else if c == '?' && (inFlow || wordEnds) then s.explicitKey
  else if c == ':' && (inFlow || wordEnds) then s.value
  else if c == '*' then s.reference .alias
  else if c == '&' then s.reference .anchor
  else if c == '!' then s.tag
  else if c == '|' && !inFlow then s.blockScalar false
  else if c == '>' && !inFlow then s.blockScalar true
  else if c == '\'' then s.quotedScalar false
  else if c == '"' then s.quotedScalar true
  else if s.startsPlain c then s.plainScalar
  else .error .malformed

def run : Nat → Scanner → Except Fault (List Token)
  | 0, _ => .error .malformed
  | fuel + 1, s => do
    let s ← (s.toNextToken (s.place.rest.length + 1)).dropStale
    let s := s.unwindTo s.place.column
    match s.place.peek with
    | none => return (← (s.unwindTo (-1)).dropCandidate).tokens
    | some c => run fuel (← s.step c)

end Scanner

def isUnprintable (c : Char) : Bool :=
  let n := c.toNat
  !(n == 9 || n == 10 || n == 13 || (0x20 ≤ n && n ≤ 0x7E) || n == 0x85 || (0xA0 ≤ n && n ≤ 0xFFFD)
    || 0x10000 ≤ n)

def scan (text : List Char) : Except Fault (List Token) :=
  if text.any isUnprintable then .error .malformed
  else
    let place : Place := { rest := text }
    let place := if place.peek == some (Char.ofNat 0xFEFF) then place.next else place
    Scanner.run (2 * text.length + 2) { place := place }

end CodeAtlas.Yaml
