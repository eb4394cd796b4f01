import CodeAtlas.Json.Reader
import CodeAtlas.Yaml.Token

/-! Reading the text of scalars: quoted ones, in which line ends are folded, plain ones, and blocks
that keep or fold their lines. -/

namespace CodeAtlas.Yaml

/-- The line ends that a folded stretch leaves: a single one becomes a space. -/
def foldedBreak (first : Char) (more : List Char) : List Char :=
  if first != '\n' then first :: more else if more.isEmpty then [' '] else more

def escapeMeaning? (c : Char) : Option Char :=
  [('0', 0), ('a', 7), ('b', 8), ('t', 9), ('\t', 9), ('n', 10), ('v', 11), ('f', 12), ('r', 13),
    ('e', 27), (' ', 32), ('"', 34), ('\\', 92), ('/', 47), ('N', 0x85), ('_', 0xA0), ('L', 0x2028),
    ('P', 0x2029)].lookup c |>.map Char.ofNat

def escapeLength? (c : Char) : Option Nat := [('x', 2), ('u', 4), ('U', 8)].lookup c

def hexNumber? (digits : List Char) : Option Nat :=
  digits.foldlM (fun n c => (Json.hexValue? c).map (16 * n + ·)) 0

def quotedBreaks : Nat → Place → Except Fault (List Char × Place)
  | 0, _ => .error .malformed
  | fuel + 1, place =>
    if place.isDocumentMarker then .error .malformed
    else
      let here := place.skipWhile fun c => c == ' ' || c == '\t'
      match here.lineBreak with
      | some (c, after) => do
        let (more, after) ← quotedBreaks fuel after
        return (c :: more, after)
      | none => .ok ([], here)

/-- Half of a pair of code units is no character by itself and becomes the replacement character. -/
def escapedChar (code : Nat) : Char :=
  if 0xD800 ≤ code && code ≤ 0xDFFF then Char.ofNat 0xFFFD else Char.ofNat code

def readEscape (place : Place) : Except Fault (List Char × Place) := do
  let some c := place.peek | throw .malformed
  match escapeMeaning? c, escapeLength? c with
  | some meaning, _ => return ([meaning], place.next)
  | none, some length =>
    let digits := (place.next.rest).take length
    if digits.length < length then throw .malformed
    let some code := hexNumber? digits | throw .malformed
    if code ≥ 0x110000 then throw .impossible
    return ([escapedChar code], place.next.forward length)
  | none, none =>
    let some (_, after) := place.lineBreak | throw .malformed
    quotedBreaks (after.rest.length + 1) after

def quotedBody (double : Bool) : Nat → Place → Except Fault (List Char × Place)
  | 0, _ => .error .malformed
  | fuel + 1, place => do
    let some c := place.peek | throw .malformed
    let (part, after) ←
      if !double && c == '\'' && place.peek 1 == some '\'' then pure (['\''], place.forward 2)
      else if c == (if double then '"' else '\'') then throw .malformed
      else if double && c == '\\' then readEscape place.next
      else if c == ' ' || c == '\t' || isBreak c then
        let (blanks, after) := place.takeWhile fun c => c == ' ' || c == '\t'
        match after.lineBreak with
        | some (first, after) => do
          let (more, after) ← quotedBreaks (after.rest.length + 1) after
          pure (foldedBreak first more, after)
        | none => if after.rest.isEmpty then throw .malformed else pure (blanks, after)
      else pure ([c], place.next)
    let (more, after) ←
      if after.peek == some (if double then '"' else '\'')
          && !(!double && after.peek 1 == some '\'') then pure ([], after.next)
      else quotedBody double fuel after
    return (part ++ more, after)

def readQuoted (double : Bool) (place : Place) : Except Fault (String × Place) := do
  let quote := if double then '"' else '\''
  let start := place.next
  if start.peek == some quote && !(!double && start.peek 1 == some quote) then
    return ("", start.next)
  let (text, after) ← quotedBody double (start.rest.length + 1) start
  return (String.ofList text, after)

def isFlowMark (c : Char) : Bool := c == ',' || c == '[' || c == ']' || c == '{' || c == '}'

def plainStops (inFlow : Bool) : List Char → Bool
  | [] => true
  | c :: rest =>
    endsWord (some c)
      || (c == ':' && (endsWord rest.head? || (inFlow && rest.head?.any isFlowMark)))
      || (inFlow && (c == '?' || isFlowMark c))

def plainWord (inFlow : Bool) : List Char → Nat
  | [] => 0
  | c :: rest => if plainStops inFlow (c :: rest) then 0 else plainWord inFlow rest + 1

def plainBreaks : Nat → Place → Option (List Char) × Place
  | 0, place => (some [], place)
  | fuel + 1, place =>
    if place.peek == some ' ' then plainBreaks fuel place.next
    else match place.lineBreak with
      | some (c, after) =>
        if after.isDocumentMarker then (none, after)
        else
          let (more, after) := plainBreaks fuel after
          (more.map (c :: ·), after)
      | none => (some [], place)

/-- What lies between two words of a plain scalar, whether a line end was in it, and the place after
it. Nothing between them ends the scalar. -/
def plainSpaces (place : Place) : List Char × Bool × Place :=
  let (blanks, after) := place.takeWhile (· == ' ')
  match after.lineBreak with
  | some (first, after) =>
    if after.isDocumentMarker then ([], true, after)
    else
      match plainBreaks (after.rest.length + 1) after with
      | (some more, after) => (foldedBreak first more, true, after)
      | (none, after) => ([], true, after)
  | none => (blanks, false, after)

/-- The words of a plain scalar with what is between them. The flag says whether the last thing
passed was a line end. -/
def plainBody (inFlow : Bool) (indent : Nat) :
    Nat → List Char → Bool → Place → List Char × Bool × Place
  | 0, _, broken, place => ([], broken, place)
  | fuel + 1, before, broken, place =>
    let length := plainWord inFlow place.rest
    if place.peek == some '#' || length == 0 then ([], broken, place)
    else
      let word := place.rest.take length
      let (spaces, broken, after) := plainSpaces (place.forward length)
      if spaces.isEmpty || after.peek == some '#' || (!inFlow && after.column < indent) then
        (before ++ word, broken, after)
      else
        let (more, broken, after) := plainBody inFlow indent fuel spaces broken after
        (before ++ word ++ more, broken, after)

/-- Reads a plain scalar; the flag says whether it ended after a line end. -/
def readPlain (inFlow : Bool) (indent : Nat) (place : Place) : String × Bool × Place :=
  let (text, broken, after) := plainBody inFlow indent (place.rest.length + 1) [] false place
  (String.ofList text, broken, after)

inductive Chomping where
  | strip
  | clip
  | keep
  deriving DecidableEq, Repr

def chomping? : Option Char → Option Chomping
  | some '+' => some .keep
  | some '-' => some .strip
  | _ => none

def indentDigit? : Option Char → Option Nat
  | some c => if c.isDigit then some (c.toNat - 48) else none
  | none => none

def blockHeader (place : Place) : Except Fault (Chomping × Option Nat × Place) := do
  let (chomping, increment, after) :=
    match chomping? place.peek, indentDigit? place.peek with
    | some chomping, _ =>
      match indentDigit? (place.peek 1) with
      | some n => (chomping, some n, place.forward 2)
      | none => (chomping, none, place.next)
    | none, some n =>
      match chomping? (place.peek 1) with
      | some chomping => (chomping, some n, place.forward 2)
      | none => (.clip, some n, place.next)
    | none, none => (.clip, none, place)
  if increment == some 0 then throw .malformed
  if after.peek != some ' ' && !endsLine after.peek then throw .malformed
  let after := after.skipWhile (· == ' ')
  let after := if after.peek == some '#' then after.skipWhile fun c => !isBreak c else after
  if !endsLine after.peek then throw .malformed
  return (chomping, increment, (after.lineBreak.map (·.2)).getD after)

/-- The empty lines before a block whose indentation is to be found, and the deepest column seen. -/
def blockIndentation : Nat → Nat → Place → List Char × Nat × Place
  | 0, deepest, place => ([], deepest, place)
  | fuel + 1, deepest, place =>
    if place.peek == some ' ' then
      blockIndentation fuel (max deepest place.next.column) place.next
    else match place.lineBreak with
      | some (c, after) =>
        let (more, deepest, after) := blockIndentation fuel deepest after
        (c :: more, deepest, after)
      | none => ([], deepest, place)

def skipIndent (indent : Nat) (place : Place) : Place :=
  place.forward (min (indent - place.column) ((place.rest.takeWhile (· == ' ')).length))

def blockBreaks (indent : Nat) : Nat → Place → List Char × Place
  | 0, place => ([], place)
  | fuel + 1, place =>
    let here := skipIndent indent place
    match here.lineBreak with
    | some (c, after) =>
      let (more, after) := blockBreaks indent fuel after
      (c :: more, after)
    | none => ([], here)

/-- The lines of a block. `breaks` are the empty lines before the line at `place`. The answer ends
with the last line end and the empty lines after it, which are subject to chomping. -/
def blockLines (folded : Bool) (indent : Nat) :
    Nat → List Char → Option Char → Place →
      List Char × List Char × List Char × Place
  | 0, breaks, last, place => ([], last.toList, breaks, place)
  | fuel + 1, breaks, last, place =>
    if place.column != indent || place.rest.isEmpty then ([], last.toList, breaks, place)
    else
      let startsBlank := place.peek == some ' ' || place.peek == some '\t'
      let (line, after) := place.takeWhile fun c => !isBreak c
      let (ended, after) := match after.lineBreak with
        | some (c, after) => (some c, after)
        | none => (none, after)
      let (empty, after) := blockBreaks indent (after.rest.length + 1) after
      if after.column == indent && !after.rest.isEmpty then
        let nextBlank := after.peek == some ' ' || after.peek == some '\t'
        let joint :=
          if folded && ended == some '\n' && !startsBlank && !nextBlank then
            (if empty.isEmpty then [' '] else [])
          else ended.toList
        let (more, last, final, after) := blockLines folded indent fuel empty ended after
        (breaks ++ line ++ joint ++ more, last, final, after)
      else (breaks ++ line, ended.toList, empty, after)

def readBlock (folded : Bool) (parent : Int) (place : Place) : Except Fault (String × Place) := do
  let (chomping, increment, start) ← blockHeader place.next
  let least := (max (parent + 1) 1).toNat
  let (breaks, indent, start) :=
    match increment with
    | some n =>
      let indent := least + n - 1
      let (breaks, start) := blockBreaks indent (start.rest.length + 1) start
      (breaks, indent, start)
    | none =>
      let (breaks, deepest, start) := blockIndentation (start.rest.length + 1) 0 start
      (breaks, max least deepest, start)
  let (text, last, final, after) :=
    blockLines folded indent (start.rest.length + 1) breaks none start
  let ending := match chomping with
    | .strip => []
    | .clip => last
    | .keep => last ++ final
  return (String.ofList (text ++ ending), after)

end CodeAtlas.Yaml
