import CodeAtlas.Distinct
import CodeAtlas.Json.Printer

/-! Reading JSON. The reader takes the whole text, refuses trailing commas, leading zeros and raw
control characters in strings, keeps the last of several values of one field at the place of the
first. Unless it is told to be strict it also knows `NaN`, `Infinity` and `-Infinity` and takes
integers of up to 4300 figures. The strict reader refuses a number beyond the range of 64-bit
floating point, and reads an integer of more than 64 bits as a floating-point number. Both go only
as deep into lists and objects as the calls last that are left to them. -/

namespace CodeAtlas.Json

inductive Fault where
  /-- It goes on in a way that no JSON does. -/
  | malformed
  /-- An integer has more figures than are converted to a number. -/
  | oversized
  /-- Lists and objects are nested more deeply than calls are left. -/
  | tooDeep
  deriving DecidableEq, Repr

/-- The calls that are left to a reader. Every list and object takes one while it is read; so many
others are taken for a moment by a number that is none or has no end, and by a complaint about the
text. -/
structure Stack where
  room : Nat := 960
  constant : Nat := 1
  complaint : Nat := 3
  deriving DecidableEq, Repr, Inhabited

namespace Stack

def inside (stack : Stack) : Except Fault Stack :=
  match stack.room with
  | 0 => .error .tooDeep
  | room + 1 => .ok { stack with room }

def fault (stack : Stack) : Fault :=
  if stack.complaint ≤ stack.room then .malformed else .tooDeep

def orFault {α : Type} (stack : Stack) : Option α → Except Fault α
  | some value => .ok value
  | none => .error stack.fault

/-- The calls of a reader that does without complaints and is refused nothing before 1024 levels. -/
def strict : Stack := ⟨1023, 0, 0⟩

end Stack

def orMalformed {α : Type} : Option α → Except Fault α
  | some value => .ok value
  | none => .error .malformed

def isSpace (c : Char) : Bool := c == ' ' || c == '\t' || c == '\n' || c == '\r'

def skipSpace (input : List Char) : List Char := input.dropWhile isSpace

def hexValue? (c : Char) : Option Nat :=
  if '0' ≤ c && c ≤ '9' then some (c.toNat - 48)
  else if 'a' ≤ c && c ≤ 'f' then some (c.toNat - 87)
  else if 'A' ≤ c && c ≤ 'F' then some (c.toNat - 55)
  else none

def hexUnit? : List Char → Option (Nat × List Char)
  | a :: b :: c :: d :: rest => do
    let a ← hexValue? a
    let b ← hexValue? b
    let c ← hexValue? c
    let d ← hexValue? d
    some (a * 4096 + b * 256 + c * 16 + d, rest)
  | _ => none

def escapeMeaning? (c : Char) : Option Char :=
  if c = '"' then some '"'
  else if c = '\\' then some '\\'
  else if c = '/' then some '/'
  else if c = 'b' then some (Char.ofNat 8)
  else if c = 'f' then some (Char.ofNat 12)
  else if c = 'n' then some '\n'
  else if c = 'r' then some '\r'
  else if c = 't' then some '\t'
  else none

/-- Reads a piece of a string body with the units it stands for: `none` is a fault,
`some (none, rest)` the closing quote. -/
def stringStep : List Char → Option (Option Units × List Char)
  | [] => none
  | '"' :: rest => some (none, rest)
  | '\\' :: 'u' :: rest => do
    let (unit, rest) ← hexUnit? rest
    some (some [.ofNat unit], rest)
  | '\\' :: c :: rest => do
    let meaning ← escapeMeaning? c
    some (some (charUnits meaning), rest)
  | '\\' :: [] => none
  | c :: rest => if c.toNat < 0x20 then none else some (some (charUnits c), rest)

def stringBody : Nat → List Char → Option (Units × List Char)
  | 0, _ => none
  | fuel + 1, input => do
    let (step, rest) ← stringStep input
    match step with
    | none => some ([], rest)
    | some piece =>
      let (body, rest) ← stringBody fuel rest
      some (piece ++ body, rest)

def readString (input : List Char) : Option (Units × List Char) :=
  stringBody (input.length + 1) input

def digitsValue (digits : List Char) : Nat := digits.foldl (fun n c => 10 * n + (c.toNat - 48)) 0

def readFraction : List Char → List Char × List Char
  | '.' :: rest =>
    match rest.takeWhile Char.isDigit with
    | [] => ([], '.' :: rest)
    | digits => (digits, rest.dropWhile Char.isDigit)
  | input => ([], input)

def exponentFigures (input : List Char) (unit : Int) (rest : List Char) :
    Option Int × List Char :=
  match rest.takeWhile Char.isDigit with
  | [] => (none, input)
  | digits => (some (unit * (digitsValue digits : Int)), rest.dropWhile Char.isDigit)

def readExponent (input : List Char) : Option Int × List Char :=
  match input with
  | 'e' :: '-' :: rest | 'E' :: '-' :: rest => exponentFigures input (-1) rest
  | 'e' :: '+' :: rest | 'E' :: '+' :: rest => exponentFigures input 1 rest
  | 'e' :: rest | 'E' :: rest => exponentFigures input 1 rest
  | _ => (none, input)

def wholeFigures? : List Char → Option (List Char × List Char)
  | '0' :: rest => some (['0'], rest)
  | input =>
    match input.takeWhile Char.isDigit with
    | [] => none
    | figures => some (figures, input.dropWhile Char.isDigit)

/-- An integer by its figures. In a strict text one of more than 64 bits is a floating-point
number. -/
def wholeNumber (strict negative : Bool) (figures : List Char) : Except Fault Written :=
  let magnitude := digitsValue figures
  let value : Written := .int (if negative then -(magnitude : Int) else magnitude)
  if strict then
    let limit := if negative then Nat.pow 2 63 else Nat.pow 2 64 - 1
    .ok (if limit < magnitude then .real (.ofDecimal negative magnitude 0) else value)
  else if maxFigures < figures.length then .error .oversized
  else .ok value

def numberValue (strict negative : Bool) (figures fraction : List Char) (exponent : Option Int) :
    Except Fault Written :=
  if fraction.isEmpty && exponent.isNone then wholeNumber strict negative figures
  else .ok (.real (.ofDecimal negative (digitsValue (figures ++ fraction))
    (exponent.getD 0 - fraction.length)))

/-- Whether a number may stand in a strict text: not when it is beyond the floating-point range. -/
def isBounded : Written → Bool
  | .real (.infinite _) => false
  | _ => true

def readUnsigned (strict negative : Bool) (input : List Char) :
    Except Fault (Written × List Char) := do
  let (figures, rest) ← orMalformed (wholeFigures? input)
  let (fraction, rest) := readFraction rest
  let (exponent, rest) := readExponent rest
  let value ← numberValue strict negative figures fraction exponent
  if strict && !isBounded value then .error .malformed else .ok (value, rest)

def readWord (word : String) (value : Written) (input : List Char) :
    Except Fault (Written × List Char) :=
  if word.toList.isPrefixOf input then .ok (value, input.drop word.length) else .error .malformed

def readConstant (strict : Bool) (stack : Stack) (word : String) (value : Written)
    (input : List Char) : Except Fault (Written × List Char) := do
  if strict then .error .malformed
  let read ← readWord word value input
  if stack.room < stack.constant then .error .tooDeep else .ok read

def readAtom (strict : Bool) (stack : Stack) (input : List Char) :
    Except Fault (Written × List Char) :=
  match input with
  | '"' :: rest => do
    let (value, rest) ← stack.orFault (readString rest)
    .ok (.text value, rest)
  | 'n' :: _ => readWord "null" .null input
  | 't' :: _ => readWord "true" (.bool true) input
  | 'f' :: _ => readWord "false" (.bool false) input
  | 'N' :: _ => readConstant strict stack "NaN" (.real .notANumber) input
  | 'I' :: _ => readConstant strict stack "Infinity" (.real (.infinite false)) input
  | '-' :: 'I' :: _ => readConstant strict stack "-Infinity" (.real (.infinite true)) input
  | '-' :: rest => readUnsigned strict true rest
  | _ => readUnsigned strict false input

def readMember (stack : Stack) (readPart : List Char → Except Fault (Written × List Char)) :
    List Char → Except Fault ((Units × Written) × List Char)
  | '"' :: input => do
    let (name, rest) ← stack.orFault (readString input)
    match skipSpace rest with
    | ':' :: rest =>
      let (value, rest) ← readPart (skipSpace rest)
      .ok ((name, value), rest)
    | _ => .error stack.fault
  | _ => .error stack.fault

mutual

def readValue (strict : Bool) : Nat → Stack → List Char → Except Fault (Written × List Char)
  | 0, _, _ => .error .malformed
  | fuel + 1, stack, '[' :: rest => do
    let stack ← stack.inside
    match skipSpace rest with
    | ']' :: rest => .ok (.list [], rest)
    | rest =>
      let (items, rest) ← readItems strict fuel stack rest
      .ok (.list items, rest)
  | fuel + 1, stack, '{' :: rest => do
    let stack ← stack.inside
    match skipSpace rest with
    | '}' :: rest => .ok (.object [], rest)
    | rest =>
      let (fields, rest) ← readFields strict fuel stack [] rest
      .ok (.object fields, rest)
  | _ + 1, stack, input => readAtom strict stack input

def readItems (strict : Bool) : Nat → Stack → List Char → Except Fault (List Written × List Char)
  | 0, _, _ => .error .malformed
  | fuel + 1, stack, input => do
    let (item, rest) ← readValue strict fuel stack input
    match skipSpace rest with
    | ']' :: rest => .ok ([item], rest)
    | ',' :: rest =>
      let (items, rest) ← readItems strict fuel stack (skipSpace rest)
      .ok (item :: items, rest)
    | _ => .error stack.fault

def readFields (strict : Bool) : Nat → Stack → List (Units × Written) → List Char →
    Except Fault (List (Units × Written) × List Char)
  | 0, _, _, _ => .error .malformed
  | fuel + 1, stack, seen, input => do
    let ((name, value), rest) ← readMember stack (readValue strict fuel stack) input
    let seen := CodeAtlas.bind name value seen
    match skipSpace rest with
    | '}' :: rest => .ok (seen, rest)
    | ',' :: rest => readFields strict fuel stack seen (skipSpace rest)
    | _ => .error stack.fault

end

def readText (strict : Bool) (stack : Stack) (input : List Char) : Except Fault Written := do
  let (value, rest) ← readValue strict (input.length + 1) stack (skipSpace input)
  if (skipSpace rest).isEmpty then .ok value else .error .malformed

def read (stack : Stack) (input : String) : Except Fault Written :=
  readText false stack input.toList

def parse? (stack : Stack) (input : String) : Option Json :=
  (read stack input).toOption.bind legible?

def parseStrict? (input : String) : Option Json :=
  (readText true .strict input.toList).toOption.bind legible?

end CodeAtlas.Json
