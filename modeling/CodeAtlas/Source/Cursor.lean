import CodeAtlas.Source.Tree

/-! Positions in source text and the lexical rules: blanks, comments, words, operators, numbers and
regular expressions. A parser either fails or moves the cursor forward. -/

namespace CodeAtlas.Source

structure Cursor where
  rest : List Char
  left : Nat
  deriving Inhabited

namespace Cursor

def ofText (text : String) : Cursor :=
  let chars := text.toList
  ⟨chars, chars.length⟩

def advance (cursor : Cursor) (count : Nat) : Cursor :=
  ⟨cursor.rest.drop count, cursor.left - count⟩

def textUpTo (start stop : Cursor) : String :=
  String.ofList (start.rest.take (start.left - stop.left))

end Cursor

def isLineEnd (c : Char) : Bool :=
  c == '\n' || c == '\r' || c.toNat == 0x2028 || c.toNat == 0x2029

def isGap (c : Char) : Bool :=
  let n := c.toNat
  n == 0x20 || (9 ≤ n && n ≤ 13) || n == 0xA0 || n == 0x1680 || (0x2000 ≤ n && n ≤ 0x200B)
    || n == 0x2028 || n == 0x2029 || n == 0x202F || n == 0x205F || n == 0x2060 || n == 0x3000
    || n == 0xFEFF || n == 0x85

inductive Gap where
  | code | lineComment | blockComment
  deriving DecidableEq

def skipGap : Gap → Bool → Nat → List Char → Cursor × Bool
  | .code, ended, left, '/' :: '/' :: rest => skipGap .lineComment ended (left - 2) rest
  | .code, ended, left, '/' :: '*' :: rest => skipGap .blockComment ended (left - 2) rest
  | .code, ended, left, c :: rest =>
    if isGap c then skipGap .code (ended || isLineEnd c) (left - 1) rest
    else (⟨c :: rest, left⟩, ended)
  | .lineComment, ended, left, c :: rest =>
    if isLineEnd c then skipGap .code true (left - 1) rest
    else skipGap .lineComment ended (left - 1) rest
  | .blockComment, ended, left, '*' :: '/' :: rest => skipGap .code ended (left - 2) rest
  | .blockComment, ended, left, c :: rest =>
    skipGap .blockComment (ended || isLineEnd c) (left - 1) rest
  | _, ended, _, [] => (⟨[], 0⟩, ended)

def Cursor.skipped (cursor : Cursor) : Cursor := (skipGap .code false cursor.left cursor.rest).1

def Cursor.lineEndsHere (cursor : Cursor) : Bool :=
  (skipGap .code false cursor.left cursor.rest).2

def isSign (c : Char) : Bool :=
  ";`\"'@#.,|^&<=>+-*/\\%?!~()[]{}:".toList.contains c

def isWordChar (c : Char) : Bool := !(c.toNat < 0x20 || c.toNat == 0x7F || isGap c || isSign c)

/-- The length of the word that starts here. A backslash with `u` and a number stands for a
character; `inBraces` says that such a number is open. -/
def wordLength (inBraces : Bool) : List Char → Nat
  | [] => 0
  | '\\' :: 'u' :: '{' :: rest => 3 + wordLength true rest
  | '\\' :: 'u' :: rest => 2 + wordLength inBraces rest
  | c :: rest =>
    if isWordChar c then 1 + wordLength inBraces rest
    else if inBraces && c == '}' then 1 + wordLength false rest
    else 0

def wordAt (text : List Char) : List Char :=
  match text with
  | c :: _ => if c.isDigit then [] else text.take (wordLength false text)
  | [] => []

def openBrace : String := String.singleton '{'

def closeBrace : String := String.singleton '}'

def operators : List (List Char) :=
  [">>>=", "...", "===", "!==", "**=", "<<=", ">>=", ">>>", "&&=", "||=", "??=",
   "=>", "==", "!=", "<=", ">=", "&&", "||", "??", "?.", "++", "--", "+=", "-=", "*=", "/=", "%=",
   "&=", "|=", "^=", "<<", ">>", "**",
   openBrace, closeBrace, "(", ")", "[", "]", ";", ",", "<", ">", "+", "-", "*", "/", "%", "&", "|",
   "^", "!", "~", "?", ":", "=", ".", "@", "#"].map String.toList

/-- The longest operator that starts here. A `?.` before a digit is a question mark. -/
def operatorAt (text : List Char) : Option (List Char) :=
  match text with
  | '?' :: '.' :: c :: _ =>
    if c.isDigit then some ['?'] else operators.find? fun operator => operator.isPrefixOf text
  | _ => operators.find? fun operator => operator.isPrefixOf text

/-- The length of a regular expression from its opening slash through its flags. `inClass` says that
a bracket is open. -/
def regexLength (inClass : Bool) : List Char → Option Nat
  | [] => none
  | '\\' :: c :: rest =>
    if isLineEnd c then none else (regexLength inClass rest).map (· + 2)
  | c :: rest =>
    if isLineEnd c then none
    else if c == '/' && !inClass then some (1 + (rest.takeWhile isWordChar).length)
    else (regexLength (c == '[' || (inClass && c != ']')) rest).map (· + 1)

def stringLength (quote : Char) : List Char → Option Nat
  | [] => none
  | '\\' :: _ :: rest => (stringLength quote rest).map (· + 2)
  | c :: rest =>
    if c == quote then some 1
    else if c == '\n' || c == '\r' then none
    else (stringLength quote rest).map (· + 1)

def isDigitPart (c : Char) : Bool := c.isDigit || c == '_'

def exponentLength : List Char → Nat
  | e :: sign :: rest =>
    if e == 'e' || e == 'E' then
      if (sign == '+' || sign == '-') then
        let digits := (rest.takeWhile isDigitPart).length
        if digits = 0 then 0 else 2 + digits
      else
        let digits := ((sign :: rest).takeWhile isDigitPart).length
        if digits = 0 then 0 else 1 + digits
    else 0
  | _ => 0

/-- The length of the number that starts here, zero when there is none. -/
def numberLength (text : List Char) : Nat :=
  match text with
  | '0' :: mark :: rest =>
    if "xXoObB".toList.contains mark then 2 + (rest.takeWhile isWordChar).length
    else decimal text
  | '.' :: c :: _ => if c.isDigit then decimal text else 0
  | c :: _ => if c.isDigit then decimal text else 0
  | [] => 0
where
  decimal (text : List Char) : Nat :=
    let whole := (text.takeWhile isDigitPart).length
    let rest := text.drop whole
    let fraction := match rest with
      | '.' :: after => 1 + (after.takeWhile isDigitPart).length
      | _ => 0
    let rest := rest.drop fraction
    let exponent := exponentLength rest
    let suffix := match rest.drop exponent with
      | 'n' :: _ => 1
      | _ => 0
    whole + fraction + exponent + suffix

/-- A parser fails or yields a result and the cursor after it. -/
abbrev Parser (α : Type) := StateT Cursor Option α

namespace Parser

def skip : Parser Unit := modify Cursor.skipped

def upcoming : Parser (List Char) := do return (← get).skipped.rest

def newline : Parser Bool := do return (← get).lineEndsHere

def peekWord : Parser String := do return String.ofList (wordAt (← upcoming))

def peekOperator : Parser String := do
  return String.ofList ((operatorAt (← upcoming)).getD [])

def take (count : Nat) : Parser Unit := modify fun cursor => cursor.advance count

def word (expected : String) : Parser Unit := do
  guard ((← peekWord) == expected)
  skip
  take expected.length

def op (expected : String) : Parser Unit := do
  guard ((← peekOperator) == expected)
  skip
  take expected.length

def char (expected : Char) : Parser Unit := do
  guard ((← upcoming).head? == some expected)
  skip
  take 1

def atOp (expected : String) : Parser Bool := do return (← peekOperator) == expected

def atWord (expected : String) : Parser Bool := do return (← peekWord) == expected

def opIf (expected : String) : Parser Bool := do
  if ← atOp expected then
    op expected
    return true
  else return false

def wordIf (expected : String) : Parser Bool := do
  if ← atWord expected then
    word expected
    return true
  else return false

def node (kind : Kind) (body : Parser (List Tree)) : Parser Tree := do
  skip
  let start ← get
  let children ← body
  return .node kind .none (start.textUpTo (← get)) children

def nodeFrom (start : Cursor) (kind : Kind) (children : List Tree) : Parser Tree := do
  return .node kind .none (start.textUpTo (← get)) children

/-- Runs `step` until it yields nothing; the results are joined. -/
def repeatSteps (step : Parser (Option (List Tree))) : Nat → Parser (List Tree)
  | 0 => failure
  | fuel + 1 => do
    match ← step with
    | none => return []
    | some trees => return trees ++ (← repeatSteps step fuel)

/-- Runs `step` until it yields nothing; every step but the last has to read something. -/
def many (step : Parser (Option (List Tree))) : Parser (List Tree) := do
  repeatSteps step ((← get).left + 2)

def commentNodes : Nat → Parser (List Tree)
  | 0 => return []
  | fuel + 1 => do
    let blanks := ((← get).rest.takeWhile isGap).length
    take blanks
    let here ← get
    match here.rest with
    | '/' :: '/' :: body =>
      take (2 + (body.takeWhile fun c => !isLineEnd c).length)
      let comment ← nodeFrom here .comment []
      return comment :: (← commentNodes fuel)
    | '/' :: '*' :: body =>
      take (2 + blockLength body)
      let comment ← nodeFrom here .comment []
      return comment :: (← commentNodes fuel)
    | _ => return []
where
  blockLength : List Char → Nat
    | [] => 0
    | '*' :: '/' :: _ => 2
    | _ :: rest => 1 + blockLength rest

def comments : Parser (List Tree) := do commentNodes ((← get).left + 1)

/-- Items separated by commas up to the closing operator; comments among them are nodes too. -/
def commaSeparated (close : String) (item : Parser Tree) : Parser (List Tree) :=
  many do
    let before ← comments
    if ← atOp close then
      if before.isEmpty then
        op close
        return none
      else return some before
    else if ← opIf "," then return some before
    else
      let tree ← item
      let after ← comments
      guard ((← atOp ",") || (← atOp close))
      return some (before ++ tree :: after)

end Parser

end CodeAtlas.Source
