import CodeAtlas.Source.Cursor

/-! The goals of the grammar. A rule reads one construct and asks for nested constructs through its
`Rules`, so every rule is an ordinary function and only the table of rules is recursive. -/

namespace CodeAtlas.Source

structure Dialect where
  typed : Bool
  markup : Bool
  deriving DecidableEq, Repr

/-- What a rule can ask for. `noIn` bars the operator `in`; `typedArrows` allows a result type on an
arrow function, which the middle part of a conditional may have to do without. -/
inductive Goal where
  | statement
  | block
  | expression (noIn : Bool)
  | assignment (noIn typedArrows : Bool)
  | operand
  | arguments
  | creation
  | binding
  | parameters
  | type
  | markup
  deriving DecidableEq, Repr

/-- A dialect and the parser of every goal. -/
structure Rules where
  dialect : Dialect
  parse : Goal → Parser Tree

namespace Grammar

open CodeAtlas.Source.Parser

def assignment (g : Rules) : Parser Tree := g.parse (.assignment false true)

def reservedWords : List String :=
  ["break", "case", "catch", "const", "continue", "debugger", "default", "delete", "do", "else",
   "enum", "export", "extends", "false", "finally", "for", "function", "if", "import", "in",
   "instanceof", "new", "null", "return", "super", "switch", "this", "throw", "true", "try",
   "typeof", "var", "void", "while", "with", "class"]

def identifier : Parser Tree := do
  let name ← peekWord
  guard (name != "" && !reservedWords.contains name)
  node .identifier do
    take name.length
    return []

def anyWord : Parser Tree := do
  let name ← peekWord
  guard (name != "")
  node .phrase do
    take name.length
    return []

def stringLiteral : Parser Tree := node .string do
  match (← get).rest with
  | quote :: rest =>
    guard (quote == '"' || quote == '\'')
    match stringLength quote rest with
    | some length => take (1 + length)
    | none => failure
  | [] => failure
  return []

def numberLiteral : Parser Tree := node .phrase do
  let length := numberLength (← get).rest
  guard (length != 0)
  take length
  return []

def nextChar : Parser Char := do
  match (← upcoming).head? with
  | some c => return c
  | none => failure

def atAnyWord : Parser Bool := do return (← peekWord) != ""

def propertyName (g : Rules) : Parser Tree := do
  let c ← nextChar
  if c == '"' || c == '\'' then stringLiteral
  else if c == '[' then
    node .phrase do
      op "["
      let inner ← assignment g
      op "]"
      return [inner]
  else if c == '#' then
    node .phrase do
      op "#"
      take (wordAt (← get).rest).length
      return []
  else if ← atAnyWord then anyWord
  else numberLiteral

def nameAfterWord : Parser Bool := do
  let first ← peekWord
  let rest := ((← get).skipped.advance first.length).skipped.rest
  return match rest with
    | c :: _ => c == '"' || c == '\'' || c == '[' || c == '#' || c == '*' || isWordChar c
    | [] => false

/-- Reads those of the given words that stand before a property name, and stars. -/
def modifiers (words : List String) : Parser (List Tree) :=
  many do
    let next ← peekWord
    if next == "" then
      if ← opIf "*" then return some [] else return none
    else if words.contains next && (← nameAfterWord) then
      word next
      return some []
    else return none

end Grammar

end CodeAtlas.Source
