import CodeAtlas.Source.Grammar.Types

/-! Binding patterns and parameter lists. -/

namespace CodeAtlas.Source.Grammar

open CodeAtlas.Source.Parser

def defaultedBinding (g : Rules) : Parser Tree := do
  skip
  let start ← get
  let target ← g.parse .binding
  if ← opIf "=" then
    let value ← assignment g
    nodeFrom start .phrase [target, value]
  else return target

def restBinding (g : Rules) : Parser Tree := node .phrase do
  op "..."
  return [← g.parse .binding]

def patternMember (g : Rules) : Parser Tree := do
  if ← atOp "..." then restBinding g
  else
    skip
    let start ← get
    let key ← propertyName g
    if ← opIf ":" then
      let target ← defaultedBinding g
      nodeFrom start .pairPattern [key.withRole .key, target]
    else
      guard (!reservedWords.contains key.text)
      let name := Tree.node .shorthandPattern .pattern key.text []
      if ← opIf "=" then
        let value ← assignment g
        nodeFrom start .defaultedPattern [name, value]
      else return name.withRole .none

def binding (g : Rules) : Parser Tree := do
  let c ← nextChar
  if c == '{' then
    node .objectPattern do
      op openBrace
      commaSeparated closeBrace (patternMember g)
  else if c == '[' then
    node .phrase do
      op "["
      commaSeparated "]" do
        if ← atOp "..." then restBinding g else defaultedBinding g
  else identifier

/-- Reads names after dots as members of `base`, which starts at `start`. -/
def members (start : Cursor) (base : Tree) : Nat → Parser Tree
  | 0 => return base
  | fuel + 1 => do
    if ← opIf "." then
      let name ← anyWord
      members start (← nodeFrom start .memberExpression [base, name.withRole .property]) fuel
    else return base

/-- Reads a decorator: a dotted name, a call of one, or an expression in parentheses. -/
def decorator (g : Rules) : Parser Tree := node .phrase do
  op "@"
  if ← atOp "(" then
    op "("
    let inner ← g.parse (.expression false)
    op ")"
    return [inner]
  else
    skip
    let start ← get
    let target ← members start (← identifier) start.left
    let call : Parser Tree := do
      if g.dialect.typed then typeArgumentsIf g
      guard (← atOp "(")
      let list ← g.parse .arguments
      nodeFrom start .callExpression [target.withRole .function, list.withRole .arguments]
    return [← call <|> return target]

def decorators (g : Rules) : Parser (List Tree) :=
  many do
    if ← atOp "@" then return some [← decorator g] else return none

def parameterModifiers : List String := ["public", "private", "protected", "readonly", "override"]

def modifiersOfParameter : Parser Unit := do
  let _ ← many do
    let next ← peekWord
    let rest := ((← get).skipped.advance next.length).skipped.rest
    let more := match rest with
      | c :: _ => c == '{' || c == '[' || isWordChar c
      | [] => false
    if parameterModifiers.contains next && more then
      word next
      return some []
    else return none
  return

/-- Reads a parameter. In a typed dialect it is a node around its pattern. -/
def parameter (g : Rules) : Parser Tree := do
  skip
  let start ← get
  let marks ← decorators g
  if g.dialect.typed then modifiersOfParameter
  let target ←
    if ← atOp "..." then restBinding g
    else if ← atWord "this" then anyWord
    else g.parse .binding
  if g.dialect.typed then
    let _ ← opIf "?"
    annotationIf g
  let value ← if ← opIf "=" then pure [← assignment g] else pure []
  if g.dialect.typed then
    nodeFrom start .parameter (marks ++ target.withRole .pattern :: value)
  else if marks.isEmpty && value.isEmpty then return target
  else nodeFrom start .phrase (marks ++ target :: value)

def parameters (g : Rules) : Parser Tree := node .parameters do
  op "("
  commaSeparated ")" (parameter g)

/-- Reads type parameters, parameters and the type of the result. -/
def signature (g : Rules) : Parser Tree := do
  typeParametersIf g
  let list ← g.parse .parameters
  annotationIf g
  return list.withRole .parameters

end CodeAtlas.Source.Grammar
