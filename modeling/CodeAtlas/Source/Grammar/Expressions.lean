import CodeAtlas.Source.Grammar.Classes
import CodeAtlas.Source.Grammar.Templates

/-! Expressions. Operators are read without their precedence, since only the operands matter; what a
node covers does matter for calls, functions and members. -/

namespace CodeAtlas.Source.Grammar

open CodeAtlas.Source.Parser

def spreadable (g : Rules) : Parser Tree := do
  if ← atOp "..." then
    node .phrase do
      op "..."
      return [← assignment g]
  else assignment g

def arguments (g : Rules) : Parser Tree := node .arguments do
  op "("
  commaSeparated ")" (spreadable g)

def arrayLiteral (g : Rules) : Parser Tree := node .array do
  op "["
  commaSeparated "]" (spreadable g)

def parenthesized (g : Rules) : Parser Tree := node .phrase do
  op "("
  let inner ← g.parse (.expression false)
  op ")"
  return [inner]

def regex : Parser Tree := node .phrase do
  match (← get).rest with
  | '/' :: body =>
    match regexLength false body with
    | some length => take (1 + length)
    | none => failure
  | _ => failure
  return []

def primary (g : Rules) : Parser Tree := do
  let c ← nextChar
  if c == '(' then parenthesized g
  else if c == '[' then arrayLiteral g
  else if c == '{' then object g
  else if c == '`' then templateString g
  else if c == '"' || c == '\'' then stringLiteral
  else if c == '/' then regex
  else if c == '<' then
    guard g.dialect.markup
    g.parse .markup
  else if c == '#' then propertyName g
  else if c == '@' then classTree g .phrase false
  else
    let next ← peekWord
    if next == "" then numberLiteral
    else if next == "function" || (← atAsyncFunction) then function g .functionExpression false
    else if next == "class" then classTree g .phrase false
    else if ["this", "super", "null", "undefined", "true", "false", "import"].contains next then
      anyWord
    else identifier

/-- Whether type arguments that end here belong to an expression: a call, a template or nothing that
could be an operand follows. -/
def typeArgumentsEnd : Parser Bool := do
  let rest ← upcoming
  return match rest with
    | [] => true
    | c :: _ =>
      if c == '(' || c == '`' then true
      else
        let next := String.ofList (wordAt rest)
        if next != "" then ["implements", "as", "satisfies", "in", "instanceof", "of"].contains next
        else !(c == '[' || c == '"' || c == '\'' || c == '<' || c == '>' || c == '-' || c == '+'
          || c == '!' || c == '~' || c == '/' || c.isDigit || c == '#' || c == '@')

/-- Reads one step of a chain of members, calls and templates after `base`, which starts at
`start`. -/
def chainStep (g : Rules) (start : Cursor) (base : Tree) : Parser (Option Tree) := do
  let member : Parser (Option Tree) := do
    skip
    let here ← get
    if ← opIf "#" then
      take (wordAt (← get).rest).length
      let property := Tree.node .phrase .property (here.textUpTo (← get)) []
      return some (← nodeFrom start .memberExpression [base, property])
    else
      let name ← anyWord
      return some (← nodeFrom start .memberExpression [base, name.withRole .property])
  let call : Parser (Option Tree) := do
    let list ← arguments g
    return some (← nodeFrom start .callExpression
      [base.withRole .function, list.withRole .arguments])
  let template (tag : Tree) : Parser (Option Tree) := do
    let text ← templateString g
    return some (← nodeFrom start .callExpression
      [tag.withRole .function, text.withRole .arguments])
  let subscript : Parser (Option Tree) := do
    op "["
    let index ← g.parse (.expression false)
    op "]"
    return some (← nodeFrom start .phrase [base, index])
  let c := (← upcoming).head?
  let operator ← peekOperator
  if operator == "." then
    op "."
    member
  else if operator == "?." then
    op "?."
    let next ← nextChar
    if next == '(' then call
    else if next == '[' then subscript
    else if next == '<' && g.dialect.typed then
      typeArguments g
      call
    else member
  else if operator == "(" then call
  else if operator == "[" then subscript
  else if c == some '`' then template base
  else if g.dialect.typed && operator == "!" && !(← newline) then
    op "!"
    return some (← nodeFrom start .phrase [base])
  else if g.dialect.typed && c == some '<' then
    let withTypes : Parser (Option Tree) := do
      typeArguments g
      guard (← typeArgumentsEnd)
      let next := (← upcoming).head?
      if next == some '(' then call
      else
        let instance_ ← nodeFrom start .phrase [base]
        if next == some '`' then template instance_ else return some instance_
    withTypes <|> return none
  else return none

def chain (g : Rules) (start : Cursor) (base : Tree) : Nat → Parser Tree
  | 0 => return base
  | fuel + 1 => do
    match ← chainStep g start base with
    | some longer => chain g start longer fuel
    | none => return base

def created (g : Rules) (start : Cursor) (base : Tree) : Nat → Parser Tree
  | 0 => return base
  | fuel + 1 => do
    if ← opIf "." then
      let name ← if (← nextChar) == '#' then propertyName g else anyWord
      let longer ← nodeFrom start .memberExpression [base, name.withRole .property]
      created g start longer fuel
    else if ← atOp "[" then
      op "["
      let index ← g.parse (.expression false)
      op "]"
      let longer ← nodeFrom start .phrase [base, index]
      created g start longer fuel
    else return base

def creation (g : Rules) : Parser Tree := do
  skip
  let start ← get
  word "new"
  if ← opIf "." then
    let _ ← anyWord
    nodeFrom start .phrase []
  else
    skip
    let inner ← get
    let base ← if ← atWord "new" then g.parse .creation else primary g
    let target ← created g inner base ((← get).left + 1)
    if g.dialect.typed then typeArgumentsIf g <|> return
    let list ← if ← atOp "(" then pure [← arguments g] else pure []
    nodeFrom start .phrase (target :: list)

def operand (g : Rules) : Parser Tree := do
  skip
  let start ← get
  let base ← if ← atWord "new" then g.parse .creation else primary g
  chain g start base ((← get).left + 1)

def prefixOperators : List String := ["!", "~", "+", "-", "++", "--"]

def prefixWords : List String := ["typeof", "void", "delete", "await"]

def unary (g : Rules) : Parser Tree := do
  skip
  let start ← get
  let _ ← many do
    let operator ← peekOperator
    let next ← peekWord
    if prefixOperators.contains operator then
      op operator
      return some []
    else if prefixWords.contains next then
      word next
      return some []
    else if operator == "<" && g.dialect.typed && !g.dialect.markup then
      typeArguments g
      return some []
    else return none
  let prefixed := (← get).left != start.left
  let inner ← g.parse .operand
  let postfixed ← if ← newline then pure false else (do return (← opIf "++") || (← opIf "--"))
  if prefixed || postfixed then nodeFrom start .phrase [inner] else return inner

def binaryOperators : List String :=
  ["||", "&&", "??", "|", "^", "&", "==", "!=", "===", "!==", "<", ">", "<=", ">=", "<<", ">>",
   ">>>", "+", "-", "*", "/", "%", "**"]

def binary (g : Rules) (noIn : Bool) : Parser Tree := do
  skip
  let start ← get
  let first ← unary g
  let end_ := (← get).left
  let rest ← many do
    let operator ← peekOperator
    let next ← peekWord
    if binaryOperators.contains operator then
      op operator
      return some [← unary g]
    else if next == "instanceof" || (next == "in" && !noIn) then
      word next
      return some [← unary g]
    else if g.dialect.typed && (next == "as" || next == "satisfies") && !(← newline) then
      word next
      if !(← wordIf "const") then
        let _ ← g.parse .type
      return some []
    else return none
  if (← get).left == end_ then return first else nodeFrom start .phrase (first :: rest)

def arrowHead (g : Rules) (typedArrows : Bool) : Parser Tree := do
  let c ← nextChar
  let list ←
    if c == '(' || c == '<' then
      typeParametersIf g
      let list ← g.parse .parameters
      if typedArrows then annotationIf g
      pure (list.withRole .parameters)
    else identifier
  guard (!(← newline))
  op "=>"
  return list

/-- Reads an arrow function. Arguments after its block make it a call. -/
def arrow (g : Rules) (noIn typedArrows : Bool) : Parser Tree := do
  skip
  let start ← get
  let asynchronous : Parser Tree := do
    word "async"
    guard (!(← newline))
    arrowHead g typedArrows
  let list ← asynchronous <|> arrowHead g typedArrows
  if ← atOp openBrace then
    let body ← g.parse .block
    let whole ← nodeFrom start .arrowFunction [list, body.withRole .body]
    if ← atOp "(" then chain g start whole ((← get).left + 1) else return whole
  else
    let body ← g.parse (.assignment noIn true)
    nodeFrom start .arrowFunction [list, body.withRole .body]

/-- Whether type parameters and not an element start here: a comma, a bound or a default follows the
name. -/
def atTypeParameters : Parser Bool := do
  let rest ← upcoming
  match rest with
  | '<' :: inner =>
    let here : Cursor := ⟨inner, inner.length⟩
    let first := wordAt here.skipped.rest
    let after := (here.skipped.advance first.length).skipped.rest
    return first == "const".toList || after.head? == some ',' || after.head? == some '='
      || wordAt after == "extends".toList
  | _ => return false

def assignmentOperators : List String :=
  ["=", "+=", "-=", "*=", "/=", "%=", "**=", "<<=", ">>=", ">>>=", "&=", "|=", "^=", "&&=", "||=",
   "??="]

def conditional (g : Rules) (noIn : Bool) : Parser Tree := do
  skip
  let start ← get
  let first ← binary g noIn
  if ← opIf "?" then
    let middle (typedArrows : Bool) : Parser Tree := do
      let tree ← g.parse (.assignment false typedArrows)
      op ":"
      return tree
    let whenTrue ← middle true <|> middle false
    let whenFalse ← g.parse (.assignment noIn true)
    nodeFrom start .phrase [first, whenTrue, whenFalse]
  else
    let operator ← peekOperator
    if assignmentOperators.contains operator then
      op operator
      let value ← g.parse (.assignment noIn true)
      nodeFrom start .phrase [first, value]
    else return first

def expressionEnds : Parser Bool := do
  if ← newline then return true
  else
    return match ← upcoming with
      | [] => true
      | c :: _ => c == ')' || c == ']' || c == '}' || c == ',' || c == ';' || c == ':'

def yielded (g : Rules) (noIn : Bool) : Parser Tree := node .phrase do
  word "yield"
  if ← opIf "*" then return [← g.parse (.assignment noIn true)]
  else if ← expressionEnds then return []
  else return [← g.parse (.assignment noIn true)]

def assignmentRule (g : Rules) (noIn typedArrows : Bool) : Parser Tree := do
  let c ← nextChar
  if ← atWord "yield" then yielded g noIn
  else if c == '<' then
    if !g.dialect.typed then conditional g noIn
    else if g.dialect.markup && !(← atTypeParameters) then
      conditional g noIn <|> arrow g noIn typedArrows
    else arrow g noIn typedArrows <|> conditional g noIn
  else if c == '(' || (← atAnyWord) then arrow g noIn typedArrows <|> conditional g noIn
  else conditional g noIn

def expression (g : Rules) (noIn : Bool) : Parser Tree := do
  skip
  let start ← get
  let first ← g.parse (.assignment noIn true)
  let rest ← many do
    if ← opIf "," then return some [← g.parse (.assignment noIn true)] else return none
  if rest.isEmpty then return first else nodeFrom start .phrase (first :: rest)

end CodeAtlas.Source.Grammar
