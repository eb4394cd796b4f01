import CodeAtlas.Source.Grammar.Goal

/-! Type annotations. Nothing asks what a type says, only where it ends; the bodies of object and
tuple types are passed over by their brackets. -/

namespace CodeAtlas.Source.Grammar

open CodeAtlas.Source.Parser

/-- The length of a template after its opening mark, substitutions and all. -/
def rawTemplateLength : List Char → Option Nat
  | [] => none
  | '\\' :: _ :: rest => (rawTemplateLength rest).map (· + 2)
  | c :: rest => if c == '`' then some 1 else (rawTemplateLength rest).map (· + 1)

def anyToken : Parser Unit := do
  skip
  match (← get).rest with
  | [] => failure
  | c :: rest =>
    if c == '"' || c == '\'' then
      match stringLength c rest with
      | some length => take (1 + length)
      | none => failure
    else if c == '`' then
      match rawTemplateLength rest with
      | some length => take (1 + length)
      | none => failure
    else
      let here := c :: rest
      let word := (wordAt here).length
      let number := numberLength here
      take (if word != 0 then word else if number != 0 then number else 1)

def balancedRest : Nat → Nat → Parser Unit
  | 0, _ => failure
  | _, 0 => return
  | fuel + 1, depth + 1 => do
    let c ← nextChar
    anyToken
    if c == '(' || c == '[' || c == '{' then balancedRest fuel (depth + 2)
    else if c == ')' || c == ']' || c == '}' then balancedRest fuel depth
    else balancedRest fuel (depth + 1)

def balanced (opening : String) : Parser Unit := do
  op opening
  balancedRest ((← get).left + 2) 1

def typeList (g : Rules) : Parser Unit := do
  let _ ← g.parse .type
  let _ ← many do
    if ← opIf "," then
      let _ ← g.parse .type
      return some []
    else return none
  return

def typeArguments (g : Rules) : Parser Unit := do
  char '<'
  typeList g
  char '>'

def typeParameters (g : Rules) : Parser Unit := do
  char '<'
  let _ ← many do
    if (← nextChar) == '>' then
      char '>'
      return none
    else if ← opIf "," then return some []
    else
      let name ← peekWord
      guard (name != "")
      word name
      if ← wordIf "extends" then
        let _ ← g.parse .type
      if (← nextChar) == '=' then
        char '='
        let _ ← g.parse .type
      return some []
  return

def typeParametersIf (g : Rules) : Parser Unit := do
  if g.dialect.typed && (← nextChar) == '<' then typeParameters g else return

def dottedNames : Parser Unit := do
  let _ ← many do
    if ← opIf "." then
      let _ ← anyWord
      return some []
    else return none
  return

def typeArgumentsIf (g : Rules) : Parser Unit := do
  if (← upcoming).head? == some '<' then typeArguments g else return

def primaryType (g : Rules) : Parser Unit := do
  let c ← nextChar
  if c == '(' then
    op "("
    let _ ← g.parse .type
    op ")"
  else if c == '{' then balanced openBrace
  else if c == '[' then balanced "["
  else if c == '"' || c == '\'' then
    let _ ← stringLiteral
  else if c == '`' then anyToken
  else if c == '-' then
    op "-"
    let _ ← numberLiteral
  else if ← wordIf "typeof" then
    if ← wordIf "import" then balanced "("
    else
      let _ ← anyWord
    dottedNames
    typeArgumentsIf g
  else if ← wordIf "import" then
    balanced "("
    dottedNames
    typeArgumentsIf g
  else if ← atAnyWord then
    let _ ← anyWord
    dottedNames
    typeArgumentsIf g
  else
    let _ ← numberLiteral

def typeOperand (g : Rules) : Parser Unit := do
  let _ ← many do
    let next ← peekWord
    if ["keyof", "unique", "readonly", "infer"].contains next
        && (← nameAfterWordOrBracket next) then
      word next
      return some []
    else return none
  primaryType g
  let _ ← many do
    if !(← newline) && (← atOp "[") then
      balanced "["
      return some []
    else return none
  return
where
  /-- Whether a type follows the given word. -/
  nameAfterWordOrBracket (first : String) : Parser Bool := do
    let rest := ((← get).skipped.advance first.length).skipped.rest
    return match rest with
      | c :: _ => c == '[' || c == '{' || c == '(' || isWordChar c
      | [] => false

def unionType (g : Rules) : Parser Unit := do
  if !(← opIf "|") then
    let _ ← opIf "&"
  typeOperand g
  let _ ← many do
    if (← opIf "|") || (← opIf "&") then
      typeOperand g
      return some []
    else return none
  return

def functionType (g : Rules) : Parser Unit := do
  let _ ← wordIf "abstract"
  let _ ← wordIf "new"
  typeParametersIf g
  let _ ← g.parse .parameters
  op "=>"
  let _ ← g.parse .type
  return

/-- Reads the type of a function, or a union whose first part may be one. -/
def plainType (g : Rules) : Parser Unit := do
  let c ← nextChar
  let next ← peekWord
  if c == '(' || c == '<' || next == "new" || next == "abstract" then
    functionType g <|> unionType g
  else unionType g

def assertionType (g : Rules) : Parser Unit := do
  word "asserts"
  guard (!(← newline))
  let _ ← anyWord
  if ← wordIf "is" then
    let _ ← g.parse .type

def type (g : Rules) : Parser Tree := node .phrase do
  let whole : Parser Unit := do
    plainType g
    if !(← newline) && (← atWord "is") then
      word "is"
      let _ ← g.parse .type
    else if !(← newline) && (← atWord "extends") then
      word "extends"
      plainType g
      op "?"
      let _ ← g.parse .type
      op ":"
      let _ ← g.parse .type
  assertionType g <|> whole
  return []

def annotationIf (g : Rules) : Parser Unit := do
  if g.dialect.typed && (← atOp ":") then
    op ":"
    let _ ← g.parse .type
  else return

end CodeAtlas.Source.Grammar
