import CodeAtlas.Source.Grammar.Modules

/-! Statements and declarations. -/

namespace CodeAtlas.Source.Grammar

open CodeAtlas.Source.Parser

def block (g : Rules) : Parser Tree := node .phrase do
  op openBrace
  many do
    if ← opIf closeBrace then return none else return some [← g.parse .statement]

def declarator (g : Rules) (noIn : Bool) : Parser Tree := node .variableDeclarator do
  let target ← g.parse .binding
  if g.dialect.typed then
    let _ ← opIf "!"
    annotationIf g
  if ← opIf "=" then
    let value ← g.parse (.assignment noIn true)
    return [target.withRole .name, value.withRole .value]
  else return [target.withRole .name]

def declarators (g : Rules) (noIn : Bool) : Parser (List Tree) := do
  let first ← declarator g noIn
  let rest ← many do
    if ← opIf "," then return some [← declarator g noIn] else return none
  return first :: rest

def variableWords : List String := ["var", "let", "const"]

def variableDeclaration (g : Rules) : Parser Tree := node .phrase do
  let next ← peekWord
  guard (variableWords.contains next)
  word next
  let list ← declarators g false
  semicolonIf
  return list

/-- Reads a declaration of a type, an interface, an enumeration or a namespace. -/
def typeDeclaration (g : Rules) : Parser Tree := node .phrase do
  guard g.dialect.typed
  let _ ← wordIf "const"
  let next ← peekWord
  word next
  if next == "type" then
    let name ← identifier
    typeParametersIf g
    op "="
    let _ ← g.parse .type
    semicolonIf
    return [name.withRole .name]
  else if next == "interface" then
    let name ← identifier
    typeParametersIf g
    if ← wordIf "extends" then typeList g
    balanced openBrace
    return [name.withRole .name]
  else if next == "enum" then
    let name ← identifier
    op openBrace
    let members ← commaSeparated closeBrace do
      skip
      let start ← get
      let member ← propertyName g
      if ← opIf "=" then
        let value ← assignment g
        nodeFrom start .phrase [member, value]
      else return member
    return name.withRole .name :: members
  else if next == "namespace" || next == "module" then
    let c ← nextChar
    let name ←
      if c == '"' || c == '\'' then stringLiteral
      else
        node .phrase do
          let _ ← identifier
          dottedNames
          return []
    if ← atOp openBrace then return [name.withRole .name, ← g.parse .block]
    else
      semicolonIf
      return [name.withRole .name]
  else if next == "global" then return [← g.parse .block]
  else failure

/-- Reads a declaration without a decorator in front. -/
def plainDeclaration (g : Rules) : Parser Tree := do
  let next ← peekWord
  if next == "function" || (← atAsyncFunction) then function g .functionDeclaration true
  else if next == "class" then classTree g .classDeclaration true
  else if next == "const" then typeDeclaration g <|> variableDeclaration g
  else if variableWords.contains next then variableDeclaration g
  else if next == "import" then importAlias
  else if next == "abstract" then
    guard g.dialect.typed
    classTree g .classDeclaration true
  else typeDeclaration g

def declaration (g : Rules) : Parser Tree := do
  if ← atOp "@" then classTree g .classDeclaration true
  else if g.dialect.typed && (← atWord "declare") then
    node .phrase do
      word "declare"
      return [← plainDeclaration g]
  else plainDeclaration g

def exportStatement (g : Rules) : Parser Tree := node .exportStatement do
  let marks ← decorators g
  word "export"
  return marks ++ (← exportRest g (declaration g))

def condition (g : Rules) : Parser Tree := do
  op "("
  let tree ← g.parse (.expression false)
  op ")"
  return tree

def eachHead (g : Rules) : Parser (List Tree) := do
  let values (target : Tree) : Parser (List Tree) := do
    if !(← wordIf "of") then word "in"
    let list ← g.parse (.expression false)
    op ")"
    return [target, list]
  let declared : Parser (List Tree) := do
    let next ← peekWord
    guard (variableWords.contains next)
    word next
    values (← g.parse .binding)
  declared <|> (do values (← g.parse .binding)) <|> (do values (← g.parse .operand))

def expressionUnless (g : Rules) (close : String) : Parser (List Tree) := do
  if ← opIf close then return []
  else
    let tree ← g.parse (.expression false)
    op close
    return [tree]

def countingHead (g : Rules) : Parser (List Tree) := do
  let next ← peekWord
  let start ←
    if ← opIf ";" then pure []
    else if variableWords.contains next then
      let list ← node .phrase do
        word next
        declarators g true
      op ";"
      pure [list]
    else
      let tree ← g.parse (.expression true)
      op ";"
      pure [tree]
  let test ← expressionUnless g ";"
  let step ← expressionUnless g ")"
  return start ++ test ++ step

def forLoop (g : Rules) : Parser Tree := node .phrase do
  word "for"
  let _ ← wordIf "await"
  op "("
  let head ← eachHead g <|> countingHead g
  return head ++ [← g.parse .statement]

def optionalExpression (g : Rules) : Parser (List Tree) := do
  if ← expressionEnds then
    semicolonIf
    return []
  else
    let tree ← g.parse (.expression false)
    semicolonIf
    return [tree]

def cases (g : Rules) : Parser (List Tree) := do
  op openBrace
  many do
    if ← opIf closeBrace then return none
    else if ← wordIf "case" then
      let tree ← g.parse (.expression false)
      op ":"
      return some [tree]
    else if ← wordIf "default" then
      op ":"
      return some []
    else return some [← g.parse .statement]

def handlers (g : Rules) : Parser (List Tree) := do
  let caught ←
    if ← wordIf "catch" then
      if ← opIf "(" then
        let target ← g.parse .binding
        annotationIf g
        op ")"
        pure [target, ← g.parse .block]
      else pure [← g.parse .block]
    else pure []
  let last ← if ← wordIf "finally" then pure [← g.parse .block] else pure []
  return caught ++ last

def expressionStatement (g : Rules) : Parser Tree := node .phrase do
  let tree ← g.parse (.expression false)
  semicolonIf
  return [tree]

def keywordStatement (g : Rules) (keyword : String) : Parser Tree := node .phrase do
  word keyword
  if keyword == "if" then
    let test ← condition g
    let first ← g.parse .statement
    if ← wordIf "else" then return [test, first, ← g.parse .statement]
    else return [test, first]
  else if keyword == "while" || keyword == "with" then
    let test ← condition g
    return [test, ← g.parse .statement]
  else if keyword == "do" then
    let first ← g.parse .statement
    word "while"
    let test ← condition g
    semicolonIf
    return [first, test]
  else if keyword == "try" then
    let first ← g.parse .block
    return first :: (← handlers g)
  else if keyword == "switch" then
    let test ← condition g
    return test :: (← cases g)
  else if keyword == "return" || keyword == "throw" then optionalExpression g
  else if keyword == "break" || keyword == "continue" then
    if !(← newline) && (← atAnyWord) then
      let _ ← anyWord
    semicolonIf
    return []
  else
    semicolonIf
    return []

def statementWords : List String :=
  ["if", "while", "with", "do", "try", "switch", "return", "throw", "break", "continue", "debugger"]

/-- Words that begin a declaration only when the rest fits. -/
def softWords : List String :=
  ["type", "interface", "enum", "namespace", "module", "declare", "abstract", "global"]

def labelled (g : Rules) : Parser Tree := node .phrase do
  let _ ← identifier
  op ":"
  return [← g.parse .statement]

def statement (g : Rules) : Parser Tree := do
  let next ← peekWord
  if next == "" then
    if ← atOp openBrace then g.parse .block
    else if ← atOp ";" then
      node .phrase do
        op ";"
        return []
    else if ← atOp "@" then exportStatement g <|> classTree g .classDeclaration true
    else expressionStatement g
  else if statementWords.contains next then keywordStatement g next
  else if next == "for" then forLoop g
  else if next == "import" then importStatement g <|> expressionStatement g
  else if next == "export" then exportStatement g
  else if next == "function" || next == "class" || next == "const" || next == "var"
      || (← atAsyncFunction) then declaration g
  else if next == "let" then variableDeclaration g <|> expressionStatement g
  else if g.dialect.typed && softWords.contains next then
    declaration g <|> labelled g <|> expressionStatement g
  else labelled g <|> expressionStatement g

end CodeAtlas.Source.Grammar
