import CodeAtlas.Source.Grammar.Patterns

/-! Functions, methods and classes. -/

namespace CodeAtlas.Source.Grammar

open CodeAtlas.Source.Parser

def atAsyncFunction : Parser Bool := do
  if ← atWord "async" then
    let here ← get
    let after := here.skipped.advance 5
    return !after.lineEndsHere && wordAt after.skipped.rest == "function".toList
  else return false

/-- Reads a function. Without a body it is only a signature, which a typed dialect allows. -/
def function (g : Rules) (kind : Kind) (named : Bool) : Parser Tree := do
  skip
  let start ← get
  let _ ← wordIf "async"
  word "function"
  let _ ← opIf "*"
  let names ←
    if named || (← atAnyWord) then
      let name ← identifier
      pure [name.withRole .name]
    else pure []
  let list ← signature g
  if ← atOp openBrace then
    let body ← g.parse .block
    nodeFrom start kind (names ++ [list, body.withRole .body])
  else
    guard g.dialect.typed
    let _ ← opIf ";"
    nodeFrom start .phrase (names ++ [list])

def methodRest (g : Rules) (start : Cursor) (name : Tree) : Parser Tree := do
  let list ← signature g
  if ← atOp openBrace then
    let body ← g.parse .block
    nodeFrom start .methodDefinition [name.withRole .name, list, body.withRole .body]
  else
    guard g.dialect.typed
    nodeFrom start .phrase [name.withRole .name, list]

def atSignature (g : Rules) : Parser Bool := do
  let next := (← upcoming).head?
  return next == some '(' || (g.dialect.typed && next == some '<')

def objectMember (g : Rules) : Parser Tree := do
  skip
  let start ← get
  if ← opIf "..." then
    let inner ← assignment g
    nodeFrom start .phrase [inner]
  else
    let _ ← modifiers ["get", "set", "async", "static"]
    let name ← propertyName g
    if ← atSignature g then methodRest g start name
    else if (← opIf ":") || (← opIf "=") then
      let value ← assignment g
      nodeFrom start .phrase [name, value]
    else return name

def object (g : Rules) : Parser Tree := node .phrase do
  op openBrace
  commaSeparated closeBrace (objectMember g)

def memberModifiers : List String :=
  ["public", "private", "protected", "static", "abstract", "override", "readonly", "declare",
   "accessor", "async", "get", "set"]

def indexSignature : Parser Tree := node .phrase do
  op "["
  let _ ← anyWord
  op ":"
  balancedRest ((← get).left + 2) 1
  return []

def fieldRest (g : Rules) (start : Cursor) (name : Tree) : Parser Tree := do
  annotationIf g
  if ← opIf "=" then
    let value ← assignment g
    nodeFrom start .phrase [name, value]
  else nodeFrom start .phrase [name]

/-- Reads a member of a class after its decorators, which `before` holds. -/
def classMember (g : Rules) (before : Cursor) (marks : List Tree) : Parser (List Tree) := do
  skip
  let here ← get
  let start := if g.dialect.typed then here else before
  if (← atWord "static") && (here.skipped.advance 6).skipped.rest.head? == some '{' then
    word "static"
    return [← g.parse .block]
  else
    let _ ← modifiers memberModifiers
    let indexed ← (do
      guard g.dialect.typed
      let tree ← indexSignature
      annotationIf g
      pure (some tree)) <|> pure none
    match indexed with
    | some tree => return [tree]
    | none =>
      let name ← propertyName g
      if g.dialect.typed then
        let _ ← opIf "?"
        let _ ← opIf "!"
      let member ← if ← atSignature g then methodRest g start name else fieldRest g start name
      return if g.dialect.typed then marks ++ [member] else
        match member with
        | .node kind role text children => [.node kind role text (marks ++ children)]

def classBody (g : Rules) : Parser Tree := node .phrase do
  op openBrace
  many do
    if ← opIf closeBrace then return none
    else if ← opIf ";" then return some []
    else
      skip
      let before ← get
      let marks ← decorators g
      return some (← classMember g before marks)

def heritage (g : Rules) : Parser (List Tree) := do
  if (← atWord "extends") || (g.dialect.typed && (← atWord "implements")) then
    let tree ← node .classHeritage do
      let parent ←
        if ← wordIf "extends" then
          let base ← g.parse .operand
          if g.dialect.typed then typeArgumentsIf g
          pure [base]
        else pure []
      if g.dialect.typed && (← wordIf "implements") then typeList g
      return parent
    return [tree]
  else return []

def classFrom (g : Rules) (start : Cursor) (marks : List Tree) (kind : Kind) (named : Bool) :
    Parser Tree := do
  if g.dialect.typed then
    let _ ← wordIf "abstract"
  word "class"
  let next ← peekWord
  let names ←
    if named || (next != "" && next != "extends" && next != "implements") then
      let name ← identifier
      pure [name.withRole .name]
    else pure []
  typeParametersIf g
  let parents ← heritage g
  let body ← classBody g
  nodeFrom start kind (marks ++ names ++ parents ++ [body.withRole .body])

def classTree (g : Rules) (kind : Kind) (named : Bool) : Parser Tree := do
  skip
  let start ← get
  let marks ← decorators g
  classFrom g start marks kind named

end CodeAtlas.Source.Grammar
