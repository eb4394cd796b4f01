import CodeAtlas.Source.Grammar.Expressions

/-! Import and export statements. -/

namespace CodeAtlas.Source.Grammar

open CodeAtlas.Source.Parser

def semicolonIf : Parser Unit := do
  let _ ← opIf ";"
  return

def moduleName : Parser Tree := do
  let c ← nextChar
  if c == '"' || c == '\'' then stringLiteral else anyWord

/-- Whether the next word is a mark for types rather than a name: a word or a string follows that is
not `as`. -/
def atTypeMark : Parser Bool := do
  let first ← peekWord
  if first == "type" || first == "typeof" then
    let rest := ((← get).skipped.advance first.length).skipped.rest
    let next := String.ofList (wordAt rest)
    return (next != "" && next != "as") || rest.head? == some '"' || rest.head? == some '\''
  else return false

def specifier (g : Rules) (kind : Kind) : Parser Tree := node kind do
  if g.dialect.typed && (← atTypeMark) then
    let _ ← anyWord
  let name ← moduleName
  if ← wordIf "as" then
    let other ← moduleName
    return [name.withRole .name, other.withRole .alias]
  else return [name.withRole .name]

def specifiers (g : Rules) (list each : Kind) : Parser Tree := node list do
  op openBrace
  commaSeparated closeBrace (specifier g each)

def attributesIf : Parser Unit := do
  if (← atWord "with") || ((← atWord "assert") && !(← newline)) then
    let _ ← anyWord
    balanced openBrace

def importClause (g : Rules) : Parser Tree := node .importClause do
  let first ← if ← atAnyWord then (do return [← identifier]) else pure []
  let more ← if first.isEmpty then pure true else opIf ","
  if !more then return first
  else if ← atOp "*" then
    let all ← node .namespaceImport do
      op "*"
      word "as"
      return [← identifier]
    return first ++ [all]
  else return first ++ [← specifiers g .namedImports .importSpecifier]

def importRest (g : Rules) : Parser (List Tree) := do
  let c ← nextChar
  if c == '"' || c == '\'' then
    let source ← stringLiteral
    attributesIf
    return [source.withRole .source]
  else
    let clause ← importClause g
    word "from"
    let source ← stringLiteral
    attributesIf
    return [clause, source.withRole .source]

/-- Reads an import that binds a name to a module or to a dotted name. -/
def importAlias : Parser Tree := node .phrase do
  word "import"
  let _ ← wordIf "type"
  let _ ← identifier
  op "="
  let _ ← anyWord
  dottedNames
  if ← atOp "(" then balanced "("
  semicolonIf
  return []

def importStatement (g : Rules) : Parser Tree := do
  let plain : Parser Tree := node .importStatement do
    word "import"
    let parts ← importRest g
    semicolonIf
    return parts
  let marked : Parser Tree := node .importStatement do
    word "import"
    let mark ← peekWord
    guard (mark == "type" || mark == "typeof")
    let _ ← anyWord
    let parts ← importRest g
    semicolonIf
    return parts
  if g.dialect.typed then plain <|> marked <|> importAlias else plain

def fromIf : Parser (List Tree) := do
  if ← wordIf "from" then
    let source ← stringLiteral
    attributesIf
    return [source.withRole .source]
  else return []

def defaultExport (g : Rules) (declaration : Parser Tree) : Parser Tree := do
  let declared : Parser Tree := do
    let next ← peekWord
    guard ((← atOp "@") || next == "class" || next == "function" || (← atAsyncFunction)
      || (g.dialect.typed && (next == "abstract" || next == "interface")))
    return (← declaration).withRole .declaration
  let computed : Parser Tree := do
    let value ← assignment g
    semicolonIf
    return value.withRole .value
  declared <|> computed

/-- Reads an export statement after its keyword; `declaration` reads a declaration. -/
def exportRest (g : Rules) (declaration : Parser Tree) : Parser (List Tree) := do
  let named : Parser (List Tree) := do
    let list ← specifiers g .exportClause .exportSpecifier
    let source ← fromIf
    semicolonIf
    return list :: source
  let everything : Parser (List Tree) := do
    op "*"
    if ← wordIf "as" then
      let _ ← moduleName
    let source ← fromIf
    semicolonIf
    return source
  let typesOnly : Parser (List Tree) := do
    guard g.dialect.typed
    word "type"
    named <|> everything
  if ← atOp openBrace then named
  else if ← atOp "*" then everything
  else if ← wordIf "default" then
    return [.node .defaultKeyword .none "default" [], ← defaultExport g declaration]
  else if g.dialect.typed && (← atOp "=") then
    op "="
    let value ← g.parse (.expression false)
    semicolonIf
    return [value]
  else if g.dialect.typed && (← atWord "as") then
    word "as"
    word "namespace"
    let _ ← anyWord
    semicolonIf
    return []
  else typesOnly <|> (do return [(← declaration).withRole .declaration])

end CodeAtlas.Source.Grammar
