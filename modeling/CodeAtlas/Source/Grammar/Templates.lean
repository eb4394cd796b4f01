import CodeAtlas.Source.Grammar.Patterns

/-! Template strings and markup, where the text between the constructs has rules of its own. -/

namespace CodeAtlas.Source.Grammar

open CodeAtlas.Source.Parser

/-- The number of characters before the end of a template or its next substitution. -/
def templateChunk : List Char → Nat
  | [] => 0
  | '\\' :: _ :: rest => 2 + templateChunk rest
  | '$' :: '{' :: _ => 0
  | c :: rest => if c == '`' then 0 else 1 + templateChunk rest

def templateString (g : Rules) : Parser Tree := node .templateString do
  char '`'
  many do
    take (templateChunk (← get).rest)
    match (← get).rest with
    | '$' :: _ =>
      take 2
      let inner ← g.parse (.expression false)
      op closeBrace
      return some [inner]
    | _ :: _ =>
      take 1
      return none
    | [] => failure

def isMarkupNameChar (c : Char) : Bool := c == '-' || c == ':' || c == '.' || isWordChar c

def markupName : Parser Tree := node .phrase do
  let name := (← get).rest.takeWhile isMarkupNameChar
  guard (!name.isEmpty)
  take name.length
  return []

def markupBraces (g : Rules) : Parser (List Tree) := do
  op openBrace
  if ← opIf closeBrace then return []
  else
    let _ ← opIf "..."
    let inner ← g.parse (.expression false)
    op closeBrace
    return [inner]

def attributeValue (g : Rules) : Parser (List Tree) := do
  let c ← nextChar
  if c == '"' || c == '\'' then
    skip
    take 1
    take (((← get).rest.takeWhile (· != c)).length + 1)
    return []
  else if c == '{' then markupBraces g
  else return [← g.parse .markup]

def attributes (g : Rules) : Parser (List Tree) :=
  many do
    let c ← nextChar
    if c == '/' || c == '>' then return none
    else if c == '{' then return some (← markupBraces g)
    else
      let _ ← markupName
      if (← nextChar) == '=' then
        char '='
        return some (← attributeValue g)
      else return some []

def markupChildren (g : Rules) : Parser (List Tree) :=
  many do
    let chunk := (← get).rest.takeWhile fun c => c != '<' && c != '{'
    take chunk.length
    match (← get).rest with
    | '<' :: '/' :: rest =>
      let name := (rest.takeWhile (· != '>')).length
      guard (name < rest.length)
      take (name + 3)
      return none
    | '<' :: _ => return some [← g.parse .markup]
    | '{' :: _ => return some (← markupBraces g)
    | _ => failure

def markup (g : Rules) : Parser Tree := node .jsx do
  char '<'
  if (← nextChar) == '>' then
    char '>'
    markupChildren g
  else
    let name ← markupName
    if g.dialect.typed then typeArgumentsIf g
    let inner ← attributes g
    if (← nextChar) == '/' then
      char '/'
      char '>'
      return name.withRole .name :: inner
    else
      char '>'
      return name :: inner ++ (← markupChildren g)

end CodeAtlas.Source.Grammar
