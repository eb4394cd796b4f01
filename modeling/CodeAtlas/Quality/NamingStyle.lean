/-! Naming styles. A name is camelCase or snake_case only when it clearly follows one of them. -/

namespace CodeAtlas.Quality

inductive NamingStyle where
  | camelCase
  | snakeCase
  deriving DecidableEq, Repr

namespace NamingStyle

def name : NamingStyle → String
  | .camelCase => "camelCase"
  | .snakeCase => "snake_case"

def isLower (c : Char) : Bool := 'a' ≤ c && c ≤ 'z'

def isUpper (c : Char) : Bool := 'A' ≤ c && c ≤ 'Z'

def isPlain (c : Char) : Bool := isLower c || ('0' ≤ c && c ≤ '9')

/-- One or more humps: upper-case letters, each with the plain characters after it. -/
def humps : List Char → Bool
  | [] => false
  | c :: rest => isUpper c && rest.all fun c => isUpper c || isPlain c

def isCamelCase : List Char → Bool
  | [] => false
  | c :: rest => isLower c && humps (rest.dropWhile isPlain)

/-- Pieces of plain characters joined by single underscores; `atStart` says that the piece at hand
is still empty, `joined` that an underscore was read. -/
def pieces (atStart joined : Bool) : List Char → Bool
  | [] => joined && !atStart
  | c :: rest =>
    if c = '_' then !atStart && pieces true true rest else isPlain c && pieces false joined rest

def isSnakeCase : List Char → Bool
  | [] => false
  | c :: rest => isLower c && pieces false false rest

def withoutFinalNewline (name : List Char) : List Char :=
  if name.getLast? = some '\n' then name.dropLast else name

def ofName? (name : String) : Option NamingStyle :=
  let chars := withoutFinalNewline name.toList
  if isCamelCase chars then some .camelCase
  else if isSnakeCase chars then some .snakeCase
  else none

def count (style : NamingStyle) (names : List String) : Nat :=
  (names.filter fun name => ofName? name = some style).length

/-- The style that more names have than the other one. -/
def dominant? (names : List String) : Option NamingStyle :=
  let camel := count .camelCase names
  let snake := count .snakeCase names
  if camel = snake then none else if camel > snake then some .camelCase else some .snakeCase

end NamingStyle

end CodeAtlas.Quality
