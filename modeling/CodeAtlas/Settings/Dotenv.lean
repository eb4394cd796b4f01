import CodeAtlas.Distinct
import CodeAtlas.Error
import CodeAtlas.Text.Words

/-! Environment files: lines of the form `NAME=value`, with quotes, comments and references to other
variables. -/

namespace CodeAtlas.Dotenv

open CodeAtlas.Text

def isInlineBlank (c : Char) : Bool := isBlank c && c != '\n' && c != '\r'

def isLineEnd (c : Char) : Bool := c == '\n' || c == '\r'

abbrev Binding := String × Option String

/-- What follows `export` and at least one blank; a line may begin so. -/
def afterExport (text : List Char) : List Char :=
  match afterWord? "export" text with
  | some rest =>
    if rest.head?.any isInlineBlank then rest.dropWhile isInlineBlank else text
  | none => text

/-- Reads text up to a closing quote. A quote after a backslash does not close, unless no other
quote follows. -/
def quotedUpTo (quote : Char) : List Char → Option (List Char × List Char)
  | [] => none
  | [c] => if c = quote then some ([], []) else none
  | c :: d :: rest =>
    if c = quote then some ([], d :: rest)
    else if c = '\\' && d = quote then
      match quotedUpTo quote rest with
      | some (body, left) => some (c :: d :: body, left)
      | none => some ([c], rest)
    else (quotedUpTo quote (d :: rest)).map fun (body, left) => (c :: body, left)

def doubleEscape? (c : Char) : Option Char :=
  [('\\', 92), ('\'', 39), ('"', 34), ('a', 7), ('b', 8), ('f', 12), ('n', 10), ('r', 13), ('t', 9),
    ('v', 11)].lookup c |>.map Char.ofNat

def singleEscape? (c : Char) : Option Char :=
  [('\\', 92), ('\'', 39)].lookup c |>.map Char.ofNat

def unescape (meaning? : Char → Option Char) : List Char → List Char
  | [] => []
  | [c] => [c]
  | '\\' :: c :: rest =>
    match meaning? c with
    | some meaning => meaning :: unescape meaning? rest
    | none => '\\' :: unescape meaning? (c :: rest)
  | c :: rest => c :: unescape meaning? rest

def withoutComment : List Char → List Char
  | [] => []
  | c :: rest =>
    if isBlank c && (rest.dropWhile isBlank).head? = some '#' then []
    else c :: withoutComment rest

def trimEnd (text : List Char) : List Char := (text.reverse.dropWhile isBlank).reverse

def readValue (text : List Char) : Option (List Char × List Char) :=
  match text with
  | '\'' :: rest =>
    (quotedUpTo '\'' rest).map fun (body, left) => (unescape singleEscape? body, left)
  | '"' :: rest =>
    (quotedUpTo '"' rest).map fun (body, left) => (unescape doubleEscape? body, left)
  | _ =>
    some (trimEnd (withoutComment (text.takeWhile fun c => !isLineEnd c)),
      text.dropWhile fun c => !isLineEnd c)

def isNameChar (c : Char) : Bool := c != '=' && c != '#' && !isBlank c

def readName (text : List Char) : Option (Option (List Char) × List Char) :=
  match text with
  | '#' :: _ => some (none, text)
  | '\'' :: rest =>
    match rest.takeWhile (· != '\''), rest.dropWhile (· != '\'') with
    | c :: name, _ :: left => some (some (c :: name), left)
    | _, _ => none
  | _ =>
    match text.takeWhile isNameChar with
    | [] => none
    | name => some (some name, text.dropWhile isNameChar)

def afterLine (text : List Char) : Option (List Char) :=
  let rest := text.dropWhile isInlineBlank
  let rest := if rest.head? = some '#' then rest.dropWhile fun c => !isLineEnd c else rest
  match rest with
  | [] => some []
  | '\r' :: '\n' :: rest => some rest
  | c :: rest => if isLineEnd c then some rest else none

def skipLine (text : List Char) : List Char := (text.dropWhile fun c => !isLineEnd c).drop 1

/-- Reads a line that is not blank; an unreadable one binds nothing. The rest is where reading goes
on. -/
def readLine (text : List Char) : Option Binding × List Char :=
  let start := afterExport text
  match readName start with
  | none => (none, skipLine start)
  | some (name, rest) =>
    let rest := rest.dropWhile isInlineBlank
    let valued : Option (Option (List Char)) × List Char :=
      match rest with
      | '=' :: after =>
        let after := after.dropWhile isInlineBlank
        match readValue after with
        | some (value, left) => (some (some value), left)
        | none => (none, after)
      | _ => (some none, rest)
    match valued with
    | (none, left) => (none, skipLine left)
    | (some value, left) =>
      match afterLine left with
      | none => (none, skipLine (left.dropWhile isInlineBlank))
      | some left => (name.map fun name => (String.ofList name, value.map String.ofList), left)

def bindings : Nat → List Char → List Binding
  | 0, _ => []
  | fuel + 1, text =>
    match text.dropWhile isBlank with
    | [] => []
    | start =>
      let (found, rest) := readLine start
      found.toList ++ bindings fuel rest

/-- A variable reference at the start of a text, after its opening: the name, the default and what
follows. -/
def reference? (text : List Char) : Option (List Char × Option (List Char) × List Char) :=
  let name := text.takeWhile fun c => c != '}' && c != ':'
  match text.drop name.length with
  | '}' :: rest => some (name, none, rest)
  | ':' :: '-' :: rest =>
    match rest.dropWhile (· != '}') with
    | '}' :: left => some (name, some (rest.takeWhile (· != '}')), left)
    | _ => none
  | _ => none

/-- Replaces variable references, written with a dollar sign and braces, by what `lookup` knows,
else by their default, else by nothing. -/
def expand (lookup : String → Option String) : Nat → List Char → List Char
  | 0, text => text
  | _ + 1, [] => []
  | fuel + 1, c :: rest =>
    match c, rest with
    | '$', '{' :: inner =>
      match reference? inner with
      | some (name, default, left) =>
        let value := match lookup (String.ofList name) with
          | some value => value.toList
          | none => default.getD []
        value ++ expand lookup fuel left
      | none => c :: expand lookup fuel rest
    | _, _ => c :: expand lookup fuel rest

abbrev Environment := List (String × String)

/-- The assignments of a file, in which references see the environment first and then the
assignments before them. A name without value is bound to nothing. -/
def resolve (environment : Environment) (text : List Char) : List Binding :=
  (bindings (text.length + 1) text).foldl (fun resolved (name, value) =>
    let lookup (wanted : String) : Option String :=
      (environment.lookup wanted).or ((valueOf? wanted resolved).map (·.getD ""))
    let value := value.map fun value =>
      String.ofList (expand lookup (value.length + 1) value.toList)
    bind name value resolved) []

/-- Whether an environment can hold an assignment. A name ends at its equals sign, and everything
ends at the null character. -/
def canHold (name value : String) : Bool :=
  !(name.toList.contains '=' || name.toList.contains '\x00' || value.toList.contains '\x00')

def assign (environment : Environment) : Binding → Except Error Environment
  | (_, none) => .ok environment
  | (name, some value) =>
    if (environment.lookup name).isSome then .ok environment
    else if canHold name value then .ok (environment ++ [(name, value)])
    else .error .impossibleValue

def load (environment : Environment) (text : List Char) : Except Error Environment :=
  (resolve environment text).foldlM assign environment

end CodeAtlas.Dotenv
