import CodeAtlas.Text.Words

/-! The superclass and the interfaces of a class, read from the text of its declaration. -/

namespace CodeAtlas.Relations

open CodeAtlas.Text

def isNameChar (c : Char) : Bool := c == '$' || isWord c

def afterBlanks? : List Char → Option (List Char)
  | [] => none
  | c :: rest => if isBlank c then some (rest.dropWhile isBlank) else none

def name? (text : List Char) : Option (List Char × List Char) :=
  match text.takeWhile isNameChar with
  | [] => none
  | name => some (name, text.dropWhile isNameChar)

/-- The part of a dotted name after its last dot; `last` is the part before `text`. -/
def lastComponent (last : List Char) : Nat → List Char → List Char
  | 0, _ => last
  | fuel + 1, '.' :: rest =>
    match name? rest with
    | some (name, rest) => lastComponent name fuel rest
    | none => last
  | _ + 1, _ => last

/-- Reads blanks, `extends`, blanks and a dotted name, and gives the last part of the name. -/
def extendsClause? (text : List Char) : Option (List Char) := do
  let rest ← afterBlanks? text
  let rest ← afterWord? "extends" rest
  let rest ← afterBlanks? rest
  let (name, rest) ← name? rest
  some (lastComponent name rest.length rest)

/-- The first extends clause after a `>` that closes type parameters; a brace ends the search. -/
def extendsAfterParameters? : List Char → Option (List Char)
  | [] => none
  | '{' :: _ => none
  | '>' :: rest =>
    match extendsClause? rest with
    | some name => some name
    | none => extendsAfterParameters? rest
  | _ :: rest => extendsAfterParameters? rest

def superclassHere? (text : List Char) : Option (List Char) := do
  let rest ← afterWord? "class" text
  let rest ← afterBlanks? rest
  let (_, rest) ← name? rest
  let parametrised : Option (List Char) :=
    match rest.dropWhile isBlank with
    | '<' :: inner => extendsAfterParameters? inner
    | _ => none
  match parametrised with
  | some name => some name
  | none => extendsClause? rest

def superclassIn? : List Char → Option (List Char)
  | [] => none
  | c :: rest =>
    match superclassHere? (c :: rest) with
    | some name => some name
    | none => superclassIn? rest

def findSuperclass (declaration : String) : Option String :=
  (superclassIn? declaration.toList).map String.ofList

def furtherNames : Nat → List Char → List (List Char)
  | 0, _ => []
  | fuel + 1, text =>
    match text.dropWhile isBlank with
    | ',' :: rest =>
      match name? (rest.dropWhile isBlank) with
      | some (name, rest) => name :: furtherNames fuel rest
      | none => []
    | _ => []

def interfacesHere? (text : List Char) : Option (List (List Char)) := do
  let rest ← afterWord? "implements" text
  let rest ← afterBlanks? rest
  let (name, rest) ← name? rest
  some (name :: furtherNames rest.length rest)

def interfacesIn : List Char → List (List Char)
  | [] => []
  | c :: rest =>
    match interfacesHere? (c :: rest) with
    | some names => names
    | none => interfacesIn rest

def findInterfaces (declaration : String) : List String :=
  (interfacesIn (declaration.toList.takeWhile (· != '{'))).map String.ofList

end CodeAtlas.Relations
