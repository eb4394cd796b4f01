import CodeAtlas.Distinct
import CodeAtlas.Text.Words

/-! Calls and instantiations as they show in source text: a name followed by an opening
parenthesis. -/

namespace CodeAtlas.Relations

open CodeAtlas.Text

def callStoplist : List String :=
  ["if", "for", "while", "return", "console", "typeof", "instanceof"]

/-- The words that are followed by blanks and an opening parenthesis. `run` holds the last word
read, reversed; `closed` says that blanks followed it. -/
def calledWordsAfter (run : List Char) (closed : Bool) : List Char → List String
  | [] => []
  | c :: rest =>
    if isWord c then calledWordsAfter (if closed then [c] else c :: run) false rest
    else if isBlank c then calledWordsAfter run true rest
    else if c = '(' && !run.isEmpty then
      String.ofList run.reverse :: calledWordsAfter [] false rest
    else calledWordsAfter [] false rest

def calledWords (text : List Char) : List String := calledWordsAfter [] false text

/-- The names called in a body, each once, in order of first occurrence; those of the stoplist are
left out. -/
def findCalls (body : String) (stoplist : List String := callStoplist) : List String :=
  distinct ((calledWords body.toList).filter fun name => !stoplist.contains name)

def instantiatedHere (text : List Char) : Option String := do
  let rest ← afterWord? "new" text
  let named := rest.dropWhile isBlank
  let name := named.takeWhile isWord
  if named.length < rest.length && !name.isEmpty
      && ((named.dropWhile isWord).dropWhile isBlank).head? = some '(' then
    some (String.ofList name)
  else none

def instantiations : List Char → List String
  | [] => []
  | c :: rest =>
    match instantiatedHere (c :: rest) with
    | some name => name :: instantiations rest
    | none => instantiations rest

end CodeAtlas.Relations
