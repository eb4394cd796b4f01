/-! Reading command lines. Long options take their value after an equals sign or from the next word,
short ones also from the rest of their own word; short flags can be joined; `--` ends the
options. -/

namespace CodeAtlas.Command

structure OptionSpec where
  long : String
  short : Option Char := none
  takesValue : Bool := true
  deriving Repr

structure Words where
  /-- Options by long name, in order; a flag has an empty value. -/
  options : List (String × String) := []
  positionals : List String := []
  deriving Repr, Inhabited

namespace Words

def withOption (words : Words) (name value : String) : Words :=
  { words with options := (name, value) :: words.options }

def withPositional (words : Words) (word : String) : Words :=
  { words with positionals := word :: words.positionals }

def value? (words : Words) (name : String) : Option String := words.options.reverse.lookup name

def has (words : Words) (name : String) : Bool := (words.value? name).isSome

end Words

abbrev OptionsRead := List (String × String) × List String

def readLong (specs : List OptionSpec) (word : String) (rest : List String) :
    Option OptionsRead := do
  let chars := word.toList
  let name := String.ofList (chars.takeWhile (· != '='))
  let spec ← specs.find? fun spec => spec.long = name
  match chars.drop name.length, spec.takesValue, rest with
  | _ :: value, true, _ => some ([(name, String.ofList value)], rest)
  | [], true, value :: rest => some ([(name, value)], rest)
  | [], false, _ => some ([(name, "")], rest)
  | _, _, _ => none

def readShort (specs : List OptionSpec) : List Char → List String → Option OptionsRead
  | [], rest => some ([], rest)
  | letter :: letters, rest => do
    let spec ← specs.find? fun spec => spec.short = some letter
    if spec.takesValue then
      match letters, rest with
      | [], value :: rest => some ([(spec.long, value)], rest)
      | [], [] => none
      | _, _ => some ([(spec.long, String.ofList letters)], rest)
    else
      let (more, rest) ← readShort specs letters rest
      some ((spec.long, "") :: more, rest)

def readOption (specs : List OptionSpec) (word : String) (rest : List String) :
    Option OptionsRead :=
  match word.toList with
  | '-' :: '-' :: _ => readLong specs word rest
  | '-' :: letters => readShort specs letters rest
  | _ => none

def isOption (word : String) : Bool := word.length > 1 && word.toList.head? = some '-'

/-- Reads a command line. Unless options may stand `anywhere`, the first word that is none ends
them. -/
def readWords (specs : List OptionSpec) (anywhere : Bool) :
    Nat → List String → Option Words
  | 0, _ => none
  | _ + 1, [] => some {}
  | fuel + 1, word :: rest =>
    if word = "--" then some { positionals := rest }
    else if isOption word then do
      let (options, rest) ← readOption specs word rest
      let words ← readWords specs anywhere fuel rest
      some (options.foldr (fun (name, value) words => words.withOption name value) words)
    else if anywhere then (readWords specs anywhere fuel rest).map (·.withPositional word)
    else some { positionals := word :: rest }

def wordsOf (specs : List OptionSpec) (anywhere : Bool) (line : List String) : Option Words :=
  readWords specs anywhere (line.length + 1) line

end CodeAtlas.Command
