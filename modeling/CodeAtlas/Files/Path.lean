import CodeAtlas.Text.Words

/-! Paths as text: a root and pieces between slashes. Empty pieces and `.` do not count; `..`
does. -/

namespace CodeAtlas.Files

open CodeAtlas.Text

/-- A path. Its root is empty for a relative path, else one slash or exactly two. -/
structure Path where
  root : String := ""
  pieces : List String := []
  deriving DecidableEq, Repr, Inhabited

namespace Path

def piecesOf (text : List Char) : List (List Char) :=
  (splitAt '/' text).filter fun piece => !piece.isEmpty && piece != ['.']

def rootOf (text : List Char) : String :=
  match text with
  | '/' :: '/' :: '/' :: _ => "/"
  | '/' :: '/' :: _ => "//"
  | '/' :: _ => "/"
  | _ => ""

def ofText (text : String) : Path :=
  ⟨rootOf text.toList, (piecesOf text.toList).map String.ofList⟩

def text (path : Path) : String :=
  if path.root = "" && path.pieces.isEmpty then "."
  else path.root ++ String.intercalate "/" path.pieces

def child (path : Path) (name : String) : Path := { path with pieces := path.pieces ++ [name] }

def append (path inside : Path) : Path :=
  if inside.root = "" then { path with pieces := path.pieces ++ inside.pieces } else inside

/-- The suffix of a file name from its last dot, none when that dot is the first or the last
character. -/
def suffixOf (name : List Char) : List Char :=
  let after := (name.reverse.takeWhile (· != '.')).reverse
  let before := name.length - after.length
  if before ≤ 1 || after.isEmpty then [] else '.' :: after

def suffix (path : Path) : String := String.ofList (suffixOf (path.pieces.getLastD "").toList)

def homeText (home : String) : String :=
  let trimmed := String.ofList ((home.toList.reverse.dropWhile (· == '/')).reverse)
  if trimmed = "" then "/" else trimmed

/-- Replaces a leading `~` by the home directory, and one with a name after it by the home directory
of that user. No home directory begins with `~` itself. -/
def expandHome (home : String) (homes : String → Option String) (path : Path) : Option Path :=
  match path.pieces with
  | first :: rest =>
    if path.root = "" && startsWith "~" first then
      let start := if first = "~" then some home else homes (String.ofList (first.toList.drop 1))
      match start.map homeText with
      | some start => if startsWith "~" start then none else some ((ofText start).append ⟨"", rest⟩)
      | none => none
    else some path
  | [] => some path

end Path

end CodeAtlas.Files
