import CodeAtlas.Distinct
import CodeAtlas.Files.Path
import CodeAtlas.Graph.Store
import CodeAtlas.Text.Utf8

/-! A tree of files. Directories exist by what is in them, or by themselves when they are empty. -/

namespace CodeAtlas.Files

inductive Content where
  | bytes (data : List UInt8)
  /-- A file that holds a graph. -/
  | database (graph : Graph)
  | directory
  deriving Inhabited

structure Tree where
  entries : List (Path × Content) := []
  deriving Inhabited

namespace Tree

def resolveUp (passed : List String) : List String → List String
  | [] => passed.reverse
  | ".." :: rest =>
    match passed with
    | piece :: before => if piece = ".." then resolveUp (".." :: passed) rest
      else resolveUp before rest
    | [] => resolveUp [".."] rest
  | piece :: rest => resolveUp (piece :: passed) rest

def known (path : Path) : Path := { path with pieces := resolveUp [] path.pieces }

def find? (tree : Tree) (path : Path) : Option Content :=
  let path := known path
  match tree.entries.lookup path with
  | some content => some content
  | none =>
    let isInside (inner : Path) : Bool :=
      inner.root = path.root && path.pieces.isPrefixOf inner.pieces
    if (path.root = "" && path.pieces.isEmpty) || tree.entries.any fun (inner, _) => isInside inner
    then some .directory
    else none

def isDirectory (tree : Tree) (path : Path) : Bool :=
  match tree.find? path with
  | some .directory => true
  | _ => false

def isFile (tree : Tree) (path : Path) : Bool := (tree.find? path).isSome && !tree.isDirectory path

def write (tree : Tree) (path : Path) (content : Content) : Tree :=
  let path := known path
  { entries := (tree.entries.filter fun (old, _) => old ≠ path) ++ [(path, content)] }

/-- The bytes of the file at a path; a file that holds a graph shows none. -/
def bytesAt (tree : Tree) (path : Path) : Except Error (List UInt8) :=
  match tree.find? path with
  | some (.bytes data) => .ok data
  | some (.database _) => .ok []
  | _ => .error .isDirectory

def textAt (tree : Tree) (path : Path) : Except Error (List Char) := do
  match Text.decode? (← tree.bytesAt path) with
  | some text => .ok (Text.normalLineEnds text)
  | none => .error .undecodable

/-- The source text of the file at a path: what is no UTF-8 is replaced, and all line ends are line
feeds. -/
def sourceAt (tree : Tree) (path : Path) : Except Error String := do
  let bytes ← tree.bytesAt path
  return String.ofList (Text.normalLineEnds (Text.decodeReplacing bytes))

def below (tree : Tree) (path : Path) : List Path :=
  let base := known path
  let inner := (tree.entries.map (·.1)).filter fun entry =>
    entry.root = base.root && base.pieces.isPrefixOf entry.pieces
      && base.pieces.length < entry.pieces.length
  let paths := inner.flatMap fun entry =>
    let rest := entry.pieces.drop base.pieces.length
    (List.range rest.length).map fun n => rest.take (n + 1)
  (distinct paths).map fun rest => { path with pieces := path.pieces ++ rest }

def piecesLe : List String → List String → Bool
  | [], _ => true
  | _ :: _, [] => false
  | a :: as, b :: bs => if a = b then piecesLe as bs else decide (a ≤ b)

end Tree

end CodeAtlas.Files
