import CodeAtlas.Text.Classes

/-! Runs of characters and the pieces of a text. -/

namespace CodeAtlas.Text

/-- The maximal non-empty runs of characters that satisfy `p`; `run` is the one begun, reversed. -/
def runsAfter (p : Char → Bool) (run : List Char) : List Char → List (List Char)
  | [] => if run.isEmpty then [] else [run.reverse]
  | c :: rest =>
    if p c then runsAfter p (c :: run) rest
    else if run.isEmpty then runsAfter p [] rest
    else run.reverse :: runsAfter p [] rest

def runs (p : Char → Bool) (text : List Char) : List (List Char) := runsAfter p [] text

def words (text : List Char) : List (List Char) := runs isWord text

def after? : List Char → List Char → Option (List Char)
  | [], text => some text
  | _ :: _, [] => none
  | s :: start, c :: text => if s = c then after? start text else none

def afterWord? (word : String) (text : List Char) : Option (List Char) := after? word.toList text

/-- The pieces of a text between separators; a text without one is a single piece. -/
def splitAt (separator : Char) : List Char → List (List Char)
  | [] => [[]]
  | c :: rest =>
    if c = separator then [] :: splitAt separator rest
    else match splitAt separator rest with
      | piece :: others => (c :: piece) :: others
      | [] => [[c]]

def contains (part : List Char) : List Char → Bool
  | [] => part.isEmpty
  | c :: rest => part.isPrefixOf (c :: rest) || contains part rest

def containsString (part text : String) : Bool := contains part.toList text.toList

def startsWith (start text : String) : Bool := start.toList.isPrefixOf text.toList

def stripEnds (these : Char → Bool) (text : List Char) : List Char :=
  ((text.dropWhile these).reverse.dropWhile these).reverse

end CodeAtlas.Text
