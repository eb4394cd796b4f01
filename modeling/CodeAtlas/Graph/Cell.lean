import CodeAtlas.Graph.Schema
import CodeAtlas.Error
import CodeAtlas.Json.Plain
import CodeAtlas.Json.Reader

/-! Attribute values as they are stored: text, or a truth value in a flag column. A list of texts is
stored as its compact JSON. -/

namespace CodeAtlas.Graph

inductive Cell where
  | text (value : String)
  | flag (value : Bool)
  deriving DecidableEq, Repr, Inhabited

abbrev Attributes := List (String × Cell)

def encodeList (values : List String) : String := (Json.texts values).compact

/-- The value behind a stored list; nothing stored, or an empty text, is the empty list. -/
def decodeList (stored : Option String) : Except Error Json :=
  match stored with
  | none => .ok (.list [])
  | some text =>
    if text = "" then .ok (.list [])
    else match Json.parseStrict? text with
      | some value => .ok value
      | none => .error .malformedList

namespace Cell

def ofTexts (values : List String) : Cell := .text (encodeList values)

def missing (label : Label) (column : String) : Cell :=
  if label.isFlag column then .flag false else .text ""

/-- The stored form of a value: its truth in a flag column; otherwise compact JSON for a list, the
empty text for null and plain text for the rest. -/
def ofJson (isTooDeep : Json → Bool) (label : Label) (column : String) (value : Json) :
    Except Error Cell :=
  if label.isFlag column then .ok (.flag value.isGiven)
  else match value with
    | .list items =>
      if (Json.list items).isCompactable then .ok (.text (Json.list items).compact)
      else .error .wrongType
    | .null => .ok (.text "")
    | other => return .text (← other.printed isTooDeep)

def text? : Cell → Option String
  | text value => some value
  | flag _ => none

end Cell

def Label.attributesOf (label : Label) (isTooDeep : Json → Bool) (fields : List (String × Json)) :
    Except Error Attributes :=
  (label.attributeColumns.filterMap fun column =>
    (fields.lookup column).map fun value => (column, value)).mapM fun (column, value) =>
      return (column, ← Cell.ofJson isTooDeep label column value)

end CodeAtlas.Graph
