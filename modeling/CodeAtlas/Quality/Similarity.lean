import CodeAtlas.Distinct
import CodeAtlas.Decimal.Shortest
import CodeAtlas.Text.Words

/-! How alike two bodies are: the share of their common words among all their words. -/

namespace CodeAtlas.Quality

open CodeAtlas.Text

/-- The words of a body that count: in lower case and longer than two characters, each once. -/
def bodyTokens (body : String) : List String :=
  distinct (((words (lower body.toList)).filter fun word => word.length > 2).map String.ofList)

def common (a b : List String) : List String := a.filter (b.contains ·)

/-- A likeness as a fraction `shared / total`, the total never smaller. -/
structure Likeness where
  shared : Nat
  total : Nat
  deriving DecidableEq, Repr

namespace Likeness

/-- The likeness of two sets of words; it is zero when one of them is empty. -/
def ofTokens (a b : List String) : Likeness :=
  let shared := (common a b).length
  if a.isEmpty || b.isEmpty then ⟨0, 1⟩ else ⟨shared, a.length + b.length - shared⟩

def ofBodies (first second : String) : Likeness := ofTokens (bodyTokens first) (bodyTokens second)

def atLeast (a b : Likeness) : Bool := b.shared * a.total ≤ a.shared * b.total

def isDuplicate (a : Likeness) : Bool := 7 * a.total < 10 * a.shared

def render (a : Likeness) : String := Decimal.sixPlaces a.shared a.total

end Likeness

end CodeAtlas.Quality
