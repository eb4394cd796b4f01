import CodeAtlas.Files.Path
import CodeAtlas.Source.Parse
import CodeAtlas.Source.Visit

/-! File extensions, and what they say about language and dialect. -/

namespace CodeAtlas.Source

open CodeAtlas.Text

/-- An extension in lower case with its dot, from an extension or a file name. Anything with a
slash, or with a dot after the leading ones, is a file name; nothing at all stands for `.ts`. -/
def normalizeExtension (extension : String) : String :=
  let chars := extension.toList
  if chars.isEmpty then ".ts"
  else
    let isFileName := chars.contains '/' || (chars.dropWhile (· == '.')).contains '.'
    let suffix := (Files.Path.ofText extension).suffix.toList
    let chars :=
      if isFileName then (if suffix.isEmpty then ".ts".toList else suffix) else chars
    let chars := if chars.head? = some '.' then chars else '.' :: chars
    String.ofList (lower chars)

def languageOf (extension : String) : String :=
  if [".js", ".jsx", ".mjs", ".cjs"].contains (normalizeExtension extension) then "javascript"
  else "typescript"

def grammarOf (extension : String) : String :=
  let normalized := normalizeExtension extension
  if [".js", ".jsx", ".mjs", ".cjs"].contains normalized then "javascript"
  else if normalized = ".tsx" then "tsx"
  else "typescript"

def dialectOf (grammar : String) : Dialect :=
  if grammar = "javascript" then ⟨false, true⟩
  else if grammar = "tsx" then ⟨true, true⟩
  else ⟨true, false⟩

/-- The elements of a source text; the extension chooses the dialect. A blank text has none. -/
def parseElements (source extension : String) : Elements :=
  if source.toList.all isBlank then .empty
  else elementsOf (parse (dialectOf (grammarOf extension)) source)

end CodeAtlas.Source
