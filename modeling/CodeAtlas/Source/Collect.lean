import CodeAtlas.Distinct
import CodeAtlas.Source.Elements
import CodeAtlas.Source.Tree
import CodeAtlas.Text.Words

/-! What the nodes of a syntax tree contribute to its elements: each by its kind, and a few of them
by what encloses them. -/

namespace CodeAtlas.Source

open CodeAtlas.Text

/-- What encloses a node, as far as its contribution depends on it. -/
structure Surroundings where
  /-- The nearest enclosing export statement is a default export. -/
  inDefaultExport : Bool := false
  /-- The name that the parent declares, when the parent is a declarator of a plain name. -/
  declared : Option String := none
  deriving Inhabited

def Surroundings.within (around : Surroundings) (tree : Tree) : Surroundings where
  inDefaultExport :=
    if tree.kind = .exportStatement then (tree.firstOf? .defaultKeyword).isSome
    else around.inDefaultExport
  declared :=
    if tree.kind = .variableDeclarator then
      match tree.child? .name with
      | some name => if name.kind = .identifier then some name.text else none
      | none => none
    else none

def isHookName (name : String) : Bool :=
  match afterWord? "use" name.toList with
  | some (c :: _) => ('A' ≤ c && c ≤ 'Z') || ('0' ≤ c && c ≤ '9') || c == '_'
  | _ => false

def isHookUse (word : List Char) : Bool :=
  match afterWord? "use" word with
  | some (c :: _) => 'A' ≤ c && c ≤ 'Z'
  | _ => false

def hooksUsed (text : String) : List String :=
  distinct (((words text.toList).filter isHookUse).map String.ofList)

/-- The words that follow `this.props.` in a text; `passed` counts characters already taken. -/
def propsUsed (passed : Nat) : List Char → List String
  | [] => []
  | c :: rest =>
    match passed with
    | more + 1 => propsUsed more rest
    | 0 =>
      match afterWord? "this.props." (c :: rest) with
      | none => propsUsed 0 rest
      | some named =>
        match named.takeWhile isWord with
        | [] => propsUsed 0 rest
        | word => String.ofList word :: propsUsed (10 + word.length) rest

def hookType (name : String) : String :=
  match name with
  | "useState" => "state"
  | "useEffect" => "effect"
  | "useLayoutEffect" => "effect"
  | "useCallback" => "callback"
  | "useMemo" => "memo"
  | "useRef" => "ref"
  | "useContext" => "context"
  | "useReducer" => "reducer"
  | _ => "custom"

def destructuredProps (function : Tree) : List String :=
  match function.child? .parameters with
  | none => []
  | some list =>
    match list.children with
    | [] => []
    | first :: _ =>
      let target := if first.kind = .parameter then (first.child? .pattern).getD first else first
      if target.kind = .objectPattern then
        target.children.filterMap fun member =>
          match member.kind with
          | .shorthandPattern => some member.text
          | .pairPattern => some (((member.child? .key).map Tree.text).getD "")
          | .defaultedPattern => some (((member.child? .pattern).map Tree.text).getD "")
          | _ => none
      else []

def isCapitalised (name : String) : Bool :=
  match name.toList with
  | c :: _ => isUppercase c
  | [] => false

def rendersMarkup (function : Tree) : Bool :=
  containsString "createElement(" function.text || function.has .jsx

/-- The part that a function plays for the page framework. -/
def frameworkPattern? (name text : String) : Option FrameworkPattern :=
  if name == "handler" || containsString "NextApiRequest" text
      || containsString "NextApiResponse" text then
    some { name, patternType := "api", exports := ["default"], body := text }
  else if ["getServerSideProps", "getStaticProps", "getStaticPaths"].contains name then
    some { name, patternType := "page", exports := [name], body := text }
  else if ["generateMetadata", "generateViewport", "generateStaticParams"].contains name then
    some { name, patternType := "app-router", exports := [name], body := text }
  else if name == "middleware" then
    some { name, patternType := "middleware", exports := [name], body := text }
  else none

def functionElements (around : Surroundings) (node : Tree) (name : Option Tree)
    (function : Tree) : Elements :=
  match name, function.child? .body with
  | some name, some body =>
    let component : List Component :=
      if isCapitalised name.text && rendersMarkup function then
        [{ name := name.text, componentType := "functional", props := destructuredProps function,
           hooks := hooksUsed function.text, body := node.text,
           isDefaultExport := around.inDefaultExport }]
      else []
    { functions := [⟨name.text, body.text⟩], components := component,
      patterns := (frameworkPattern? name.text node.text).toList }
  | _, _ => .empty

def classElements (around : Surroundings) (node : Tree) : Elements :=
  match node.child? .name with
  | none => .empty
  | some name =>
    let isComponent := match node.firstOf? .classHeritage with
      | some heritage => containsString "Component" heritage.text
      | none => false
    let component : List Component :=
      if isComponent then
        [{ name := name.text, componentType := "class",
           props := distinct (propsUsed 0 node.text.toList), body := node.text,
           isDefaultExport := around.inDefaultExport }]
      else []
    { classes := [⟨name.text, node.text⟩], components := component }

/-- The entries of a last argument that is an array, when another argument precedes it. -/
def dependencies (list : Tree) : List String :=
  if list.children.length < 2 then []
  else match list.children.getLast? with
    | some last => if last.kind = .array then last.children.map Tree.text else []
    | none => []

/-- The type of a styled element by its tag, and the name it has when nothing declares one. -/
def styledTag? (tag : String) : Option (String × String) :=
  if startsWith "styled." tag || startsWith "styled(" tag || tag == "createGlobalStyle" then
    some ("styled-component", "StyledComponent")
  else if tag == "css" || tag == "keyframes" || tag == "injectGlobal" then
    some ("emotion", "EmotionStyle")
  else none

def callElements (around : Surroundings) (node : Tree) : Elements :=
  match node.child? .function with
  | none => .empty
  | some function =>
    let list := (node.child? .arguments).getD (.node .arguments .arguments "" [])
    if list.kind = .templateString then
      match styledTag? function.text with
      | none => .empty
      | some (elementType, fallback) =>
        { styled := [{
            name := around.declared.getD fallback, elementType, body := node.text,
            styles := String.ofList (stripEnds (· == '`') list.text.toList) }] }
    else
      let name :=
        if function.kind = .identifier then function.text
        else if function.kind = .memberExpression then
          ((function.child? .property).map Tree.text).getD ""
        else ""
      if isHookName name then
        { hooks := [{ name, hookType := hookType name, dependencies := dependencies list,
                      body := node.text }] }
      else .empty

def boundName (specifier : Tree) : String :=
  match specifier.child? .alias, specifier.child? .name with
  | some other, _ => other.text
  | none, some name => name.text
  | none, none => ""

def importedNames (clause : Tree) : List String :=
  clause.children.flatMap fun child =>
    match child.kind with
    | .identifier => [child.text]
    | .namedImports =>
      (child.children.filter fun spec => spec.kind = .importSpecifier).map boundName
    | .namespaceImport => ((child.firstOf? .identifier).map Tree.text).toList
    | _ => []

def unquoted (text : String) : String :=
  String.ofList (stripEnds (fun c => c == '"' || c == '\'' || c == '`') text.toList)

def importElements (node : Tree) : Elements :=
  match node.child? .source with
  | none => .empty
  | some source =>
    { imports := [{
        source := unquoted source.text
        names := ((node.firstOf? .importClause).map importedNames).getD [] }] }

def exportedName (specifier : Tree) : Export :=
  let exported := boundName specifier
  if exported == "default" then
    ⟨((specifier.child? .name).map Tree.text).getD "", "default"⟩
  else ⟨exported, "named"⟩

/-- The names that a declaration exports: its own, or those of its declarators. -/
def declaredNames (declaration : Tree) : List Export :=
  match declaration.child? .name with
  | some name => [⟨name.text, "named"⟩]
  | none =>
    (declaration.children.filter fun child => child.kind = .variableDeclarator).filterMap
      fun declarator =>
        match declarator.child? .name with
        | some name => if name.kind = .identifier then some ⟨name.text, "named"⟩ else none
        | none => none

def exportElements (node : Tree) : Elements :=
  let declaration := node.child? .declaration
  if (node.firstOf? .defaultKeyword).isSome then
    match declaration <|> node.child? .value with
    | none => .empty
    | some target =>
      if target.kind = .identifier then { exports := [⟨target.text, "default"⟩] }
      else match target.child? .name with
        | some name => { exports := [⟨name.text, "default"⟩] }
        | none => .empty
  else match declaration with
    | some declaration => { exports := declaredNames declaration }
    | none =>
      match node.firstOf? .exportClause with
      | none => .empty
      | some clause =>
        { exports := (clause.children.filter fun spec => spec.kind = .exportSpecifier).map
            exportedName }

def contribution (around : Surroundings) (tree : Tree) : Elements :=
  match tree.kind with
  | .importStatement => importElements tree
  | .exportStatement => exportElements tree
  | .functionDeclaration => functionElements around tree (tree.child? .name) tree
  | .methodDefinition => functionElements around tree (tree.child? .name) tree
  | .variableDeclarator =>
    match tree.child? .value, tree.child? .name with
    | some value, some name =>
      if (value.kind = .arrowFunction || value.kind = .functionExpression)
          && name.kind = .identifier then
        functionElements around tree (some name) value
      else .empty
    | _, _ => .empty
  | .classDeclaration => classElements around tree
  | .callExpression => callElements around tree
  | _ => .empty

end CodeAtlas.Source
