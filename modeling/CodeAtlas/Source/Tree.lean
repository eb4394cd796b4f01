/-! Syntax trees of source text. A node has a kind, the role it plays in its parent, the text it
covers and its children in source order. Punctuation and most keywords have no node; constructs that
nothing asks about are phrases. -/

namespace CodeAtlas.Source

inductive Kind where
  | program
  | comment
  | importStatement | importClause | namedImports | importSpecifier | namespaceImport
  | exportStatement | exportClause | exportSpecifier | defaultKeyword
  | functionDeclaration | methodDefinition | variableDeclarator
  | classDeclaration | classHeritage
  | callExpression | arguments | memberExpression
  | identifier | string | templateString | array
  | arrowFunction | functionExpression
  | jsx
  | parameters | parameter
  | objectPattern | shorthandPattern | pairPattern | defaultedPattern
  | phrase
  deriving DecidableEq, Repr, Inhabited

/-- The part that a node plays in its parent. -/
inductive Role where
  | none
  | name | value | body | parameters | source | alias | declaration
  | function | arguments | property | key | pattern
  deriving DecidableEq, Repr, Inhabited

inductive Tree where
  | node (kind : Kind) (role : Role) (text : String) (children : List Tree)
  deriving Inhabited

namespace Tree

def kind : Tree → Kind
  | node kind _ _ _ => kind

def role : Tree → Role
  | node _ role _ _ => role

def text : Tree → String
  | node _ _ text _ => text

def children : Tree → List Tree
  | node _ _ _ children => children

def withRole (role : Role) : Tree → Tree
  | node kind _ text children => node kind role text children

def child? (tree : Tree) (role : Role) : Option Tree :=
  tree.children.find? fun child => child.role = role

def firstOf? (tree : Tree) (kind : Kind) : Option Tree :=
  tree.children.find? fun child => child.kind = kind

mutual

def has (kind : Kind) : Tree → Bool
  | node known _ _ children => known = kind || anyHas kind children

def anyHas (kind : Kind) : List Tree → Bool
  | [] => false
  | tree :: rest => tree.has kind || anyHas kind rest

end

end Tree

end CodeAtlas.Source
