/-! The shape of the graph: labels of nodes with their columns, and types of edges with the labels
they connect. -/

namespace CodeAtlas.Graph

inductive Label where
  | file
  | function
  | classDef
  | component
  | hook
  | frameworkPattern
  | styledElement
  | importedModule
  | exportedItem
  | library
  | libraryFunction
  | libraryClass
  | libraryConstant
  | libraryHook
  | libraryType
  | interface
  deriving DecidableEq, Repr, Inhabited

namespace Label

def all : List Label :=
  [.file, .function, .classDef, .component, .hook, .frameworkPattern, .styledElement,
    .importedModule, .exportedItem, .library, .libraryFunction, .libraryClass, .libraryConstant,
    .libraryHook, .libraryType, .interface]

def name : Label → String
  | file => "File"
  | function => "Function"
  | classDef => "Class"
  | component => "ReactComponent"
  | hook => "ReactHook"
  | frameworkPattern => "NextJsPattern"
  | styledElement => "FrontendElement"
  | importedModule => "Module"
  | exportedItem => "ExportedItem"
  | library => "Library"
  | libraryFunction => "LibraryFunction"
  | libraryClass => "LibraryClass"
  | libraryConstant => "LibraryConstant"
  | libraryHook => "LibraryHook"
  | libraryType => "LibraryType"
  | interface => "Interface"

def ofName? (written : String) : Option Label := all.find? fun label => label.name = written

/-- The columns that identify a node among those of its label and context; the first one is the name
under which reports show the node. -/
def keyColumns : Label → List String
  | file => ["path"]
  | function | classDef | component => ["name", "language"]
  | hook => ["name", "hook_type", "language"]
  | frameworkPattern => ["name", "pattern_type", "language"]
  | styledElement => ["name", "element_type", "language"]
  | importedModule | library | interface => ["name"]
  | exportedItem => ["name", "export_type"]
  | libraryFunction | libraryClass | libraryConstant | libraryHook | libraryType =>
    ["name", "library"]

def attributeColumns : Label → List String
  | function | classDef => ["body"]
  | component => ["component_type", "props", "hooks", "body", "is_default_export"]
  | hook => ["dependencies", "body"]
  | frameworkPattern => ["exports", "body"]
  | styledElement => ["styles", "body"]
  | library => ["version", "project_path"]
  | _ => []

def isFlag (label : Label) (column : String) : Bool :=
  label = component && column = "is_default_export"

end Label

inductive EdgeType where
  | contains
  | uses
  | implements
  | styles
  | imports
  | exports
  | calls
  | instantiates
  | inherits
  | provides
  deriving DecidableEq, Repr, Inhabited

namespace EdgeType

def all : List EdgeType :=
  [.contains, .uses, .implements, .styles, .imports, .exports, .calls, .instantiates, .inherits,
    .provides]

def name : EdgeType → String
  | contains => "CONTAINS"
  | uses => "USES"
  | implements => "IMPLEMENTS"
  | styles => "STYLES"
  | imports => "IMPORTS"
  | exports => "EXPORTS"
  | calls => "CALLS"
  | instantiates => "INSTANTIATES"
  | inherits => "EXTENDS"
  | provides => "PROVIDES"

def ofName? (written : String) : Option EdgeType := all.find? fun type => type.name = written

def endpoints : EdgeType → List (Label × Label)
  | contains => [(.file, .function), (.file, .classDef), (.file, .component)]
  | uses => [(.file, .hook)]
  | implements => [(.file, .frameworkPattern), (.classDef, .interface)]
  | styles => [(.file, .styledElement)]
  | imports => [(.file, .importedModule)]
  | exports => [(.file, .exportedItem)]
  | calls => [(.function, .function)]
  | instantiates => [(.function, .classDef)]
  | inherits => [(.classDef, .classDef)]
  | provides =>
    [(.library, .libraryFunction), (.library, .libraryClass), (.library, .libraryConstant),
      (.library, .libraryHook), (.library, .libraryType)]

def properties : EdgeType → List String
  | imports => ["imports"]
  | _ => []

end EdgeType

end CodeAtlas.Graph
