import CodeAtlas.Graph.Store
import CodeAtlas.Source.Elements

/-! The writes that a file calls for: one node and one edge from the file for every element. -/

namespace CodeAtlas.Indexing

open CodeAtlas.Graph
open CodeAtlas.Source (Elements)

structure PlannedWrite where
  identity : Identity
  edge : EdgeType
  attributes : Attributes := []
  properties : Properties := []
  deriving Repr

def PlannedWrite.name (write : PlannedWrite) : String := write.identity.key.headD ""

/-- The writes of a file's elements, kind by kind, with repetitions. -/
def plan (elements : Elements) (language context : String) : List PlannedWrite :=
  let ofLanguage (label : Label) (key : List String) : Identity :=
    ⟨label, key ++ [language], context⟩
  elements.functions.map (fun function =>
      { identity := ofLanguage .function [function.name], edge := .contains
        attributes := [("body", .text function.body)] })
    ++ elements.classes.map (fun classDef =>
      { identity := ofLanguage .classDef [classDef.name], edge := .contains
        attributes := [("body", .text classDef.body)] })
    ++ elements.components.map (fun component =>
      { identity := ofLanguage .component [component.name], edge := .contains
        attributes :=
          [("component_type", .text component.componentType),
            ("props", .ofTexts component.props), ("hooks", .ofTexts component.hooks),
            ("body", .text component.body),
            ("is_default_export", .flag component.isDefaultExport)] })
    ++ elements.hooks.map (fun hook =>
      { identity := ofLanguage .hook [hook.name, hook.hookType], edge := .uses
        attributes :=
          [("dependencies", .ofTexts hook.dependencies), ("body", .text hook.body)] })
    ++ elements.patterns.map (fun pattern =>
      { identity := ofLanguage .frameworkPattern [pattern.name, pattern.patternType]
        edge := .implements
        attributes := [("exports", .ofTexts pattern.exports), ("body", .text pattern.body)] })
    ++ elements.styled.map (fun styled =>
      { identity := ofLanguage .styledElement [styled.name, styled.elementType], edge := .styles
        attributes := [("styles", .text styled.styles), ("body", .text styled.body)] })
    ++ elements.imports.map (fun statement =>
      { identity := ⟨.importedModule, [statement.source], context⟩, edge := .imports
        properties := [("imports", some (encodeList statement.names))] })
    ++ elements.exports.map (fun exported =>
      { identity := ⟨.exportedItem, [exported.name, exported.exportType], context⟩
        edge := .exports })

end CodeAtlas.Indexing
