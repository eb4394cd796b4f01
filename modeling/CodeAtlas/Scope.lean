import CodeAtlas.Context
import CodeAtlas.Graph.Store

/-! Contexts of a project and a branch that may be any values. The separator is looked for in the
project itself: in a text among its characters, in a list among its items, in an object among its
names. Nothing can be looked for in a number or a truth value. -/

namespace CodeAtlas.Scope

open CodeAtlas.Graph (Conditions)

def isSeparator : Json → Bool
  | .text value => value.toList = [BranchContext.separator]
  | _ => false

def hasSeparator : Json → Except Error Bool
  | .text value => .ok (BranchContext.separator ∈ value.toList)
  | .list items => .ok (items.any isSeparator)
  | .object fields => .ok (fields.any fun field => field.1.toList = [BranchContext.separator])
  | _ => .error .wrongType

def effective (name : Json) (default : String) : Json :=
  if name.isGiven then name else .text default

def key (here : Conditions) (project branch : Json) : Except Error String := do
  let project := effective project BranchContext.defaultProject
  let branch := effective branch BranchContext.defaultBranch
  if ← hasSeparator project then
    throw (.reservedSeparator (← here.print .message project) branch.plain)
  return (← here.print .scope project) ++ ":" ++ (← here.print .scope branch)

end CodeAtlas.Scope
