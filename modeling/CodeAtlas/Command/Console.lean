import CodeAtlas.Command.Markup
import CodeAtlas.Json.Printer
import CodeAtlas.Settings.Load

/-! What a command sees and does: it prints lines, reads answers, and works on files. A line is a
list of cells; all but the rows of tables have one. -/

namespace CodeAtlas.Command

open CodeAtlas.Files

structure Console where
  host : Host
  here : Graph.Conditions := { now := 0 }
  input : List String := []
  lines : List (List String) := []

inductive Stop where
  | exit (code : Nat)
  /-- A question was asked and there was no further answer. -/
  | unanswered
  | crash (error : Error)

abbrev Action := ExceptT Stop (StateM Console)

def exit {α : Type} (code : Nat) : Action α := throw (.exit code)

def orCrash {α : Type} : Except Error α → Action α
  | .ok value => pure value
  | .error error => throw (.crash error)

def printPlain (text : String) : Action Unit :=
  modify fun console => { console with lines := console.lines ++ [[text]] }

def print (text : String) : Action Unit := do printPlain (← orCrash (shown text))

def printSuccess (message : String) : Action Unit := print ("[green]✓[/green] " ++ message)

def printError (message : String) : Action Unit := print ("[red]✗[/red] " ++ message)

def printWarning (message : String) : Action Unit := print ("[yellow]⚠[/yellow] " ++ message)

def printInfo (message : String) : Action Unit := print ("[blue]ℹ[/blue] " ++ message)

def printTable (title : String) (header : List String) (rows : List (List String)) :
    Action Unit := do
  let title ← orCrash (shown title)
  let rows ← orCrash (rows.mapM fun row => row.mapM shown)
  modify fun console => { console with lines := console.lines ++ [title] :: header :: rows }

def printJson (title : String) (value : Json.Written) : Action Unit := do
  let title ← orCrash (shown title)
  let lines := (Text.splitAt '\n' value.pretty.toList).map fun line => [String.ofList line]
  modify fun console => { console with lines := console.lines ++ [title] :: lines }

def printCounts (title : String) (counts : List (String × Nat)) : Action Unit :=
  printTable title ["Type", "Count"] (counts.map fun (name, count) => [name, toString count])

def answerOf? (answer : String) : Option Bool :=
  let word := Text.lowerString (String.ofList (Text.stripEnds Text.isBlank answer.toList))
  if word = "y" || word = "yes" then some true
  else if word = "n" || word = "no" || word = "" then some false
  else none

def confirmWith (question : String) : List String → Action Bool
  | [] => do
    printPlain question
    throw .unanswered
  | answer :: rest => do
    printPlain (question ++ " " ++ answer)
    modify fun console => { console with input := rest }
    match answerOf? answer with
    | some decision => return decision
    | none =>
      printPlain "Error: invalid input"
      confirmWith question rest

def confirm (question : String) : Action Unit := do
  let confirmed ← confirmWith (question ++ " [y/N]:") (← get).input
  unless confirmed do exit 1

def databaseFile (settings : Settings) : Path :=
  (Path.ofText settings.databasePath).child "code_graph"

/-- Why the directory of the graph cannot be made, if it cannot: files stand in its place. -/
def directoryFault? (tree : Tree) (path : Path) : Option Error :=
  if tree.isFile path then some .nameTaken
  else if (List.range path.pieces.length).any fun n =>
      tree.isFile { path with pieces := path.pieces.take n } then some .notDirectory
  else none

def openGraph (settings : Settings) : Action (Except Error Graph) := do
  let tree := (← get).host.tree
  if let some fault := directoryFault? tree (Path.ofText settings.databasePath) then
    throw (.crash fault)
  match tree.find? (databaseFile settings) with
  | none => return .ok .empty
  | some (.database graph) => return .ok graph
  | some _ => return .error (.storeUnavailable (databaseFile settings).text)

def saveGraph (settings : Settings) (graph : Graph) : Action Unit :=
  modify fun console => { console with
    host.tree := console.host.tree.write (databaseFile settings) (.database graph) }

/-- Does work on the graph. A foreseen error is reported after `what` and ends the command. -/
def onGraph {α : Type} (settings : Settings) (what : String)
    (work : Graph.Conditions → Graph.Access α) : Action α := do
  let report (error : Error) : Action α := do
    if error.isForeseen then
      printError (what ++ ": " ++ error.message)
      exit 1
    else throw (.crash error)
  match ← openGraph settings with
  | .error error => report error
  | .ok graph =>
    let (result, store) := work (← get).here { graph := graph }
    saveGraph settings store.graph
    match result with
    | .ok value => return value
    | .error error => report error

end CodeAtlas.Command
