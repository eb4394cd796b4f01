import CodeAtlas.Command.Program
import CodeAtlas.Graph.Archive
import Std.Time.DateTime.Timestamp

/-! The program. It shows a command the files that its line can mean, prints what the command
prints, and keeps the graph for the next command. -/

namespace CodeAtlas

open CodeAtlas.Files

/-- Adds a file or a directory of the machine to a tree; of a directory everything inside that can
be source text. Nothing is added where nothing is. -/
partial def gather (tree : Tree) (path : Path) : IO Tree := do
  let .ok here ← (IO.FS.realPath path.text).toBaseIO | return tree
  if ← here.isDir then
    let mut found := tree.write path .directory
    for entry in ← here.readDir do
      let inner := path.child entry.fileName
      let isSource := Command.sourceExtensions.contains inner.suffix
      if isSource || (entry.fileName ≠ "node_modules" && (← entry.path.isDir)) then
        found ← gather found inner
    return found
  else return tree.write path (.bytes (← IO.FS.readBinFile here).data.toList)

def mentioned (line : List String) : List Path :=
  line.flatMap fun word =>
    let value := String.ofList ((word.toList.dropWhile (· != '=')).drop 1)
    ([word, value].filter (· ≠ "")).map Path.ofText

def settingsFiles : List Path := (Settings.defaultFile :: Settings.environmentFiles).map Path.ofText

/-- The home directories in the list of users, a line for each with its name first. -/
def homesOf (users : List Char) : List (String × String) :=
  (Text.splitAt '\n' users).filterMap fun line =>
    match (Text.splitAt ':' line).map String.ofList with
    | [name, _, _, _, _, home, _] => some (name, home)
    | _ => none

def surroundings (line : List String) : IO Host := do
  let names := "HOME" :: Settings.sources.map (·.2)
  let environment ← names.filterMapM fun name => return (← IO.getEnv name).map (name, ·)
  let tree ← (settingsFiles ++ mentioned line).foldlM gather {}
  let users ← gather {} (Path.ofText "/etc/passwd")
  let homes := homesOf ((users.textAt (Path.ofText "/etc/passwd")).toOption.getD [])
  return { directory := (← IO.FS.realPath ".").toString, tree, environment
           home := (environment.lookup "HOME").getD "/", homes := fun user => homes.lookup user }

def withGraph (host : Host) (file : Path) : IO Host := do
  let tree ← gather host.tree file
  let graph := (tree.textAt file).toOption.bind fun text =>
    Graph.ofArchive? (String.ofList text)
  return match graph with
    | some graph => { host with tree := tree.write file (.database graph) }
    | none => { host with tree }

def keep (graph : Graph) (file : Path) : IO Unit := do
  IO.FS.createDirAll { file with pieces := file.pieces.dropLast }.text
  IO.FS.writeFile file.text graph.archive

/-- Runs a command line and prints the lines after the first `shown`. At a question without an
answer one is read, and the command runs again with it: until a question is answered nothing has
changed. -/
partial def converse (line : List String) (console : Command.Console) (shown : Nat) :
    IO Command.Outcome := do
  let outcome := Command.execute line console
  for cells in outcome.lines.drop shown do IO.println (String.intercalate " │ " cells)
  if outcome.isUnanswered then
    let answer ← (← IO.getStdin).getLine
    if answer.isEmpty then return outcome
    let answer := (answer.dropEndWhile fun c => c = '\n' || c = '\r').toString
    converse line { console with input := console.input ++ [answer] } outcome.lines.length
  else return outcome

def runLine (line : List String) : IO UInt32 := do
  let host ← surroundings line
  let file := Command.databaseOf? line host
  let host ← match file with
    | some file => withGraph host file
    | none => pure host
  let now := (← Std.Time.Timestamp.now).toMillisecondsSinceUnixEpoch
  let outcome ← converse line { host, here := { now := now.val } } 0
  if let some error := outcome.crash then IO.eprintln s!"error: {error.message}"
  if let some file := file then
    if let some (.database graph) := outcome.host.tree.find? file then keep graph file
  return outcome.exitCode.toUInt32

end CodeAtlas

def main (line : List String) : IO UInt32 := CodeAtlas.runLine line
