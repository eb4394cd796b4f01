import CodeAtlas.Command.Program
import CodeAtlas.Proofs.Files.Sources
import CodeAtlas.Proofs.Graph.Writes

/-! What a command does to the files it sees. Only the graph is ever written, once in a command:
right after the work on it, whether the work has failed or not. Whatever is printed leaves the files
alone. -/
namespace CodeAtlas.Command

open CodeAtlas.Files
open CodeAtlas.Graph (Access Conditions Store stateful_bind stateful_bind_apply)

variable {α β : Type} {console middle after : Console} {settings : Settings}

theorem action_bind {work : Action α} {next : α → Action β} {value : α}
    (done : work console = (.ok value, middle)) : (work >>= next) console = next value middle := by
  rw [stateful_bind_apply, done]

theorem get_apply (console : Console) : (get : Action Console) console = (.ok console, console) :=
  rfl

/-! Actions that leave the files as they are. -/

def KeepsHost (work : Action α) : Prop := ∀ console, (work console).2.host = console.host

theorem keeps_host_pure (value : α) : KeepsHost (pure value : Action α) := fun _ => rfl

theorem keeps_host_throw (stop : Stop) : KeepsHost (throw stop : Action α) := fun _ => rfl

theorem keeps_host_exit (code : Nat) : KeepsHost (exit code : Action α) := keeps_host_throw _

theorem KeepsHost.bind {work : Action α} {next : α → Action β} (first : KeepsHost work)
    (rest : ∀ value, KeepsHost (next value)) : KeepsHost (work >>= next) := by
  intro console
  have kept := first console
  rw [stateful_bind_apply]
  rcases done : work console with ⟨_ | value, middle⟩
  · rw [done] at kept
    exact kept
  · rw [done] at kept
    exact (rest value middle).trans kept

theorem keeps_host_or_crash (given : Except Error α) : KeepsHost (orCrash given) := by
  cases given with
  | error error => exact keeps_host_throw _
  | ok value => exact keeps_host_pure value

theorem keeps_host_lines (more : List (List String)) :
    KeepsHost (modify fun console => { console with lines := console.lines ++ more }) :=
  fun _ => rfl

theorem keeps_host_print (text : String) : KeepsHost (print text) :=
  (keeps_host_or_crash _).bind fun shown => keeps_host_lines [[shown]]

theorem keeps_host_table (title : String) (header : List String) (rows : List (List String)) :
    KeepsHost (printTable title header rows) :=
  (keeps_host_or_crash _).bind fun _ => (keeps_host_or_crash _).bind fun _ => keeps_host_lines _

theorem keeps_host_json (title : String) (value : Json.Written) :
    KeepsHost (printJson title value) :=
  (keeps_host_or_crash _).bind fun _ => keeps_host_lines _

/-! The words of a command line. -/

theorem or_usage_some (value : α) : orUsage (some value) console = (.ok value, console) := rfl

theorem existing_path_found {word : String} (filled : word ≠ "")
    (there : (console.host.tree.find? (Path.ofText word)).isSome) :
    existingPath word console = (.ok (Path.ofText word), console) := by
  have present : (word = "" || (console.host.tree.find? (Path.ofText word)).isNone) = false := by
    simpa [filled] using there
  change (if (word = "" || (console.host.tree.find? (Path.ofText word)).isNone) = true
    then (exit usageError : Action Path) else pure (Path.ofText word)) console = _
  rw [present]
  rfl

theorem existing_path_keeps {word : String} {path : Path}
    (done : existingPath word console = (.ok path, after)) : after = console := by
  change (if (word = "" || (console.host.tree.find? (Path.ofText word)).isNone) = true
    then (exit usageError : Action Path) else pure (Path.ofText word)) console = _ at done
  split_ifs at done
  · cases (Prod.mk.inj done).1
  · exact (Prod.mk.inj done).2.symm

theorem existing_file_keeps {word : String} {path : Path}
    (done : existingFile word console = (.ok path, after)) : after = console := by
  obtain ⟨found, middle, first, done⟩ := stateful_bind done
  rw [existing_path_keeps first, action_bind (get_apply _)] at done
  split_ifs at done
  · cases (Prod.mk.inj done).1
  · exact (Prod.mk.inj done).2.symm

theorem settings_read_keeps {read : Except Error Settings}
    (done : (match read with
      | .ok settings => pure settings
      | .error error =>
        if error.isForeseen then do
          printError error.message
          exit 1
        else throw (.crash error) : Action Settings) console = (.ok settings, after)) :
    after = console := by
  cases read with
  | ok settings => exact (Prod.mk.inj done).2.symm
  | error error =>
    dsimp only at done
    split_ifs at done
    · obtain ⟨_, _, -, done⟩ := stateful_bind done
      cases (Prod.mk.inj done).1
    · cases (Prod.mk.inj done).1

theorem load_settings_keeps {words : Words}
    (done : loadSettings words console = (.ok settings, after)) : after = console := by
  rw [loadSettings] at done
  dsimp only at done
  cases given : words.value? "--config" with
  | none =>
    rw [given] at done
    dsimp only at done
    rw [pure_bind, action_bind (get_apply _)] at done
    exact settings_read_keeps done
  | some word =>
    rw [given] at done
    obtain ⟨path, middle, found, done⟩ := stateful_bind done
    rw [existing_file_keeps found, pure_bind, action_bind (get_apply _)] at done
    exact settings_read_keeps done

/-! Work on the graph. -/

theorem open_graph_keeps (settings : Settings) (console : Console) :
    (openGraph settings console).2 = console := by
  rw [openGraph, action_bind (get_apply _)]
  dsimp only
  cases directoryFault? console.host.tree (Path.ofText settings.databasePath) with
  | some fault => rfl
  | none =>
    dsimp only
    rcases console.host.tree.find? (databaseFile settings) with - | (- | - | -) <;> rfl

def Console.saved (console : Console) (settings : Settings) (graph : Graph) : Console :=
  { console with
    host.tree := console.host.tree.write (databaseFile settings) (.database graph) }

theorem save_graph_apply (settings : Settings) (graph : Graph) (console : Console) :
    saveGraph settings graph console = (.ok (), console.saved settings graph) := rfl

def reportFailure (what : String) (error : Error) : Action α := do
  if error.isForeseen then
    printError (what ++ ": " ++ error.message)
    exit 1
  else throw (.crash error)

theorem report_failure_keeps (what : String) (error : Error) :
    KeepsHost (reportFailure what error : Action α) := by
  unfold reportFailure
  split_ifs
  · exact (keeps_host_print _).bind fun _ => keeps_host_exit _
  · exact keeps_host_throw _

theorem report_failure_bind (what : String) (error : Error) (next : α → Action β) :
    (reportFailure what error >>= next) = reportFailure what error := by
  unfold reportFailure
  split_ifs
  · rw [bind_assoc]
    rfl
  · rfl

theorem report_failure_stops (what : String) (error : Error) (console : Console) :
    ∃ stop after, (reportFailure what error : Action α) console = (.error stop, after) ∧
      (stop = .exit 1 ∨ ∃ crash, stop = .crash crash) := by
  unfold reportFailure
  split_ifs
  · rw [printError, print]
    cases shown ("[red]✗[/red] " ++ (what ++ ": " ++ error.message)) with
    | error refused => exact ⟨.crash refused, console, rfl, .inr ⟨refused, rfl⟩⟩
    | ok text => exact ⟨.exit 1, _, rfl, .inl rfl⟩
  · exact ⟨.crash error, console, rfl, .inr ⟨error, rfl⟩⟩

/-- The graph is written back whatever has become of the work on it, and what follows sees it. -/
theorem on_graph_bind {graph : Graph} (what : String) (work : Conditions → Access α)
    (next : α → Action β) (opened : openGraph settings console = (.ok (.ok graph), console)) :
    (onGraph settings what work >>= next) console =
      match work console.here ⟨graph, true⟩ with
      | (.ok value, store) => next value (console.saved settings store.graph)
      | (.error error, store) => reportFailure what error (console.saved settings store.graph) := by
  rw [onGraph]
  dsimp only
  rw [bind_assoc, action_bind opened, bind_assoc, action_bind (get_apply _)]
  rcases work console.here ⟨graph, true⟩ with ⟨error | value, store⟩
  · dsimp only
    rw [bind_assoc, action_bind (save_graph_apply _ _ _)]
    exact congrFun (report_failure_bind what error next) _
  · dsimp only
    rw [bind_assoc, action_bind (save_graph_apply _ _ _)]
    rfl

end CodeAtlas.Command
