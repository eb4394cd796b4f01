import CodeAtlas.Proofs.Graph.Writes
import CodeAtlas.Proofs.Settings.Lookup
import CodeAtlas.Proofs.Sorted
import Mathlib.Data.String.Basic

/-! How settings are layered. Each of them is decided by itself: by its override, else by its
variable, else by the settings file, else by its default; and a variable is what the environment
has, else what the environment files assign, the first of them before the second. -/
namespace CodeAtlas.Yaml

def isNull : Yaml → Bool
  | null => true
  | _ => false

end CodeAtlas.Yaml

namespace CodeAtlas.Settings

open CodeAtlas.Dotenv (Binding Environment assigned completedBy)
open CodeAtlas.Files (Path)
open CodeAtlas.Graph (except_bind except_ok_bind ok_of_toOption)

variable {layer : Layer} {name : String} {key value : Yaml}

/-! Where values come from. -/

/-- What settings are made of: the settings file, the environment, the assignments of the two
environment files and the overrides. -/
structure Origins where
  fromFile : Layer
  environment : Environment
  first : List Binding
  second : List Binding
  overrides : List (String × Yaml)

/-- The assignments of an environment file, all of which the environment must be able to hold; a
file that is not there has none. -/
def assignmentsAt (here : Host) (environment : Environment) (path : Path) :
    Except Error (List Binding) := do
  if !here.tree.isFile path then return []
  let bindings := Dotenv.resolve environment (← here.tree.textAt path)
  if Dotenv.takes environment bindings then return bindings else throw .impossibleValue

/-- Reads what settings are made of. The second environment file can refer to what the first one
assigns. -/
def originsOf (here : Host) (file environmentDirectory : Option Path)
    (overrides : List (String × Yaml)) : Except Error Origins := do
  let fromFile ← fileLayer here file
  let directory := environmentDirectory.getD {}
  let first ← assignmentsAt here here.environment (directory.child ".env")
  let second ← assignmentsAt here (completedBy here.environment first)
    (directory.child ".env.local")
  return ⟨fromFile, here.environment, first, second, overrides⟩

namespace Origins

/-- The value of a variable: that of the environment, even when it is empty, else what is assigned
to it first. -/
def effective (origins : Origins) (source : String) : Option String :=
  (origins.environment.lookup source).or
    ((assigned origins.first source).or (assigned origins.second source))

def override? (origins : Origins) (name : String) : Option Yaml :=
  valueOf? name (origins.overrides.filter fun given => !given.2.isNull).reverse

/-- The value for a setting that has a variable, if there is any: the override, else the variable if
it is not empty, else what the settings file has. -/
def decides (origins : Origins) (name source : String) : Option Yaml :=
  ((origins.override? name).or
    (((origins.effective source).filter (· ≠ "")).map Yaml.text)).or (valueIn origins.fromFile name)

def home (origins : Origins) (here : Host) : String := (origins.effective "HOME").getD here.home

def completed (origins : Origins) : Environment :=
  completedBy (completedBy origins.environment origins.first) origins.second

def merged (origins : Origins) : Layer :=
  layered (explicitLayer origins.overrides)
    (layered (environmentLayer origins.completed) origins.fromFile)

end Origins

variable {here : Host} {file environmentDirectory : Option Path}
  {overrides : List (String × Yaml)} {origins : Origins} {settings : Settings} {source : String}

theorem assignments_once {environment : Environment} {path : Path} {bindings : List Binding}
    (done : assignmentsAt here environment path = .ok bindings) :
    (bindings.map Prod.fst).Nodup := by
  rw [assignmentsAt] at done
  split at done
  · obtain rfl := Except.ok.inj done
    exact List.nodup_nil
  · cases read : here.tree.textAt path with
    | error error =>
      rw [read] at done
      cases done
    | ok text =>
      rw [read] at done
      rw [except_ok_bind] at done
      dsimp only at done
      split at done
      · obtain rfl := Except.ok.inj done
        exact Dotenv.nodup_names_resolve environment text
      · cases done

theorem completed_by_file (here : Host) (environment : Environment) (path : Path) :
    (do
      if !here.tree.isFile path then return environment
      Dotenv.load environment (← here.tree.textAt path) : Except Error Environment) =
    (do return completedBy environment (← assignmentsAt here environment path)) := by
  rw [assignmentsAt]
  split
  · rfl
  · cases here.tree.textAt path with
    | error error => rfl
    | ok text =>
      rw [except_ok_bind, except_ok_bind, Dotenv.load_eq]
      dsimp only
      split <;> rfl

theorem load_eq (here : Host) (file environmentDirectory : Option Path)
    (overrides : List (String × Yaml)) : load here file environmentDirectory overrides = (do
      let origins ← originsOf here file environmentDirectory overrides
      ofLayer here ((origins.completed.lookup "HOME").getD here.home) origins.merged) := by
  have environment (directory : Path) : completedEnvironment here directory = (do
      let first ← assignmentsAt here here.environment (directory.child ".env")
      let second ← assignmentsAt here (completedBy here.environment first)
        (directory.child ".env.local")
      return completedBy (completedBy here.environment first) second) := by
    simp only [completedEnvironment, environmentFiles, List.foldlM_cons, List.foldlM_nil,
      completed_by_file, bind_assoc, pure_bind, bind_pure]
  rw [load, environment]
  simp only [originsOf, bind_assoc, pure_bind, Origins.completed, Origins.merged]

/-! What decides a setting. -/

theorem explicit_layer_eq (overrides : List (String × Yaml)) : explicitLayer overrides =
    (overrides.filter fun given => !given.2.isNull).map fun given => (.text given.1, given.2) := by
  rw [explicitLayer, ← List.filterMap_eq_map, List.filterMap_filter]
  refine List.filterMap_congr fun given _ => ?_
  obtain ⟨name, value⟩ := given
  cases value <;> rfl

theorem mem_environment_layer {environment : Environment} {entry : Yaml × Yaml} :
    entry ∈ environmentLayer environment ↔ ∃ pair ∈ sources, ∃ value,
      (environment.lookup pair.2).filter (· ≠ "") = some value ∧
        entry = (.text pair.1, .text value) := by
  rw [environmentLayer, List.mem_filterMap]
  refine exists_congr fun pair => and_congr_right fun _ => ?_
  obtain ⟨name, source⟩ := pair
  dsimp only
  cases environment.lookup source with
  | none => simp
  | some value =>
    by_cases empty : value = ""
    · simp [empty]
    · simp [empty, Option.filter, eq_comm]

theorem value_environment_layer (environment : Environment) (mem : (name, source) ∈ sources) :
    valueIn (environmentLayer environment).reverse name =
      ((environment.lookup source).filter (· ≠ "")).map Yaml.text := by
  have one : ∀ pair ∈ sources, pair.1 = name → pair.2 = source := by
    intro pair inside same
    have once : (sources.map Prod.fst).Nodup := by decide
    exact congrArg Prod.snd (List.inj_on_of_nodup_map once inside mem same)
  cases set : (environment.lookup source).filter (· ≠ "") with
  | none =>
    rw [valueIn, Option.map_none, Option.map_eq_none_iff, List.find?_eq_none]
    intro entry inside named
    obtain ⟨pair, known, value, given, rfl⟩ := mem_environment_layer.mp (List.mem_reverse.mp inside)
    have same : pair.1 = name := Option.some.inj (beq_iff_eq.mp named)
    rw [one pair known same, set] at given
    cases given
  | some value =>
    have given : (Yaml.text name, Yaml.text value) ∈ environmentLayer environment :=
      mem_environment_layer.mpr ⟨_, mem, value, set, rfl⟩
    refine value_alone (List.mem_reverse.mpr given) rfl fun entry inside named => ?_
    obtain ⟨pair, known, other, given, rfl⟩ := mem_environment_layer.mp (List.mem_reverse.mp inside)
    have same : pair.1 = name := Option.some.inj named
    rw [one pair known same, set] at given
    rw [Option.some.inj given]

/-- The assignments of each environment file name a variable once, as they do when they are read. -/
def Origins.Assigned (origins : Origins) : Prop :=
  (origins.first.map Prod.fst).Nodup ∧ (origins.second.map Prod.fst).Nodup

theorem lookup_effective (assigned : origins.Assigned) (source : String) :
    origins.completed.lookup source = origins.effective source := by
  rw [Origins.completed, Dotenv.lookup_completed assigned.2, Dotenv.lookup_completed assigned.1,
    Option.or_assoc]
  rfl

theorem value_decided (assigned : origins.Assigned) (mem : (name, source) ∈ sources) :
    valueIn origins.merged name = origins.decides name source := by
  rw [Origins.merged, value_layered, value_layered, explicit_layer_eq, ← List.map_reverse,
    value_named, value_environment_layer _ mem, lookup_effective assigned, ← Option.or_assoc]
  rfl

theorem origins_assigned
    (done : originsOf here file environmentDirectory overrides = .ok origins) :
    origins.Assigned := by
  obtain ⟨fromFile, -, done⟩ := except_bind done
  obtain ⟨first, assigns, done⟩ := except_bind done
  obtain ⟨second, assigns', done⟩ := except_bind done
  obtain rfl := Except.ok.inj done
  exact ⟨assignments_once assigns, assignments_once assigns'⟩

theorem origins_overrides
    (done : originsOf here file environmentDirectory overrides = .ok origins) :
    origins.overrides = overrides := by
  obtain ⟨fromFile, -, done⟩ := except_bind done
  obtain ⟨first, -, done⟩ := except_bind done
  obtain ⟨second, -, done⟩ := except_bind done
  obtain rfl := Except.ok.inj done
  rfl

/-- Each setting is what decides it, or its default; the level in upper case, and the place of the
graph as a path with the home directory written out. -/
structure Decided (settings : Settings) (here : Host) (origins : Origins) : Prop where
  database_path : ∃ written path,
    (origins.decides "db_path" "MCV_DB_PATH").getD (.text (defaultPlace here.home)) =
      .text written ∧
    (Path.ofText written).expandHome (origins.home here) here.homes = some path ∧
    settings.databasePath = path.text
  default_project : settings.defaultProject =
    ((origins.decides "default_project" "MCV_DEFAULT_PROJECT").getD (.text "default")).toJson
  default_branch : settings.defaultBranch =
    ((origins.decides "default_branch" "MCV_DEFAULT_BRANCH").getD (.text "main")).toJson
  log_level : settings.logLevel = Text.upperString
    ((origins.decides "log_level" "MCV_LOG_LEVEL").getD (.text "WARNING")).toJson.plain

theorem path_ok {home path : String} (done : pathOf here home value = .ok path) :
    ∃ written expanded, value = .text written ∧
      (Path.ofText written).expandHome home here.homes = some expanded ∧
      path = expanded.text := by
  unfold pathOf at done
  split at done
  case h_1 written =>
    split at done
    case h_1 expanded found =>
      obtain rfl := Except.ok.inj done
      exact ⟨written, expanded, rfl, found, rfl⟩
    case h_2 => cases done
  case h_2 => cases done

theorem project_ok {project : Json} (done : projectOf here value = .ok project) :
    project = value.toJson := by
  obtain ⟨refused, -, done⟩ := except_bind done
  cases refused with
  | false => exact (Except.ok.inj done).symm
  | true =>
    obtain ⟨name, -, done⟩ := except_bind done
    cases done

theorem branch_ok {branch : Json} (done : branchOf value = .ok branch) :
    branch = value.toJson := by
  unfold branchOf at done
  split at done
  · exact (Except.ok.inj done).symm
  · cases done

theorem printed_ok {isTooDeep : Yaml → Bool} {text : String}
    (done : value.printed isTooDeep = .ok text) : text = value.toJson.plain := by
  unfold Yaml.printed at done
  split at done
  · exact (Except.ok.inj done).symm
  · split_ifs at done
    exact (Except.ok.inj done).symm

theorem level_ok {level : String} (done : logLevelOf here value = .ok level) :
    level = Text.upperString value.toJson.plain := by
  obtain ⟨text, shown, done⟩ := except_bind done
  rw [← printed_ok shown]
  dsimp only at done
  split at done
  · exact (Except.ok.inj done).symm
  · cases done

theorem of_layer_ok (assigned : origins.Assigned)
    (done : ofLayer here (origins.home here) origins.merged = .ok settings) :
    checkNames origins.merged = .ok () ∧ Decided settings here origins := by
  obtain ⟨⟨⟩, names, done⟩ := except_bind done
  obtain ⟨path, placed, done⟩ := except_bind done
  obtain ⟨level, shouted, done⟩ := except_bind done
  obtain ⟨project, named, done⟩ := except_bind done
  obtain ⟨branch, grown, done⟩ := except_bind done
  obtain rfl := Except.ok.inj done
  have decided (name source : String) (mem : (name, source) ∈ sources) :
      valueIn origins.merged name = origins.decides name source := value_decided assigned mem
  dsimp only at placed shouted named grown
  rw [decided "db_path" "MCV_DB_PATH" (by decide)] at placed
  rw [decided "log_level" "MCV_LOG_LEVEL" (by decide)] at shouted
  rw [decided "default_project" "MCV_DEFAULT_PROJECT" (by decide)] at named
  rw [decided "default_branch" "MCV_DEFAULT_BRANCH" (by decide)] at grown
  refine ⟨names, ?_⟩
  constructor
  case database_path => exact path_ok placed
  case default_project => exact project_ok named
  case default_branch => exact branch_ok grown
  case log_level => exact level_ok shouted

/-! Names that are no settings. -/

def IsSetting (key : Yaml) : Prop := ∃ pair ∈ sources, key.text? = some pair.1

/-- A key of the settings file, or the name of an override that is not null, that is the name of no
setting. -/
def Origins.Outside (origins : Origins) (key : Yaml) : Prop :=
  ¬ IsSetting key ∧ (key ∈ origins.fromFile.map Prod.fst ∨
    ∃ given ∈ origins.overrides, given.2.isNull = false ∧ key = .text given.1)

theorem outside_iff : origins.Outside key ↔
    ¬ IsSetting key ∧ key ∈ origins.merged.map Prod.fst := by
  rw [Origins.Outside, Origins.merged, keys_layered, keys_layered]
  refine and_congr_right fun outside => ?_
  have environment : key ∉ (environmentLayer origins.completed).map Prod.fst := by
    intro mem
    obtain ⟨entry, inside, rfl⟩ := List.mem_map.mp mem
    obtain ⟨pair, known, value, -, rfl⟩ := mem_environment_layer.mp inside
    exact outside ⟨pair, known, rfl⟩
  have explicit : key ∈ (explicitLayer origins.overrides).map Prod.fst ↔
      ∃ given ∈ origins.overrides, given.2.isNull = false ∧ key = .text given.1 := by
    simp only [explicit_layer_eq, List.map_map, List.mem_map, List.mem_filter,
      Function.comp_apply, Bool.not_eq_true', and_assoc, eq_comm (b := key)]
  rw [explicit, or_iff_right environment]
  exact or_comm

theorem names_of_texts (pairs : Layer) (texts : ∀ pair ∈ pairs, pair.1.text?.isSome) :
    ∃ names, pairs.mapM (fun pair => pair.1.text?) = some names ∧
      ∀ name, name ∈ names ↔ Yaml.text name ∈ pairs.map Prod.fst := by
  induction pairs with
  | nil => exact ⟨[], rfl, by simp⟩
  | cons pair pairs ih =>
    obtain ⟨first, text⟩ := Option.isSome_iff_exists.mp (texts pair List.mem_cons_self)
    obtain ⟨names, rest, mem⟩ := ih fun other mem => texts other (List.mem_cons_of_mem _ mem)
    refine ⟨first :: names, by simp [text, rest], fun name => ?_⟩
    rw [List.mem_cons, List.map_cons, List.mem_cons, mem, key_of_text text, Yaml.text.injEq]

theorem no_names_of_other {pairs : Layer} {pair : Yaml × Yaml} (mem : pair ∈ pairs)
    (other : pair.1.text? = none) : pairs.mapM (fun pair => pair.1.text?) = none := by
  induction pairs with
  | nil => cases mem
  | cons first pairs ih =>
    rcases List.mem_cons.mp mem with rfl | mem
    · simp [other]
    · simp [ih mem]

def unknown (layer : Layer) : Layer :=
  layer.filter fun pair => !(sources.any fun setting => pair.1.text? == some setting.1)

theorem mem_unknown : key ∈ (unknown layer).map Prod.fst ↔
    ¬ IsSetting key ∧ key ∈ layer.map Prod.fst := by
  have setting (key : Yaml) :
      (!(sources.any fun setting => key.text? == some setting.1)) = true ↔ ¬ IsSetting key := by
    rw [Bool.not_eq_true', Bool.eq_false_iff, Ne, List.any_eq_true, IsSetting]
    simp
  constructor
  · intro mem
    obtain ⟨pair, kept, rfl⟩ := List.mem_map.mp mem
    obtain ⟨inside, outside⟩ := List.mem_filter.mp kept
    exact ⟨(setting pair.1).mp outside, List.mem_map_of_mem inside⟩
  · rintro ⟨outside, mem⟩
    obtain ⟨pair, inside, rfl⟩ := List.mem_map.mp mem
    exact List.mem_map_of_mem (List.mem_filter.mpr ⟨inside, (setting pair.1).mpr outside⟩)

theorem check_names_eq (layer : Layer) : checkNames layer =
    if (unknown layer).isEmpty then .ok () else
      match (unknown layer).mapM fun pair => pair.1.text? with
      | some names =>
        .error (.unknownSettings ((distinct names).mergeSort fun a b => decide (a ≤ b)))
      | none => .error .wrongType := rfl

theorem check_names_ok (done : checkNames origins.merged = .ok ()) (key : Yaml) :
    ¬ origins.Outside key := by
  rw [check_names_eq] at done
  split at done
  case isTrue none =>
    rw [outside_iff, ← mem_unknown, List.isEmpty_iff.mp none]
    exact List.not_mem_nil
  case isFalse => split at done <;> cases done

/-- What is outside is refused by its names, in order, if all of it is text. -/
theorem check_names_error (outside : origins.Outside key) :
    ((∀ other, origins.Outside other → other.text?.isSome) → ∃ names,
      checkNames origins.merged = .error (.unknownSettings names) ∧
        names.Pairwise (· < ·) ∧ ∀ name, name ∈ names ↔ origins.Outside (.text name)) ∧
    ((∃ other, origins.Outside other ∧ other.text? = none) →
      checkNames origins.merged = .error .wrongType) := by
  have found : ¬ (unknown origins.merged).isEmpty = true := by
    intro none
    rw [outside_iff, ← mem_unknown, List.isEmpty_iff.mp none] at outside
    cases outside
  rw [check_names_eq, if_neg found]
  constructor
  · intro texts
    have all : ∀ pair ∈ unknown origins.merged, pair.1.text?.isSome := by
      intro pair mem
      exact texts pair.1 (outside_iff.mpr (mem_unknown.mp (List.mem_map_of_mem mem)))
    obtain ⟨names, read, mem⟩ := names_of_texts _ all
    rw [read]
    refine ⟨_, rfl, ?_, ?_⟩
    · exact sorted_distinct names
    · intro name
      rw [List.mem_mergeSort, mem_distinct, mem, mem_unknown, outside_iff]
  · rintro ⟨other, beyond, none⟩
    rw [outside_iff, ← mem_unknown] at beyond
    obtain ⟨pair, mem, rfl⟩ := List.mem_map.mp beyond
    rw [no_names_of_other mem none]

/-- Settings are layered one by one: where they are loaded, each is decided by its own override, its
own variable, its own entry in the settings file and its own default, and nothing else is set. A
name that is no setting is refused; but among several, one that is no text spoils the message, and
the refusal is another one. -/
theorem settings_layered (here : Host) (file environmentDirectory : Option Path)
    (overrides : List (String × Yaml)) :
    (∀ settings, load here file environmentDirectory overrides = .ok settings → ∃ origins,
      originsOf here file environmentDirectory overrides = .ok origins ∧
      settings.Decided here origins ∧
      ∀ key, ¬ origins.Outside key) ∧
    ∀ origins, originsOf here file environmentDirectory overrides = .ok origins →
      ∀ key, origins.Outside key →
        ((∀ other, origins.Outside other → other.text?.isSome) → ∃ names,
          load here file environmentDirectory overrides = .error (.unknownSettings names) ∧
            names.Pairwise (· < ·) ∧ ∀ name, name ∈ names ↔ origins.Outside (.text name)) ∧
        ((∃ other, origins.Outside other ∧ other.text? = none) →
          load here file environmentDirectory overrides = .error .wrongType) := by
  constructor
  · intro settings done
    rw [load_eq] at done
    obtain ⟨origins, read, done⟩ := except_bind done
    have assigned := origins_assigned read
    rw [lookup_effective assigned] at done
    obtain ⟨names, decided⟩ := of_layer_ok assigned done
    exact ⟨origins, read, decided, check_names_ok names⟩
  · intro origins read key outside
    have loaded (error : Error) (refused : checkNames origins.merged = .error error) :
        load here file environmentDirectory overrides = .error error := by
      rw [load_eq, read]
      change ofLayer _ _ _ = _
      rw [ofLayer, refused]
      rfl
    obtain ⟨texts, others⟩ := check_names_error outside
    constructor
    · intro all
      obtain ⟨names, refused, increase, mem⟩ := texts all
      exact ⟨names, loaded _ refused, increase, mem⟩
    · intro other
      exact loaded _ (others other)

def placeWith (yaml first second : String) (environment : Environment) : Host where
  directory := "/work"
  home := "/home"
  environment := environment
  tree := { entries := [
    (Path.ofText ".mcp-code-validator.yaml", .bytes yaml.toUTF8.toList),
    (Path.ofText ".env", .bytes first.toUTF8.toList),
    (Path.ofText ".env.local", .bytes second.toUTF8.toList)] }

/-- Every layer says something: the project is emptied by the first environment file, and the level
by the environment itself. -/
def manyLayers : Host :=
  placeWith "default_project: yaml\nlog_level: info" "MCV_DEFAULT_PROJECT=\nMCV_LOG_LEVEL=debug"
    "MCV_DEFAULT_PROJECT=late\nMCV_DEFAULT_BRANCH=next" [("MCV_LOG_LEVEL", "")]

def graphAtHome : List (String × Yaml) := [("db_path", .text "~/graph"), ("unknown", .null)]

theorem many_layers_decide :
    (originsOf manyLayers none none graphAtHome).toOption.map (fun origins =>
      (sources.map fun pair => (origins.decides pair.1 pair.2).bind Yaml.text?,
        origins.effective "HOME")) =
      some ([some "~/graph", some "yaml", some "next", some "info"], none) := by
  decide +kernel

theorem many_layers_load : (load manyLayers none none graphAtHome).toOption.isSome = true := by
  decide +kernel

def yamlAlone (yaml : String) : Host := placeWith yaml "" "" []

theorem color_read : (originsOf (yamlAlone "color: red") none none []).toOption.map
    (fun origins => origins.fromFile.map fun pair => pair.1.text?) = some [some "color"] := by
  decide +kernel

theorem one_key_outside {word : Option String}
    (told : (originsOf here none none []).toOption.map
      (fun origins => origins.fromFile.map fun pair => pair.1.text?) = some [word]) :
    ∃ origins key, originsOf here none none [] = .ok origins ∧ key.text? = word ∧
      ∀ other, origins.Outside other ↔ ¬ IsSetting other ∧ other = key := by
  obtain ⟨origins, read, words⟩ := Option.map_eq_some_iff.mp told
  obtain ⟨pair, entries, word⟩ := List.map_eq_singleton_iff.mp words
  have read := ok_of_toOption read
  refine ⟨origins, pair.1, read, word, fun other => and_congr_right fun _ => ?_⟩
  rw [entries, origins_overrides read]
  simp

theorem text_of_bind {found : Option Yaml} {text : String}
    (told : found.bind Yaml.text? = some text) : found = some (.text text) := by
  obtain ⟨value, rfl, words⟩ := Option.bind_eq_some_iff.mp told
  rw [key_of_text words]

/-- Each setting comes from another layer, and an unknown setting is refused by its name. -/
theorem many_layers_loaded :
    (∃ settings, load manyLayers none none graphAtHome = .ok settings ∧
      settings.databasePath = "/home/graph" ∧ settings.defaultProject = .text "yaml" ∧
      settings.defaultBranch = .text "next" ∧ settings.logLevel = "INFO") ∧
    ∃ names, load (yamlAlone "color: red") none none [] = .error (.unknownSettings names) ∧
      "color" ∈ names := by
  constructor
  · obtain ⟨settings, loaded⟩ := Option.isSome_iff_exists.mp many_layers_load
    have done : load manyLayers none none graphAtHome = .ok settings := ok_of_toOption loaded
    obtain ⟨origins, read, decided, -⟩ := (settings_layered _ _ _ _).1 settings done
    have told := many_layers_decide
    rw [read] at told
    simp only [Except.toOption, Option.map_some, sources, List.map_cons, List.map_nil,
      Option.some.injEq, Prod.mk.injEq, List.cons.injEq, and_true] at told
    obtain ⟨⟨place, project, branch, level⟩, home⟩ := told
    obtain ⟨written, path, text, expanded, stored⟩ := decided.database_path
    rw [text_of_bind place, Option.getD_some, Yaml.text.injEq] at text
    rw [Origins.home, home, ← text] at expanded
    have expansion : ((Path.ofText "~/graph").expandHome "/home" manyLayers.homes).map Path.text =
        some "/home/graph" := by
      decide +kernel
    rw [show (none : Option String).getD manyLayers.home = "/home" from rfl] at expanded
    rw [expanded, Option.map_some, Option.some.injEq] at expansion
    refine ⟨settings, done, stored.trans expansion, ?_, ?_, ?_⟩
    · rw [decided.default_project, text_of_bind project]
      rfl
    · rw [decided.default_branch, text_of_bind branch]
      rfl
    · rw [decided.log_level, text_of_bind level]
      decide +kernel
  · obtain ⟨origins, key, read, word, outside⟩ := one_key_outside color_read
    obtain rfl := key_of_text word
    have unknown : ¬ IsSetting (.text "color") := by
      rintro ⟨pair, known, name⟩
      have others : ∀ pair ∈ sources, some "color" ≠ some pair.1 := by decide
      exact others pair known name
    have beyond : origins.Outside (.text "color") := (outside _).mpr ⟨unknown, rfl⟩
    have texts : ∀ other, origins.Outside other → other.text?.isSome := by
      intro other mem
      rw [((outside other).mp mem).2]
      rfl
    obtain ⟨names, refused, -, mem⟩ :=
      ((settings_layered _ _ _ _).2 origins read _ beyond).1 texts
    exact ⟨names, refused, (mem "color").mpr beyond⟩

theorem number_read : (originsOf (yamlAlone "1: red") none none []).toOption.map
    (fun origins => origins.fromFile.map fun pair => pair.1.text?) = some [none] := by
  decide +kernel

theorem number_refused : (match load (yamlAlone "1: red") none none [] with
    | .ok _ => true
    | .error error => error.isForeseen) = false := by
  decide +kernel

/-- A key that is no text is no setting, and yet no foreseen error tells so. -/
theorem number_spoils_refusal :
    ¬ ∀ (here : Host) (file environmentDirectory : Option Path) (overrides : List (String × Yaml))
      (origins : Origins) (key : Yaml),
      originsOf here file environmentDirectory overrides = .ok origins → origins.Outside key →
        ∃ error, load here file environmentDirectory overrides = .error error ∧
          error.isForeseen = true := by
  intro claimed
  obtain ⟨origins, key, read, word, outside⟩ := one_key_outside number_read
  have unknown : ¬ IsSetting key := by
    rintro ⟨setting, -, name⟩
    rw [word] at name
    cases name
  obtain ⟨error, refused, foreseen⟩ :=
    claimed _ _ _ _ origins key read ((outside key).mpr ⟨unknown, rfl⟩)
  have spoiled := number_refused
  rw [refused] at spoiled
  exact Bool.noConfusion (foreseen.symm.trans spoiled)

end CodeAtlas.Settings
