import CodeAtlas.Proofs.Settings.Layers

/-! What loading settings comes to. It is promised that settings are what they have to be or that
the configuration is refused. The promise is kept unless a file cannot be read for what it is, an
assignment cannot be held by an environment, a key is no text, the place of the graph is none, a
value that is to be shown cannot be printed, or the default project or branch is given as a value of
another type, which nothing checks. -/
namespace CodeAtlas

def Error.isConfiguration : Error → Bool
  | .unknownSettings _ | .invalidLogLevel .. | .invalidProject .. | .emptyBranch
  | .settingsNotMapping _ | .settingsNotFound _ | .settingsUnreadable _ => true
  | _ => false

namespace Settings

open CodeAtlas.Dotenv (Binding Environment completedBy)
open CodeAtlas.Files (Path)
open CodeAtlas.Graph (except_bind_error except_error_bind except_ok_bind)

variable {here : Host} {file environmentDirectory : Option Path}
  {overrides : List (String × Yaml)} {origins : Origins} {settings : Settings} {value : Yaml}

/-! What is promised. -/

namespace Origins

def place (origins : Origins) (here : Host) : Yaml :=
  (origins.decides "db_path" "MCV_DB_PATH").getD (.text (defaultPlace here.home))

def level (origins : Origins) : Yaml :=
  (origins.decides "log_level" "MCV_LOG_LEVEL").getD (.text "WARNING")

def project (origins : Origins) : Yaml :=
  (origins.decides "default_project" "MCV_DEFAULT_PROJECT").getD (.text "default")

def branch (origins : Origins) : Yaml :=
  (origins.decides "default_branch" "MCV_DEFAULT_BRANCH").getD (.text "main")

end Origins

/-- The default names were given as texts and can be used, and the level is one of those known. -/
structure Sound (origins : Origins) (settings : Settings) : Prop where
  project : ∃ name, origins.project = .text name ∧ settings.defaultProject = .text name ∧
    name ≠ "" ∧ BranchContext.separator ∉ name.toList
  branch : ∃ name, origins.branch = .text name ∧ settings.defaultBranch = .text name ∧ name ≠ ""
  level : settings.logLevel ∈ logLevels

/-- Loading gives sound settings, or it refuses the configuration. -/
def Promised (here : Host) (file environmentDirectory : Option Path)
    (overrides : List (String × Yaml)) : Prop :=
  (∃ origins settings, originsOf here file environmentDirectory overrides = .ok origins ∧
    load here file environmentDirectory overrides = .ok settings ∧ Sound origins settings) ∨
  ∃ error, load here file environmentDirectory overrides = .error error ∧
    error.isConfiguration = true

/-! What can go wrong instead. -/

def Origins.Known (origins : Origins) : Prop := ∀ key, ¬ origins.Outside key

def Expands (here : Host) (home : String) (value : Yaml) : Prop :=
  ∃ written path, value = .text written ∧
    (Path.ofText written).expandHome home here.homes = some path

def Unprintable (here : Host) (value : Yaml) : Prop :=
  ∃ error, value.printed here.tooDeep = .error error

def IsLevel (here : Host) (value : Yaml) : Prop :=
  ∃ text, value.printed here.tooDeep = .ok text ∧ Text.upperString text ∈ logLevels

/-- Whether a value is made of characters, items or pairs, so that it can be searched. Bytes cannot
be searched for a text. -/
def hasParts : Yaml → Bool
  | .text _ | .list _ | .mapping _ | .set _ | .ordered _ => true
  | _ => false

def HasSeparator : Yaml → Prop
  | .text name => BranchContext.separator ∈ name.toList
  | .list items => .text ":" ∈ items
  | .mapping pairs => .text ":" ∈ pairs.map Prod.fst
  | .set members => .text ":" ∈ members
  | _ => False

def settingsPath (file : Option Path) : Path := file.getD ⟨"", [defaultFile]⟩

def Illegible (here : Host) (path : Path) : Prop :=
  here.tree.isFile path = true ∧ ∃ error, here.tree.textAt path = .error error

/-- The settings file is none that can be read: it is no text, or a scalar in it has the form of a
value that does not exist. -/
inductive FileSlips (here : Host) (path : Path) : Prop where
  | illegible (given : Illegible here path)
  | scalar {text : List Char} {fault : Yaml.Fault} (there : here.tree.isFile path = true)
      (read : here.tree.textAt path = .ok text)
      (stops : here.readYaml (String.ofList text) = .error fault) (other : fault ≠ .malformed)

def Overloads (here : Host) (environment : Environment) (path : Path) : Prop :=
  here.tree.isFile path = true ∧ ∃ text, here.tree.textAt path = .ok text ∧
    ∃ name value, (name, some value) ∈ Dotenv.resolve environment text ∧
      environment.lookup name = none ∧ Dotenv.canHold name value = false

/-- What is looked for in a default project that is refused: that it is not given, or that it holds
the separator. -/
def IsRefused (value : Yaml) : Prop := value.isGiven = false ∨ HasSeparator value

/-- The ways in which loading comes to something that was not promised. -/
inductive Slips (here : Host) (file environmentDirectory : Option Path)
    (overrides : List (String × Yaml)) : Prop where
  | file (slips : FileSlips here (settingsPath file))
  | environment {layer : Layer} {name : String} (read : fileLayer here file = .ok layer)
      (known : name ∈ environmentFiles)
      (illegible : Illegible here ((environmentDirectory.getD {}).child name))
  | assignment {layer : Layer} (read : fileLayer here file = .ok layer)
      (overloads : Overloads here here.environment ((environmentDirectory.getD {}).child ".env"))
  | laterAssignment {layer : Layer} {first : List Binding} (read : fileLayer here file = .ok layer)
      (assigned : assignmentsAt here here.environment
        ((environmentDirectory.getD {}).child ".env") = .ok first)
      (overloads : Overloads here (completedBy here.environment first)
        ((environmentDirectory.getD {}).child ".env.local"))
  /-- A key that is no setting is no text either. -/
  | key {origins : Origins} {key : Yaml}
      (read : originsOf here file environmentDirectory overrides = .ok origins)
      (outside : origins.Outside key) (other : key.text? = none)
  | place {origins : Origins}
      (read : originsOf here file environmentDirectory overrides = .ok origins)
      (known : origins.Known) (nowhere : ¬ Expands here (origins.home here) (origins.place here))
  | level {origins : Origins}
      (read : originsOf here file environmentDirectory overrides = .ok origins)
      (known : origins.Known) (placed : Expands here (origins.home here) (origins.place here))
      (unprintable : Unprintable here origins.level)
  /-- The default project is a number, a truth value, a moment or bytes. -/
  | project {origins : Origins}
      (read : originsOf here file environmentDirectory overrides = .ok origins)
      (known : origins.Known) (placed : Expands here (origins.home here) (origins.place here))
      (level : IsLevel here origins.level) (given : origins.project.isGiven = true)
      (whole : hasParts origins.project = false)
  /-- The default project is to be refused by its name, and it has none. -/
  | refusal {origins : Origins}
      (read : originsOf here file environmentDirectory overrides = .ok origins)
      (known : origins.Known) (placed : Expands here (origins.home here) (origins.place here))
      (level : IsLevel here origins.level) (refused : IsRefused origins.project)
      (unprintable : Unprintable here origins.project)
  /-- The default project and branch are taken as they are, and one of them is no text. -/
  | taken {origins : Origins}
      (read : originsOf here file environmentDirectory overrides = .ok origins)
      (known : origins.Known) (placed : Expands here (origins.home here) (origins.place here))
      (level : IsLevel here origins.level) (project : origins.project.isGiven = true)
      (parts : hasParts origins.project = true) (free : ¬ HasSeparator origins.project)
      (branch : origins.branch.isGiven = true)
      (other : origins.project.text? = none ∨ origins.branch.text? = none)

/-! Reading files. -/

theorem bytes_error {path : Path} {error : Error} (failed : here.tree.bytesAt path = .error error) :
    error.isConfiguration = false := by
  unfold Files.Tree.bytesAt at failed
  split at failed
  · cases failed
  · cases failed
  · obtain rfl := Except.error.inj failed
    rfl

theorem text_error {path : Path} {error : Error} (failed : here.tree.textAt path = .error error) :
    error.isConfiguration = false := by
  rcases except_bind_error failed with failed | ⟨bytes, -, failed⟩
  · exact bytes_error failed
  · split at failed
    · cases failed
    · obtain rfl := Except.error.inj failed
      rfl

theorem fault_error {fault : Yaml.Fault} (shown : String) :
    (faultError shown fault).isConfiguration = true ↔ fault = .malformed := by
  cases fault <;> simp [faultError, Error.isConfiguration]

theorem layer_of_text_error {shown : String} {text : List Char} {error : Error}
    (failed : layerOfText here shown text = .error error) : error.isConfiguration = true ∨
      ∃ fault, here.readYaml (String.ofList text) = .error fault ∧ fault ≠ .malformed := by
  unfold layerOfText at failed
  cases parsed : here.readYaml (String.ofList text) with
  | error fault =>
    rw [parsed] at failed
    obtain rfl := Except.error.inj failed
    by_cases broken : fault = .malformed
    · exact .inl ((fault_error shown).mpr broken)
    · exact .inr ⟨fault, rfl, broken⟩
  | ok value =>
    rw [parsed] at failed
    refine .inl ?_
    split at failed
    case h_1 same => cases same
    case h_2 => cases failed
    case h_3 =>
      split at failed
      · obtain rfl := Except.error.inj failed
        rfl
      · cases failed

theorem layer_of_text_slips {text : List Char} {fault : Yaml.Fault} (shown : String)
    (stops : here.readYaml (String.ofList text) = .error fault) (other : fault ≠ .malformed) :
    ∃ error, layerOfText here shown text = .error error ∧ error.isConfiguration = false := by
  unfold layerOfText
  rw [stops]
  exact ⟨_, rfl, Bool.eq_false_iff.mpr (mt (fault_error shown).mp other)⟩

theorem is_file_iff (path : Path) : here.tree.isFile path = true ↔
    ∃ content, here.tree.find? path = some content ∧ content ≠ .directory := by
  rw [Files.Tree.isFile, Files.Tree.isDirectory]
  cases here.tree.find? path with
  | none => simp
  | some content => cases content <;> simp

def shownPath (here : Host) (file : Option Path) : String :=
  file.elim (here.directory ++ "/" ++ defaultFile) Path.text

theorem file_layer_eq (here : Host) (file : Option Path) : fileLayer here file =
    match here.tree.find? (settingsPath file) with
    | some .directory => .error (.settingsUnreadable (shownPath here file))
    | some _ => here.tree.textAt (settingsPath file) >>= layerOfText here (shownPath here file)
    | none => if file.isSome then .error (.settingsNotFound (shownPath here file)) else .ok [] := by
  cases file <;> rfl

theorem file_layer_of_file (there : here.tree.isFile (settingsPath file) = true) :
    fileLayer here file =
      here.tree.textAt (settingsPath file) >>= layerOfText here (shownPath here file) := by
  obtain ⟨content, found, other⟩ := (is_file_iff _).mp there
  rw [file_layer_eq, found]
  cases content with
  | directory => exact absurd rfl other
  | bytes => rfl
  | database => rfl

theorem file_layer_slips (slips : FileSlips here (settingsPath file)) :
    ∃ error, fileLayer here file = .error error ∧ error.isConfiguration = false := by
  cases slips with
  | illegible given =>
    obtain ⟨there, error, failed⟩ := given
    exact ⟨error, by rw [file_layer_of_file there, failed]; rfl, text_error failed⟩
  | scalar there read stops other =>
    obtain ⟨error, failed, foreign⟩ := layer_of_text_slips (shownPath here file) stops other
    exact ⟨error, by rw [file_layer_of_file there, read]; exact failed, foreign⟩

theorem file_layer_error {error : Error} (failed : fileLayer here file = .error error) :
    error.isConfiguration = true ∨ FileSlips here (settingsPath file) := by
  by_cases there : here.tree.isFile (settingsPath file) = true
  · rw [file_layer_of_file there] at failed
    rcases except_bind_error failed with unread | ⟨text, read, failed⟩
    · exact .inr (.illegible ⟨there, error, unread⟩)
    · exact (layer_of_text_error failed).imp_right fun ⟨fault, stops, other⟩ =>
        .scalar there read stops other
  · rw [is_file_iff] at there
    rw [file_layer_eq] at failed
    refine .inl ?_
    cases found : here.tree.find? (settingsPath file) with
    | none =>
      rw [found] at failed
      dsimp only at failed
      split at failed
      · obtain rfl := Except.error.inj failed
        rfl
      · cases failed
    | some content =>
      cases content with
      | directory =>
        rw [found] at failed
        obtain rfl := Except.error.inj failed
        rfl
      | bytes => exact absurd ⟨_, found, by simp⟩ there
      | database => exact absurd ⟨_, found, by simp⟩ there

theorem assignments_illegible {path : Path} (illegible : Illegible here path)
    (environment : Environment) : ∃ error, assignmentsAt here environment path = .error error ∧
      error.isConfiguration = false := by
  obtain ⟨there, error, failed⟩ := illegible
  refine ⟨error, ?_, text_error failed⟩
  rw [assignmentsAt, there, failed]
  rfl

theorem takes_iff {environment : Environment} {bindings : List Binding} :
    Dotenv.takes environment bindings = false ↔ ∃ name value, (name, some value) ∈ bindings ∧
      environment.lookup name = none ∧ Dotenv.canHold name value = false := by
  rw [Dotenv.takes, List.all_eq_false]
  constructor
  · rintro ⟨⟨name, value⟩, mem, refused⟩
    cases value with
    | none => exact absurd rfl refused
    | some value =>
      dsimp only [Option.all_some] at refused
      rw [Bool.or_eq_true, not_or, Option.not_isSome_iff_eq_none, Bool.not_eq_true] at refused
      exact ⟨name, value, mem, refused⟩
  · rintro ⟨name, value, mem, unset, spoiled⟩
    exact ⟨(name, some value), mem, by simp [unset, spoiled]⟩

theorem assignments_overloaded {path : Path} {environment : Environment}
    (overloads : Overloads here environment path) :
    assignmentsAt here environment path = .error .impossibleValue := by
  obtain ⟨there, text, read, spoiled⟩ := overloads
  rw [assignmentsAt, there, read, Bool.not_true, if_neg Bool.false_ne_true, except_ok_bind]
  exact if_neg (Bool.eq_false_iff.mp (takes_iff.mpr spoiled))

theorem assignments_error {path : Path} {environment : Environment} {error : Error}
    (failed : assignmentsAt here environment path = .error error) :
    (Illegible here path ∨ Overloads here environment path) ∧ error.isConfiguration = false := by
  rw [assignmentsAt] at failed
  split at failed
  case isTrue => cases failed
  case isFalse missing =>
    have there : here.tree.isFile path = true := by simpa using missing
    rcases except_bind_error failed with unread | ⟨text, read, failed⟩
    · exact ⟨.inl ⟨there, error, unread⟩, text_error unread⟩
    · dsimp only at failed
      split at failed
      case isTrue => cases failed
      case isFalse spoiled =>
        obtain rfl := Except.error.inj failed
        exact ⟨.inr ⟨there, text, read, takes_iff.mp (Bool.eq_false_iff.mpr spoiled)⟩, rfl⟩

theorem origins_error {error : Error}
    (failed : originsOf here file environmentDirectory overrides = .error error) :
    error.isConfiguration = true ∨ Slips here file environmentDirectory overrides := by
  rcases except_bind_error failed with unread | ⟨layer, read, failed⟩
  · exact (file_layer_error unread).imp_right .file
  · refine .inr ?_
    rcases except_bind_error failed with unread | ⟨first, assigned, failed⟩
    · rcases (assignments_error unread).1 with illegible | overloads
      · exact .environment read (by decide : ".env" ∈ environmentFiles) illegible
      · exact .assignment read overloads
    · rcases except_bind_error failed with unread | ⟨second, -, failed⟩
      · rcases (assignments_error unread).1 with illegible | overloads
        · exact .environment read (by decide : ".env.local" ∈ environmentFiles) illegible
        · exact .laterAssignment read assigned overloads
      · cases failed

theorem origins_illegible {layer : Layer} {name : String} (read : fileLayer here file = .ok layer)
    (known : name ∈ environmentFiles)
    (illegible : Illegible here ((environmentDirectory.getD {}).child name)) :
    ∃ error, originsOf here file environmentDirectory overrides = .error error ∧
      error.isConfiguration = false := by
  cases first : assignmentsAt here here.environment
      ((environmentDirectory.getD {}).child ".env") with
  | error error =>
    refine ⟨error, ?_, (assignments_error first).2⟩
    rw [originsOf, read, except_ok_bind]
    dsimp only
    rw [first, except_error_bind]
  | ok bindings =>
    rcases List.mem_pair.mp known with rfl | rfl
    · obtain ⟨error, failed, -⟩ := assignments_illegible illegible here.environment
      rw [first] at failed
      cases failed
    · obtain ⟨error, failed, foreign⟩ :=
        assignments_illegible illegible (completedBy here.environment bindings)
      refine ⟨error, ?_, foreign⟩
      rw [originsOf, read, except_ok_bind]
      dsimp only
      rw [first, except_ok_bind, failed, except_error_bind]

/-! The checks. -/

def checked (here : Host) (origins : Origins) : Except Error Settings := do
  checkNames origins.merged
  let databasePath ← pathOf here (origins.home here) (origins.place here)
  let logLevel ← logLevelOf here origins.level
  let defaultProject ← projectOf here origins.project
  let defaultBranch ← branchOf origins.branch
  return { databasePath, defaultProject, defaultBranch, logLevel }

theorem load_checked
    (read : originsOf here file environmentDirectory overrides = .ok origins) :
    load here file environmentDirectory overrides = checked here origins := by
  have assigned := origins_assigned read
  rw [load_eq, read]
  change ofLayer _ _ _ = _
  rw [ofLayer, lookup_effective assigned]
  dsimp only
  rw [value_decided assigned (by decide : ("db_path", "MCV_DB_PATH") ∈ sources),
    value_decided assigned (by decide : ("log_level", "MCV_LOG_LEVEL") ∈ sources),
    value_decided assigned (by decide : ("default_project", "MCV_DEFAULT_PROJECT") ∈ sources),
    value_decided assigned (by decide : ("default_branch", "MCV_DEFAULT_BRANCH") ∈ sources)]
  rfl

theorem check_names_known (known : origins.Known) : checkNames origins.merged = .ok () := by
  rw [check_names_eq]
  refine if_pos (List.isEmpty_iff.mpr (List.eq_nil_iff_forall_not_mem.mpr fun pair mem => ?_))
  exact known pair.1 (outside_iff.mpr (mem_unknown.mp (List.mem_map_of_mem mem)))

theorem path_expands {home : String} (placed : Expands here home value) :
    ∃ path, pathOf here home value = .ok path := by
  obtain ⟨written, path, rfl, found⟩ := placed
  exact ⟨path.text, by rw [pathOf, found]⟩

theorem path_nowhere {home : String} (nowhere : ¬ Expands here home value) :
    ∃ error, pathOf here home value = .error error ∧ error.isConfiguration = false := by
  unfold pathOf
  split
  case h_1 written =>
    split
    case h_1 path found => exact absurd ⟨written, path, rfl, found⟩ nowhere
    case h_2 => exact ⟨_, rfl, rfl⟩
  case h_2 => exact ⟨_, rfl, rfl⟩

theorem printed_error {error : Error} (failed : value.printed here.tooDeep = .error error) :
    error.isConfiguration = false := by
  unfold Yaml.printed at failed
  split at failed
  · cases failed
  · split_ifs at failed <;> obtain rfl := Except.error.inj failed <;> rfl

theorem level_known (level : IsLevel here value) :
    ∃ known, logLevelOf here value = .ok known ∧ known ∈ logLevels := by
  obtain ⟨text, shown, among⟩ := level
  exact ⟨_, by rw [logLevelOf, shown]; exact if_pos (List.contains_iff_mem.mpr among), among⟩

theorem level_unknown {text : String} (shown : value.printed here.tooDeep = .ok text)
    (other : ¬ IsLevel here value) :
    ∃ level, logLevelOf here value = .error (.invalidLogLevel level logLevels) := by
  refine ⟨Text.upperString text, ?_⟩
  rw [logLevelOf, shown]
  exact if_neg fun contained => other ⟨text, shown, List.contains_iff_mem.mp contained⟩

theorem separator_whole (whole : hasParts value = false) :
    holdsSeparator value = .error .wrongType := by
  cases value with
  | text | list | mapping | set | ordered => cases whole
  | _ => rfl

theorem separator_parts (parts : hasParts value = true) :
    ∃ found, holdsSeparator value = .ok found ∧ (found = true ↔ HasSeparator value) := by
  have colon (item : Yaml) :
      (item.text? == some BranchContext.separator.toString) = true ↔ item = .text ":" := by
    rw [beq_iff_eq]
    constructor
    · exact key_of_text
    · rintro rfl
      rfl
  cases value with
  | text name => exact ⟨_, rfl, List.contains_iff_mem⟩
  | list items | set items =>
    refine ⟨_, rfl, ?_⟩
    rw [List.any_eq_true, HasSeparator]
    simp only [colon, exists_eq_right]
  | ordered entries => exact ⟨false, rfl, iff_of_false Bool.false_ne_true id⟩
  | mapping pairs =>
    refine ⟨_, rfl, ?_⟩
    rw [List.any_eq_true, HasSeparator, List.mem_map]
    simp only [colon]
  | _ => cases parts

theorem is_no_project (searched : value.isGiven = true → hasParts value = true) :
    ∃ found, isNoProject value = .ok found ∧ (found = true ↔ IsRefused value) := by
  rw [isNoProject, IsRefused]
  cases given : value.isGiven with
  | false => exact ⟨true, rfl, by simp⟩
  | true =>
    obtain ⟨found, holds, met⟩ := separator_parts (searched given)
    exact ⟨found, holds, by simp [met]⟩

theorem parts_of_separator (separated : HasSeparator value) : hasParts value = true := by
  cases value with
  | text | list | mapping | set | ordered => rfl
  | _ => cases separated

theorem project_whole (given : value.isGiven = true) (whole : hasParts value = false) :
    projectOf here value = .error .wrongType := by
  rw [projectOf, isNoProject, if_pos given, separator_whole whole, except_error_bind]

theorem project_refused (refused : IsRefused value) : projectOf here value = (do
    throw (.invalidProject (← value.printed here.tooDeep) BranchContext.separator.toString)) := by
  have searched : value.isGiven = true → hasParts value = true := by
    intro given
    rcases refused with missing | separated
    · rw [missing] at given
      cases given
    · exact parts_of_separator separated
  obtain ⟨found, asked, met⟩ := is_no_project searched
  rw [projectOf, asked, except_ok_bind, if_pos (met.mpr refused)]
  cases value.printed here.tooDeep <;> rfl

theorem project_taken (given : value.isGiven = true) (parts : hasParts value = true)
    (free : ¬ HasSeparator value) : projectOf here value = .ok value.toJson := by
  have accepted : ¬ IsRefused value := by
    rintro (missing | separated)
    · rw [missing] at given
      cases given
    · exact free separated
  obtain ⟨found, asked, met⟩ := is_no_project fun _ => parts
  rw [projectOf, asked, except_ok_bind, if_neg fun refused => accepted (met.mp refused)]
  rfl

/-! What loading comes to. -/

theorem checked_up_to_project (known : origins.Known)
    (placed : Expands here (origins.home here) (origins.place here))
    (level : IsLevel here origins.level) :
    ∃ path grade, grade ∈ logLevels ∧ checked here origins = (do
      let project ← projectOf here origins.project
      let branch ← branchOf origins.branch
      return ⟨path, project, branch, grade⟩) := by
  obtain ⟨path, expands⟩ := path_expands placed
  obtain ⟨grade, shouted, among⟩ := level_known level
  refine ⟨path, grade, among, ?_⟩
  rw [checked, check_names_known known, except_ok_bind, expands, except_ok_bind, shouted,
    except_ok_bind]

theorem checked_taken (known : origins.Known)
    (placed : Expands here (origins.home here) (origins.place here))
    (level : IsLevel here origins.level)
    (project : origins.project.isGiven = true) (parts : hasParts origins.project = true)
    (free : ¬ HasSeparator origins.project) (branch : origins.branch.isGiven = true) :
    ∃ path grade, grade ∈ logLevels ∧ checked here origins =
      .ok ⟨path, origins.project.toJson, origins.branch.toJson, grade⟩ := by
  obtain ⟨path, grade, among, rest⟩ := checked_up_to_project known placed level
  refine ⟨path, grade, among, ?_⟩
  rw [rest, project_taken project parts free, except_ok_bind, branchOf, if_pos branch,
    except_ok_bind]
  rfl

theorem sound_of_texts {path grade project branch : String}
    (named : origins.project = .text project) (given : origins.project.isGiven = true)
    (free : ¬ HasSeparator origins.project) (grown : origins.branch = .text branch)
    (given' : origins.branch.isGiven = true) (among : grade ∈ logLevels) :
    Sound origins ⟨path, origins.project.toJson, origins.branch.toJson, grade⟩ := by
  constructor
  case project =>
    rw [named] at given free ⊢
    exact ⟨project, rfl, rfl, by simpa [Yaml.isGiven, Yaml.toJson, Json.isGiven] using given, free⟩
  case branch =>
    rw [grown] at given' ⊢
    exact ⟨branch, rfl, rfl, by simpa [Yaml.isGiven, Yaml.toJson, Json.isGiven] using given'⟩
  case level => exact among

theorem not_promised_of_error {error : Error}
    (failed : load here file environmentDirectory overrides = .error error)
    (foreign : error.isConfiguration = false) :
    ¬ Promised here file environmentDirectory overrides := by
  rintro (⟨origins, settings, -, done, -⟩ | ⟨other, refused, configuration⟩)
  · rw [failed] at done
    cases done
  · rw [failed] at refused
    obtain rfl := Except.error.inj refused
    rw [foreign] at configuration
    cases configuration

theorem not_promised_of_unread {error : Error}
    (unread : originsOf here file environmentDirectory overrides = .error error)
    (foreign : error.isConfiguration = false) :
    ¬ Promised here file environmentDirectory overrides := by
  refine not_promised_of_error ?_ foreign
  rw [load_eq, unread, except_error_bind]

theorem not_promised_of_slips (slips : Slips here file environmentDirectory overrides) :
    ¬ Promised here file environmentDirectory overrides := by
  cases slips with
  | file slips =>
    obtain ⟨error, failed, foreign⟩ := file_layer_slips slips
    refine not_promised_of_unread ?_ foreign
    rw [originsOf, failed, except_error_bind]
  | environment read known illegible =>
    obtain ⟨error, unread, foreign⟩ := origins_illegible read known illegible
    exact not_promised_of_unread unread foreign
  | assignment read overloads =>
    have unread : originsOf here file environmentDirectory overrides = .error .impossibleValue := by
      rw [originsOf, read, except_ok_bind]
      dsimp only
      rw [assignments_overloaded overloads, except_error_bind]
    exact not_promised_of_unread unread rfl
  | laterAssignment read assigned overloads =>
    have unread : originsOf here file environmentDirectory overrides = .error .impossibleValue := by
      rw [originsOf, read, except_ok_bind]
      dsimp only
      rw [assigned, except_ok_bind, assignments_overloaded overloads, except_error_bind]
    exact not_promised_of_unread unread rfl
  | key read outside other =>
    have refused : load here file environmentDirectory overrides = .error .wrongType := by
      rw [load_checked read, checked, (check_names_error outside).2 ⟨_, outside, other⟩,
        except_error_bind]
    exact not_promised_of_error refused rfl
  | place read known nowhere =>
    obtain ⟨error, failed, foreign⟩ := path_nowhere nowhere
    refine not_promised_of_error ?_ foreign
    rw [load_checked read, checked, check_names_known known, except_ok_bind, failed,
      except_error_bind]
  | level read known placed unprintable =>
    obtain ⟨path, expands⟩ := path_expands placed
    obtain ⟨error, failed⟩ := unprintable
    refine not_promised_of_error ?_ (printed_error failed)
    rw [load_checked read, checked, check_names_known known, except_ok_bind, expands,
      except_ok_bind, logLevelOf, failed, except_error_bind, except_error_bind]
  | refusal read known placed level refused unprintable =>
    obtain ⟨path, grade, -, rest⟩ := checked_up_to_project known placed level
    obtain ⟨error, failed⟩ := unprintable
    refine not_promised_of_error ?_ (printed_error failed)
    rw [load_checked read, rest, project_refused refused, failed, except_error_bind,
      except_error_bind]
  | project read known placed level given whole =>
    obtain ⟨path, grade, -, rest⟩ := checked_up_to_project known placed level
    have refused : load here file environmentDirectory overrides = .error .wrongType := by
      rw [load_checked read, rest, project_whole given whole, except_error_bind]
    exact not_promised_of_error refused rfl
  | taken read known placed level project parts free branch other =>
    obtain ⟨path, grade, -, done⟩ := checked_taken known placed level project parts free branch
    rw [← load_checked read] at done
    rintro (⟨same, settings, again, -, sound⟩ | ⟨error, refused, -⟩)
    · rw [read] at again
      obtain rfl := Except.ok.inj again
      obtain ⟨name, text, -⟩ := sound.project
      obtain ⟨name', text', -⟩ := sound.branch
      rw [text, text'] at other
      rcases other with none | none <;> cases none
    · rw [done] at refused
      cases refused

theorem promised_of_error {error : Error}
    (failed : load here file environmentDirectory overrides = .error error)
    (configuration : error.isConfiguration = true) :
    Promised here file environmentDirectory overrides :=
  .inr ⟨error, failed, configuration⟩

theorem promised_or_slips_of_outside {key : Yaml}
    (read : originsOf here file environmentDirectory overrides = .ok origins)
    (outside : origins.Outside key) :
    Promised here file environmentDirectory overrides ∨
      Slips here file environmentDirectory overrides := by
  by_cases other : ∃ key, origins.Outside key ∧ key.text? = none
  · obtain ⟨key, beyond, none⟩ := other
    exact .inr (.key read beyond none)
  · have texts : ∀ key, origins.Outside key → key.text?.isSome := by
      intro key beyond
      exact Option.isSome_iff_ne_none.mpr fun none => other ⟨key, beyond, none⟩
    obtain ⟨names, refused, -⟩ := (check_names_error outside).1 texts
    have failed : load here file environmentDirectory overrides =
        .error (.unknownSettings names) := by
      rw [load_checked read, checked, refused, except_error_bind]
    exact .inl (promised_of_error failed rfl)

theorem promised_or_slips_of_level
    (read : originsOf here file environmentDirectory overrides = .ok origins)
    (known : origins.Known) (placed : Expands here (origins.home here) (origins.place here))
    (level : IsLevel here origins.level) :
    Promised here file environmentDirectory overrides ∨
      Slips here file environmentDirectory overrides := by
  obtain ⟨path, grade, -, rest⟩ := checked_up_to_project known placed level
  rw [← load_checked read] at rest
  have refusal (refused : IsRefused origins.project) :
      Promised here file environmentDirectory overrides ∨
        Slips here file environmentDirectory overrides := by
    cases shown : origins.project.printed here.tooDeep with
    | error error => exact .inr (.refusal read known placed level refused ⟨error, shown⟩)
    | ok name =>
      rw [project_refused refused, shown] at rest
      exact .inl (promised_of_error rest rfl)
  cases given : origins.project.isGiven with
  | false => exact refusal (.inl given)
  | true =>
    cases parts : hasParts origins.project with
    | false => exact .inr (.project read known placed level given parts)
    | true =>
      by_cases free : ¬ HasSeparator origins.project
      swap
      · exact refusal (.inr (not_not.mp free))
      cases branch : origins.branch.isGiven with
      | false =>
        rw [project_taken given parts free, except_ok_bind, branchOf, branch] at rest
        exact .inl (promised_of_error rest rfl)
      | true =>
        cases named : origins.project.text? with
        | none => exact .inr (.taken read known placed level given parts free branch (.inl named))
        | some project =>
          cases grown : origins.branch.text? with
          | none =>
            exact .inr (.taken read known placed level given parts free branch (.inr grown))
          | some name =>
            obtain ⟨path, grade, among, done⟩ :=
              checked_taken known placed level given parts free branch
            rw [← load_checked read] at done
            exact .inl (.inl ⟨origins, _, read, done, sound_of_texts (key_of_text named) given free
              (key_of_text grown) branch among⟩)

theorem promised_or_slips
    (read : originsOf here file environmentDirectory overrides = .ok origins) :
    Promised here file environmentDirectory overrides ∨
      Slips here file environmentDirectory overrides := by
  by_cases known : origins.Known
  swap
  · obtain ⟨key, outside⟩ := not_forall_not.mp known
    exact promised_or_slips_of_outside read outside
  by_cases placed : Expands here (origins.home here) (origins.place here)
  swap
  · exact .inr (.place read known placed)
  by_cases level : IsLevel here origins.level
  · exact promised_or_slips_of_level read known placed level
  · obtain ⟨path, expands⟩ := path_expands placed
    cases shown : origins.level.printed here.tooDeep with
    | error error => exact .inr (.level read known placed ⟨error, shown⟩)
    | ok text =>
      obtain ⟨name, refused⟩ := level_unknown shown level
      have failed : load here file environmentDirectory overrides =
          .error (.invalidLogLevel name logLevels) := by
        rw [load_checked read, checked, check_names_known known, except_ok_bind, expands,
          except_ok_bind, refused, except_error_bind]
      exact .inl (promised_of_error failed rfl)

/-- Loading keeps its promise exactly when nothing slips: settings are given whose default project
and branch are usable texts and whose level is known, or the configuration is refused. -/
theorem settings_checked (here : Host) (file environmentDirectory : Option Path)
    (overrides : List (String × Yaml)) :
    Promised here file environmentDirectory overrides ↔
      ¬ Slips here file environmentDirectory overrides := by
  constructor
  · intro promised slips
    exact not_promised_of_slips slips promised
  · intro none
    cases read : originsOf here file environmentDirectory overrides with
    | error error =>
      rcases origins_error read with configuration | slips
      · refine promised_of_error ?_ configuration
        rw [load_eq, read, except_error_bind]
      · exact absurd slips none
    | ok origins => exact (promised_or_slips read).resolve_right none

theorem number_as_project : (match load (yamlAlone "default_project: 5") none none [] with
    | .ok _ => true
    | .error error => error.isConfiguration) = false := by
  decide +kernel

/-- A number as the default project is neither refused nor taken. -/
theorem number_not_promised : ¬ ∀ (here : Host) (file environmentDirectory : Option Path)
    (overrides : List (String × Yaml)), Promised here file environmentDirectory overrides := by
  intro claimed
  rcases claimed (yamlAlone "default_project: 5") none none [] with
    ⟨origins, settings, -, done, -⟩ | ⟨error, refused, configuration⟩
  · have failed := number_as_project
    rw [done] at failed
    cases failed
  · have failed := number_as_project
    rw [refused] at failed
    exact Bool.noConfusion (configuration.symm.trans failed)

end Settings

end CodeAtlas
