import CodeAtlas.Contexts
import CodeAtlas.Indexing.Files
import Mathlib.Data.String.Basic

/-! Names of contexts. A resolved context string is a project without separator and a branch, put
together, and the first separator takes it apart again, so that no two contexts share a string.
Under one project the strings of contexts are ordered as their branches are. -/
namespace CodeAtlas.BranchContext

def Resolved (text : String) : Prop :=
  ∃ project branch, Indexing.contextKey project branch = .ok text

/-- A project and a branch that need no default and can be told apart again. -/
structure Proper (context : BranchContext) : Prop where
  project : context.project ≠ ""
  unseparated : separator ∉ context.project.toList
  branch : context.branch ≠ ""

variable {context other : BranchContext} {text project branch : String}

theorem effective_of_ne {name default : String} (given : name ≠ "") :
    effective (some name) default = name := if_neg given

theorem effective_ne {name : Option String} {default : String} (filled : default ≠ "") :
    effective name default ≠ "" := by
  cases name with
  | none => exact filled
  | some given =>
    rw [effective]
    split_ifs with empty
    · exact filled
    · exact empty

theorem proper_of_resolve {project branch : Option String}
    (h : resolve project branch = .ok context) : context.Proper := by
  unfold resolve at h
  dsimp only at h
  split_ifs at h with separated
  obtain rfl := Except.ok.inj h
  exact ⟨effective_ne (by decide), separated, effective_ne (by decide)⟩

theorem Proper.resolve (proper : context.Proper) :
    BranchContext.resolve (some context.project) (some context.branch) = .ok context := by
  rw [BranchContext.resolve, effective_of_ne proper.project, effective_of_ne proper.branch,
    if_neg proper.unseparated]

theorem Proper.key_settled (proper : context.Proper) :
    Indexing.contextKey (some context.project) (some context.branch) = .ok context.key := by
  rw [Indexing.contextKey, proper.resolve]
  rfl

/-- Resolved strings are the keys of proper contexts. -/
theorem resolved_iff :
    Resolved text ↔ ∃ context : BranchContext, context.Proper ∧ context.key = text := by
  constructor
  · rintro ⟨project, branch, settled⟩
    unfold Indexing.contextKey at settled
    cases resolved : BranchContext.resolve project branch with
    | error error =>
      rw [resolved] at settled
      cases settled
    | ok context =>
      rw [resolved] at settled
      exact ⟨context, proper_of_resolve resolved, Except.ok.inj settled⟩
  · rintro ⟨context, proper, rfl⟩
    exact ⟨_, _, proper.key_settled⟩

theorem toList_key (context : BranchContext) :
    context.key.toList = context.project.toList ++ separator :: context.branch.toList := by
  simp [key, separator]

theorem kept_before_separator {name : List Char} (unseparated : separator ∉ name) :
    ∀ c ∈ name, (c != separator) = true :=
  fun _ mem => bne_iff_ne.mpr fun same => unseparated (same ▸ mem)

theorem Proper.parse_key (proper : context.Proper) : parse context.key = context := by
  have kept := kept_before_separator proper.unseparated
  have project : context.key.toList.takeWhile (· != separator) = context.project.toList := by
    rw [toList_key, List.takeWhile_append_of_pos kept]
    simp
  have branch : (context.key.toList.dropWhile (· != separator)).drop 1 = context.branch.toList := by
    rw [toList_key, List.dropWhile_append_of_pos kept]
    simp
  rw [parse, project, branch, String.ofList_toList, String.ofList_toList,
    effective_of_ne proper.project, effective_of_ne proper.branch]

/-! Context strings as an encoding. -/

def meant (project branch : Option String) : BranchContext :=
  ⟨effective project defaultProject, effective branch defaultBranch⟩

theorem context_key_meant (project branch : Option String) :
    Indexing.contextKey project branch =
      if separator ∈ (meant project branch).project.toList then
        .error (.reservedSeparator (meant project branch).project (meant project branch).branch)
      else .ok (meant project branch).key := by
  unfold Indexing.contextKey resolve meant
  dsimp only
  split_ifs <;> rfl

theorem proper_meant {project branch : Option String}
    (unseparated : separator ∉ (meant project branch).project.toList) :
    (meant project branch).Proper :=
  ⟨effective_ne (by decide), unseparated, effective_ne (by decide)⟩

theorem parse_context_key {project branch : Option String}
    (settled : Indexing.contextKey project branch = .ok text) :
    parse text = meant project branch := by
  rw [context_key_meant] at settled
  split_ifs at settled with separated
  obtain rfl := Except.ok.inj settled
  exact (proper_meant separated).parse_key

/-- Context strings are an unambiguous encoding of projects and branches. One is refused exactly
when the project that is meant holds the separator; any other is parsed as what was meant, whatever
the branch holds. Two are the same exactly when the same was meant, and what a context string is
parsed as resolves to that string again. -/
theorem context_strings_unambiguous (project branch : Option String) :
    (∀ error, Indexing.contextKey project branch = .error error ↔
      separator ∈ (meant project branch).project.toList ∧
        error = .reservedSeparator (meant project branch).project (meant project branch).branch) ∧
    (separator ∉ (meant project branch).project.toList →
      ∃ text, Indexing.contextKey project branch = .ok text ∧ parse text = meant project branch) ∧
    (∀ project' branch' text text', Indexing.contextKey project branch = .ok text →
      Indexing.contextKey project' branch' = .ok text' →
      (text = text' ↔ meant project branch = meant project' branch')) ∧
    ∀ text, Resolved text →
      Indexing.contextKey (some (parse text).project) (some (parse text).branch) = .ok text := by
  refine ⟨?refused, ?parsed, ?injective, ?resolved⟩
  case refused =>
    intro error
    rw [context_key_meant]
    split_ifs with separated
    · simp [separated, eq_comm]
    · simp [separated]
  case parsed =>
    intro unseparated
    refine ⟨_, ?_, (proper_meant unseparated).parse_key⟩
    rw [context_key_meant, if_neg unseparated]
  case injective =>
    intro project' branch' text text' settled settled'
    constructor
    · rintro rfl
      rw [← parse_context_key settled, ← parse_context_key settled']
    · intro same
      rw [context_key_meant] at settled settled'
      rw [← same, settled] at settled'
      exact Except.ok.inj settled'
  case resolved =>
    intro text resolved
    obtain ⟨context, proper, rfl⟩ := resolved_iff.mp resolved
    rw [proper.parse_key]
    exact proper.key_settled

/-- An empty project stands for the default, and a branch may begin and end with the separator. -/
theorem separated_branch_parsed :
    Indexing.contextKey (some "") (some ":release:2024:") = .ok "default::release:2024:" ∧
      parse "default::release:2024:" = ⟨"default", ":release:2024:"⟩ ∧
      Indexing.contextKey (some "default") (some ":release:2024:") =
        .ok "default::release:2024:" ∧
      "default::release:2024:" ≠ "default:main" := by
  have settled : Indexing.contextKey (some "") (some ":release:2024:") =
    .ok "default::release:2024:" := rfl
  have plain : Indexing.contextKey none none = .ok "default:main" := rfl
  obtain ⟨-, parsed, injective, resolved⟩ :=
    context_strings_unambiguous (some "") (some ":release:2024:")
  obtain ⟨text, settled', back⟩ := parsed (by decide)
  obtain rfl := Except.ok.inj (settled.symm.trans settled')
  have again := resolved _ ⟨_, _, settled⟩
  rw [back] at again
  refine ⟨settled, back, again, fun same => ?_⟩
  have collapsed := (injective none none _ _ settled plain).mp same
  revert collapsed
  decide

/-! Beginnings of keys. -/

theorem separated_prefix_iff {front name rest tail : List Char} (front_free : separator ∉ front)
    (name_free : separator ∉ name) :
    front ++ separator :: rest <+: name ++ separator :: tail ↔ front = name ∧ rest <+: tail := by
  induction front generalizing name with
  | nil =>
    cases name with
    | nil => simp [List.cons_prefix_cons]
    | cons c name =>
      have apart : separator ≠ c := fun same => name_free (same ▸ List.mem_cons_self)
      simp [List.cons_prefix_cons, apart]
  | cons c front ih =>
    cases name with
    | nil =>
      have apart : c ≠ separator := fun same => front_free (same ▸ List.mem_cons_self)
      simp [List.cons_prefix_cons, apart]
    | cons d name =>
      rw [List.cons_append, List.cons_append, List.cons_prefix_cons,
        ih (List.not_mem_of_not_mem_cons front_free) (List.not_mem_of_not_mem_cons name_free),
        List.cons.injEq, and_assoc]

theorem starts_own (unseparated : separator ∉ project.toList) (proper : context.Proper) :
    Text.startsWith (projectStart project) context.key = true ↔ context.project = project := by
  have start : (projectStart project).toList = project.toList ++ separator :: [] := by
    simp [projectStart, separator]
  rw [Text.startsWith, List.isPrefixOf_iff_prefix, toList_key, start,
    separated_prefix_iff unseparated proper.unseparated, String.toList_inj, eq_comm]
  simp

/-- A name with separators begins the keys of the project before the first one, where the branch
begins with what comes after it. -/
theorem starts_within {front rest : String} (unseparated : separator ∉ front.toList)
    (proper : context.Proper) :
    Text.startsWith (projectStart (front ++ ":" ++ rest)) context.key = true ↔
      context.project = front ∧ Text.startsWith (rest ++ ":") context.branch = true := by
  have start : (projectStart (front ++ ":" ++ rest)).toList =
      front.toList ++ separator :: (rest ++ ":").toList := by
    simp [projectStart, separator]
  rw [Text.startsWith, List.isPrefixOf_iff_prefix, toList_key, start,
    separated_prefix_iff unseparated proper.unseparated, String.toList_inj, Text.startsWith,
    List.isPrefixOf_iff_prefix, eq_comm]

/-! The order of keys. -/

theorem append_lt_append_left (front first second : List Char) :
    front ++ first < front ++ second ↔ first < second := by
  induction front with
  | nil => exact Iff.rfl
  | cons c front ih => simpa [List.cons_lt_cons_iff] using ih

theorem key_lt_iff (same : context.project = other.project) :
    context.key < other.key ↔ context.branch < other.branch := by
  rw [String.lt_iff_toList_lt, String.lt_iff_toList_lt, toList_key, toList_key, same,
    append_lt_append_left, List.cons_lt_cons_iff]
  simp

end CodeAtlas.BranchContext
