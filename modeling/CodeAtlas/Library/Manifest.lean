import CodeAtlas.Distinct
import CodeAtlas.Error
import CodeAtlas.Json.Reader
import CodeAtlas.Library.Catalogue

/-! Package manifests: JSON objects with sections of dependencies. -/

namespace CodeAtlas.Library

open CodeAtlas.Json (Stack Written)

def dependencySections : List String := ["dependencies", "devDependencies", "peerDependencies"]

def sectionNames (manifest : Written) (part : String) : List Name :=
  match manifest.field? (Json.units part) with
  | some (.object fields) => fields.map (·.1)
  | _ => []

def namesIn (manifest : Written) : List Name :=
  distinct (dependencySections.flatMap (sectionNames manifest))

def dependencyNames (stack : Stack) (content : String) : List Name :=
  match Json.read stack content with
  | .ok manifest => namesIn manifest
  | .error _ => []

/-- Reads the dependencies in the text of a manifest. There is no answer when the reader comes to an
integer of too many figures, or so deep that no calls are left to it, before the text turns out to
be no JSON. -/
def readDependencies (stack : Stack) (content : String) : Except Error (List Name) :=
  match Json.read stack content with
  | .error .oversized => .error .impossibleValue
  | .error .tooDeep => .error .tooDeep
  | _ => .ok (dependencyNames stack content)

variable {stack : Stack} {content : String}

theorem dependencies_read {names : List Name} (read : readDependencies stack content = .ok names) :
    names = dependencyNames stack content := by
  unfold readDependencies at read
  split at read
  · cases read
  · cases read
  · exact (Except.ok.inj read).symm

theorem dependencies_unread {error : Error}
    (refused : readDependencies stack content = .error error) :
    (error = .impossibleValue ∨ error = .tooDeep) ∧ dependencyNames stack content = [] := by
  unfold readDependencies at refused
  rw [dependencyNames]
  split at refused
  · next oversized =>
    rw [oversized]
    exact ⟨.inl (Except.error.inj refused).symm, rfl⟩
  · next deep =>
    rw [deep]
    exact ⟨.inr (Except.error.inj refused).symm, rfl⟩
  · cases refused

end CodeAtlas.Library
