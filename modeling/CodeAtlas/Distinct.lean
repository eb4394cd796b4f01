/-! First occurrences, and lists kept as ordered maps. -/

namespace CodeAtlas

variable {α β : Type}

/-- The first occurrence of every element, in order. -/
def distinct [DecidableEq α] : List α → List α
  | [] => []
  | x :: rest => x :: (distinct rest).filter (· ≠ x)

def valueOf? [DecidableEq α] (key : α) : List (α × β) → Option β
  | [] => none
  | (known, value) :: rest => if known = key then some value else valueOf? key rest

/-- Binds a key: a known key keeps its place and takes the new value, a new one goes last. -/
def bind [DecidableEq α] (key : α) (value : β) : List (α × β) → List (α × β)
  | [] => [(key, value)]
  | (known, old) :: rest =>
    if known = key then (known, value) :: rest else (known, old) :: bind key value rest

def bindAll [DecidableEq α] (pairs : List (α × β)) : List (α × β) :=
  pairs.foldl (fun bound (key, value) => bind key value bound) []

def countOne [DecidableEq α] (key : α) (counts : List (α × Nat)) : List (α × Nat) :=
  bind key ((valueOf? key counts).getD 0 + 1) counts

def tally [DecidableEq α] (keys : List α) : List (α × Nat) :=
  keys.foldl (fun counts key => countOne key counts) []

def total : List Nat → Nat
  | [] => 0
  | count :: rest => count + total rest

end CodeAtlas
