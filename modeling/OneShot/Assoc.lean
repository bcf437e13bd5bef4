/-!
# Association lists

Finite maps as lists of pairs, in the order in which keys first arrived.
-/

namespace OneShot.Assoc

variable {κ α : Type} [DecidableEq κ]

def get? : List (κ × α) → κ → Option α
  | [], _ => none
  | (name, value) :: rest, key => if name = key then some value else get? rest key

/-- Give a key a value; a key already present keeps its place. -/
def put : List (κ × α) → κ → α → List (κ × α)
  | [], key, value => [(key, value)]
  | (name, old) :: rest, key, value =>
      if name = key then (key, value) :: rest else (name, old) :: put rest key value

def erase (entries : List (κ × α)) (key : κ) : List (κ × α) :=
  entries.filter fun entry => entry.1 ≠ key

/-- The pairs of a list of which the last of each key counts. -/
def ofList (entries : List (κ × α)) : List (κ × α) :=
  entries.foldl (fun built entry => put built entry.1 entry.2) []

end OneShot.Assoc
