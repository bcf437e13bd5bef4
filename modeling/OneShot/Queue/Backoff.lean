import OneShot.Assoc

/-!
# Exponential backoff

Each key has a count of failures since it was last forgotten.  The delay after
a failure is the base doubled once per earlier failure, capped at a maximum.
-/

namespace OneShot

variable {κ τ : Type} [DecidableEq κ] [Add τ] [LT τ] [DecidableLT τ]

/-- The delays and the failures counted so far. -/
structure Backoff (κ τ : Type) where
  base : τ
  maximum : τ
  failures : List (κ × Nat) := []

namespace Backoff

def doubled (quantity : τ) : Nat → τ
  | 0 => quantity
  | times + 1 => doubled (quantity + quantity) times

/-- From this count of failures on the delay is the maximum. -/
def longStreak : Nat := 64

/-- The delay after a number of earlier failures. -/
def delay (backoff : Backoff κ τ) (earlier : Nat) : τ :=
  if longStreak ≤ earlier then backoff.maximum
  else
    let grown := doubled backoff.base earlier
    if backoff.maximum < grown then backoff.maximum else grown

/-- The failures of a key since it was last forgotten. -/
def count (backoff : Backoff κ τ) (key : κ) : Nat :=
  (Assoc.get? backoff.failures key).getD 0

/-- Count a failure of a key and give its delay. -/
def fail (backoff : Backoff κ τ) (key : κ) : τ × Backoff κ τ :=
  let earlier := backoff.count key
  (backoff.delay earlier,
    { backoff with failures := Assoc.put backoff.failures key (earlier + 1) })

def forget (backoff : Backoff κ τ) (key : κ) : Backoff κ τ :=
  { backoff with failures := Assoc.erase backoff.failures key }

end Backoff

end OneShot
