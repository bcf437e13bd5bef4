import OneShot.Wire.Fault

/-!
# Checked readings

The reading of a payload gives a value, or all the faults that were found: two
readings side by side report the faults of both.
-/

namespace OneShot.Wire

/-- A value, or the faults of a payload. -/
inductive Checked (α : Type) where
  | valid (value : α)
  | invalid (faults : List Fault)

namespace Checked

variable {α β : Type}

def fault (kind : FaultKind) : Checked α :=
  .invalid [⟨[], kind⟩]

def map (f : α → β) : Checked α → Checked β
  | valid value => valid (f value)
  | invalid faults => invalid faults

/-- Apply a function that was read beside its argument. -/
def apply : Checked (α → β) → Checked α → Checked β
  | valid f, valid value => valid (f value)
  | valid _, invalid faults => invalid faults
  | invalid faults, valid _ => invalid faults
  | invalid first, invalid second => invalid (first ++ second)

instance : Functor Checked where
  map := map

instance : Applicative Checked where
  pure := valid
  seq f value := apply f (value ())

/-- A reading of the part behind a step. -/
def under (step : Step) : Checked α → Checked α
  | valid value => valid value
  | invalid faults => invalid (faults.map fun fault => { fault with path := step :: fault.path })

def value? : Checked α → Option α
  | valid value => some value
  | invalid _ => none

/-- Read the items of a list side by side, from a position on. -/
def itemsFrom {γ : Type} (read : γ → Checked α) : Nat → List γ → Checked (List α)
  | _, [] => valid []
  | position, item :: rest =>
      apply (map List.cons ((read item).under (.index position)))
        (itemsFrom read (position + 1) rest)

end Checked

end OneShot.Wire
