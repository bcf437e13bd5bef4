import Mathlib.Logic.Function.Basic

/-!
# Rows found by their keys

A table is a list of rows, and the first row with a key is the one that is
found under it.  A row that is put at the end is found if its key was free; a
change of the rows of one key that keeps their key is seen under that key and
under no other.  Both are said here once for tables of any rows.
-/

namespace OneShot.Keyed

variable {ρ κ : Type} [DecidableEq κ] {keyOf : ρ → κ} {rows : List ρ} {row : ρ} {key other : κ}

/-- The row that is found under a key. -/
def row? (keyOf : ρ → κ) (rows : List ρ) (key : κ) : Option ρ :=
  rows.find? fun row => keyOf row = key

/-- Change the rows of a key. -/
def changed (keyOf : ρ → κ) (key : κ) (change : ρ → ρ) (rows : List ρ) : List ρ :=
  rows.map fun row => if keyOf row = key then change row else row

theorem key_of_row? (hrow : row? keyOf rows key = some row) : keyOf row = key := by
  simpa using List.find?_some hrow

/-! ## A row at the end -/

theorem row?_append (rows : List ρ) (row : ρ) (key : κ) :
    row? keyOf (rows ++ [row]) key =
      (row? keyOf rows key).or (if keyOf row = key then some row else none) := by
  unfold row?
  rw [List.find?_append]
  by_cases hkey : keyOf row = key <;> simp [hkey]

theorem row?_append_self (hfree : row? keyOf rows key = none) (hkey : keyOf row = key) :
    row? keyOf (rows ++ [row]) key = some row := by
  rw [row?_append, hfree, Option.none_or, if_pos hkey]

theorem row?_append_eq_update (hfree : row? keyOf rows (keyOf row) = none) :
    row? keyOf (rows ++ [row]) = Function.update (row? keyOf rows) (keyOf row) (some row) := by
  refine Function.eq_update_iff.mpr ⟨row?_append_self hfree rfl, fun other hne => ?_⟩
  rw [row?_append, if_neg (Ne.symm hne), Option.or_none]

/-! ## A change of the rows of a key -/

variable {change : ρ → ρ} (hkey : ∀ row, keyOf (change row) = keyOf row)
include hkey

theorem row?_changed (rows : List ρ) (key other : κ) :
    row? keyOf (changed keyOf key change rows) other =
      (row? keyOf rows other).map fun row => if keyOf row = key then change row else row := by
  have hkept : ∀ row, keyOf (if keyOf row = key then change row else row) = keyOf row := by
    intro row
    split
    next => exact hkey row
    next => rfl
  unfold row? changed
  rw [List.find?_map]
  congr 2
  funext row
  rw [Function.comp_apply, hkept row]

theorem row?_changed_self (hrow : row? keyOf rows key = some row) :
    row? keyOf (changed keyOf key change rows) key = some (change row) := by
  rw [row?_changed hkey, hrow, Option.map_some, if_pos (key_of_row? hrow)]

theorem row?_changed_of_ne (hne : other ≠ key) :
    row? keyOf (changed keyOf key change rows) other = row? keyOf rows other := by
  rw [row?_changed hkey]
  cases hrow : row? keyOf rows other with
  | none => rfl
  | some row => rw [Option.map_some, if_neg ((key_of_row? hrow).trans_ne hne)]

theorem row?_changed_eq_update (hrow : row? keyOf rows key = some row) :
    row? keyOf (changed keyOf key change rows) =
      Function.update (row? keyOf rows) key (some (change row)) :=
  Function.eq_update_iff.mpr
    ⟨row?_changed_self hkey hrow, fun _ hne => row?_changed_of_ne hkey hne⟩

end OneShot.Keyed
