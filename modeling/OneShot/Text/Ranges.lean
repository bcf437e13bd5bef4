/-!
# Sets of characters as ranges of code points

A property of characters is given as closed ranges of code points, ascending
and apart, and looked up by `Ranges.contains`.
-/

namespace OneShot.Text

/-- Closed ranges of code points. -/
abbrev Ranges := List (Nat × Nat)

/-- Whether a character lies in one of the ranges. -/
def Ranges.contains (ranges : Ranges) (c : Char) : Bool :=
  ranges.any fun range => range.1 ≤ c.toNat && c.toNat ≤ range.2

/-- Ranges are well formed when each is nonempty and lies strictly above the
one before it. -/
def Ranges.WellFormed : Ranges → Prop
  | [] => True
  | [range] => range.1 ≤ range.2
  | range :: next :: rest =>
      range.1 ≤ range.2 ∧ range.2 + 1 < next.1 ∧
        Ranges.WellFormed (next :: rest)

end OneShot.Text
