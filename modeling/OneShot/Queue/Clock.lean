/-!
# Clocks

A clock shows moments that do not run backwards.  The state that a clock lives
in is read and slept on; a sleep may be without end.
-/

namespace OneShot

/-- A state `ω` with a clock that shows moments of type `τ`. -/
class Clock (ω : Type) (τ : outParam Type) where
  /-- The present moment; reading may move the clock. -/
  read : ω → τ × ω
  /-- Sleep for a duration, or without end. -/
  sleep : Option τ → ω → ω
  /-- How often the clock can still move of its own accord. -/
  ownMoves : ω → Nat

end OneShot
