import OneShot.Queue.Clock

/-!
# Deadlines

A deadline is the moment by which a pass has to be over.  Before each call the
pass asks how much time is left for it.
-/

namespace OneShot

variable {τ ω : Type} [Add τ] [Sub τ] [OfNat τ 0] [LE τ] [DecidableLE τ]

/-- The moment by which work has to be over, if there is one. -/
structure Deadline (τ : Type) where
  expiresAt : Option τ := none

/-- A deadline that has passed. -/
structure Expired where
  deriving DecidableEq

namespace Deadline

/-- The deadline a number of seconds from now. -/
def after [Clock ω τ] (seconds : Option τ) (state : ω) : Deadline τ × ω :=
  match seconds with
  | none => ({}, state)
  | some duration =>
      let (now, state) := Clock.read state
      ({ expiresAt := some (now + duration) }, state)

/-- The time left, none if unbounded; the clock is read only where there is a
moment to hold it against. -/
def remaining [Clock ω τ] (deadline : Deadline τ) (state : ω) :
    Except Expired (Option τ) × ω :=
  match deadline.expiresAt with
  | none => (.ok none, state)
  | some moment =>
      let (now, state) := Clock.read state
      let left := moment - now
      (if left ≤ 0 then .error {} else .ok (some left), state)

end Deadline

end OneShot
