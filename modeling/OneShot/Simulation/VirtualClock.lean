import OneShot.Calendar.DateTime
import OneShot.Calendar.Duration
import OneShot.Queue.Clock

/-!
# Virtual time

A simulation has one clock: seconds that run forward and the moment on the
wall advance together, and only when a step says so or somebody sleeps.  The
readings of the forward clock may be scripted; the last one then stays.
-/

namespace OneShot.Simulation

open Calendar

/-- The clock of a simulation, and the sleeps since the last look at them. -/
structure VirtualClock where
  monotonic : Float
  wall : Int
  readings : List Float := []
  sleeps : List (Option Float) := []

namespace VirtualClock

def advance (clock : VirtualClock) (seconds : Float) : VirtualClock :=
  { clock with
    monotonic := clock.monotonic + seconds
    wall := clock.wall + microsOfSeconds seconds }

def now (clock : VirtualClock) : DateTime :=
  DateTime.ofInstant clock.wall

def reading (clock : VirtualClock) : Float × VirtualClock :=
  match clock.readings with
  | [] => (clock.monotonic, clock)
  | [last] => (last, clock)
  | next :: rest => (next, { clock with readings := rest })

/-- Sleep: the sleep is noted, and time passes unless it is without end. -/
def sleep (duration : Option Float) (clock : VirtualClock) : VirtualClock :=
  let noted := { clock with sleeps := clock.sleeps ++ [duration] }
  match duration with
  | some seconds => noted.advance seconds
  | none => noted

instance : Clock VirtualClock Float where
  read := reading
  sleep := sleep
  ownMoves clock := clock.readings.length

end VirtualClock

end OneShot.Simulation
