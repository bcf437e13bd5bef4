import OneShot.Assoc
import OneShot.Client
import OneShot.Simulation.VirtualClock

/-!
# The bench

Clients are tried on a bench: each call is noted, spends the time that the
script gives to calls of its name, and meets the next of the faults scripted
for that name before it reaches the client proper.
-/

namespace OneShot.Simulation

/-- A call as it was noted. -/
structure CallNote where
  name : String
  patience : Patience Float

/-- The clock, the script and the notes. -/
structure Bench where
  clock : VirtualClock
  faults : List (String × List (Option Fault)) := []
  latency : List (String × Float) := []
  notes : List CallNote := []

namespace Bench

/-- Note a call, let its time pass, and take the next fault of its script. -/
def meet (bench : Bench) (call : Call) (patience : Patience Float) : Option Fault × Bench :=
  let name := call.name
  let clock :=
    match Assoc.get? bench.latency name with
    | some seconds => bench.clock.advance seconds
    | none => bench.clock
  let bench := { bench with clock, notes := bench.notes ++ [⟨name, patience⟩] }
  match Assoc.get? bench.faults name with
  | some (next :: rest) => (next, { bench with faults := Assoc.put bench.faults name rest })
  | _ => (none, bench)

def script (bench : Bench) (name : String) (faults : List (Option Fault)) : Bench :=
  { bench with faults := Assoc.put bench.faults name faults }

end Bench

end OneShot.Simulation
