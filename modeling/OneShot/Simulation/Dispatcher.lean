import OneShot.Fault
import OneShot.Queue.Dispatch
import OneShot.Simulation.VirtualClock

/-!
# A dispatcher with scripted passes

The worker of a dispatcher is tried with passes that follow a script: each
puts keys on the queue, lets time pass, asks how much time is left, and ends as
the script says.
-/

namespace OneShot.Simulation

/-- What one scripted pass does, in this order. -/
structure ScriptedPass where
  again : List ObjectKey := []
  elapse : Float := 0.0
  asksTimeLeft : Bool := false
  fault : Option Fault := none
  /-- Microseconds until the next pass. -/
  followUp : Option Int := none

/-- What a pass was given, and the time it found left. -/
structure PassNote where
  key : ObjectKey
  expiresAt : Option Float
  timeLeft : Option (Option Float) := none

/-- A worker with a script. -/
structure Worker where
  clock : VirtualClock
  script : List ScriptedPass
  notes : List PassNote := []

/-- Whether a fault counts as a conflict for the queue. -/
def outcomeOfFault (fault : Fault) : PassOutcome Float :=
  if fault.isConflict then .conflict else .failed

/-- The outcome of a pass that may ask for another one. -/
def outcomeOfDelay (followUp : Option Int) : PassOutcome Float :=
  match followUp with
  | some micros =>
      .finished (if 0 < micros then some (Calendar.secondsOfMicros micros) else none)
  | none => .finished none

namespace Worker

instance : Clock Worker Float where
  read worker :=
    let (now, clock) := worker.clock.reading
    (now, { worker with clock })
  sleep duration worker := { worker with clock := worker.clock.sleep duration }
  ownMoves worker := worker.clock.readings.length

def pass (key : ObjectKey) (deadline : Deadline Float)
    (state : WorkQueue ObjectKey Float × Worker) :
    PassOutcome Float × WorkQueue ObjectKey Float × Worker :=
  let (queue, worker) := state
  let entry := worker.script.head?.getD {}
  let queue := entry.again.foldl WorkQueue.add queue
  let worker :=
    { worker with script := worker.script.drop 1, clock := worker.clock.advance entry.elapse }
  let note : PassNote := { key, expiresAt := deadline.expiresAt }
  let ended : PassOutcome Float :=
    match entry.fault with
    | some fault => outcomeOfFault fault
    | none => outcomeOfDelay entry.followUp
  if entry.asksTimeLeft then
    match deadline.remaining worker with
    | (.error _, worker) => (.failed, queue, { worker with notes := worker.notes ++ [note] })
    | (.ok left, worker) =>
        (ended, queue,
          { worker with notes := worker.notes ++ [{ note with timeLeft := some left }] })
  else (ended, queue, { worker with notes := worker.notes ++ [note] })

end Worker

end OneShot.Simulation
