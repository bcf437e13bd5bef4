import OneShot.Broadcast
import OneShot.Queue.Dispatch
import OneShot.Reconcile.Pass
import OneShot.Runner.Pool
import OneShot.Runner.Programs
import OneShot.Settings.Controller
import OneShot.Simulation.Bench
import OneShot.Simulation.Dispatcher
import OneShot.Store.Basic

/-!
# A world

A store, a controller and a task runner on one virtual clock.  Changes of the
store are told to an observer, and to the controller and the runner while they
have subscribed.  Nothing runs by itself: every move of the world is a function
of it, so that any order of moves can be tried.

The controller and the runner reach the store over a bench; moves that stand
for other clients reach it directly.
-/

namespace OneShot.Simulation

open Calendar

/-- Those who are told of changes. -/
inductive Listener where
  | observer
  | controller
  | runner
  deriving DecidableEq

/-- How commands end. -/
inductive Processes where
  /-- One after the other as scripted, and with success after the last. -/
  | scripted (ends : List Run.ProcessEnd)
  /-- As the programs at hand do. -/
  | live

/-- The settings of a world. -/
structure Terms where
  policy : DispatchPolicy Float
  /-- Whether the store tells the controller of changes. -/
  notified : Bool
  maxAttempts : Nat

/-- A store with its clients, on one clock. -/
structure World where
  terms : Terms
  bench : Bench
  store : Store := {}
  broadcast : Broadcast Listener := ⟨[.observer]⟩
  /-- Whether the controller, or the runner, holds a subscription to take back. -/
  watching : Bool := false
  picking : Bool := false
  queue : WorkQueue ObjectKey Float
  pool : JobPool := {}
  processes : Processes
  /-- What the observer was told, and the commands started, since the last look. -/
  events : List ChangeEvent := []
  commands : List (List String) := []

namespace World

def policyOf (settings : ControllerSettings) : DispatchPolicy Float :=
  { timeout := settings.timeout
    conflictDelay := settings.conflictDelay
    maxRetries := settings.maxRetries.map Int.toNat }

/-- A world with these settings, if the runner takes its number of attempts. -/
def ofSettings (settings : ControllerSettings) (notified : Bool) (maxAttempts : Int)
    (processes : Processes) (bench : Bench) : Except Fault World :=
  (Run.attemptLimit maxAttempts).map fun maxAttempts =>
    { terms := { policy := policyOf settings, notified, maxAttempts }
      bench
      queue := { limiter := ⟨settings.backoffBase, settings.backoffLimit, []⟩ }
      processes }

instance : Clock World Float where
  read world :=
    let (now, clock) := world.bench.clock.reading
    (now, { world with bench := { world.bench with clock } })
  sleep duration world :=
    { world with bench := { world.bench with clock := world.bench.clock.sleep duration } }
  ownMoves world := world.bench.clock.readings.length

def now (world : World) : DateTime :=
  world.bench.clock.now

def advance (world : World) (seconds : Float) : World :=
  { world with bench := { world.bench with clock := world.bench.clock.advance seconds } }

/-! ## Changes and those who are told -/

/-- The controller puts the commands that a change concerns on its queue. -/
def noticeChange (world : World) (event : ChangeEvent) : World :=
  { world with queue := event.affected.foldl WorkQueue.add world.queue }

/-- The runner asks for a job for a new task. -/
def noticeTask (world : World) (event : ChangeEvent) : World :=
  { world with pool := world.pool.handle event }

def tell (listener : Listener) (event : ChangeEvent) (world : World) : World :=
  match listener with
  | .observer => { world with events := world.events ++ [event] }
  | .controller => world.noticeChange event
  | .runner => world.noticeTask event

/-- Tell everybody who has subscribed of some changes. -/
def publish (world : World) (events : List ChangeEvent) : World :=
  events.foldl (fun world event => world.broadcast.publish tell event world) world

/-- Carry out a transaction of the store, and tell of its changes. -/
def transact {α : Type} (world : World) (transaction : Store → DateTime → Effect α) :
    Except Fault α × World :=
  let effect := transaction world.store world.now
  (effect.answer, { world with store := effect.store }.publish effect.events)

def direct : Client World Float := fun call _ world =>
  world.transact fun store now => store.serve now call

def benched : Client World Float := fun call patience world =>
  match world.bench.meet call patience with
  | (some fault, bench) => (.error fault, { world with bench })
  | (none, bench) => direct call patience { world with bench }

/-! ## The controller -/

/-- Queue every scheduled command in the store; the number of them. -/
def syncAll (world : World) : Except Fault Nat × World :=
  match benched (.listAts none) .unstated world with
  | (.error fault, world) => (.error fault, world)
  | (.ok (ats : List At), world) =>
      (.ok ats.length,
        { world with queue := ats.foldl (fun queue resource => queue.add resource.key) world.queue })

/-- Start the controller: subscribe, then queue everything once. -/
def startController (world : World) : Except Fault Unit × World :=
  let world :=
    if world.terms.notified then
      { world with broadcast := world.broadcast.subscribe .controller, watching := true }
    else world
  let (count, world) := world.syncAll
  (count.map fun _ => (), world)

/-- Stop the controller: take the subscription back and drain the queue. -/
def stopController (world : World) (timeout : Option Float) : WorkQueue.Drained × World :=
  let world :=
    if world.watching then
      { world with broadcast := world.broadcast.unsubscribe .controller, watching := false }
    else world
  let (drained, queue, world) := world.queue.shutDown true timeout world
  (drained, { world with queue })

/-- Make a pass over a key for the dispatcher.  The queue travels with the
world, because the pass can change the store and so add keys. -/
def pass (key : ObjectKey) (deadline : Deadline Float)
    (state : WorkQueue ObjectKey Float × World) :
    PassOutcome Float × WorkQueue ObjectKey Float × World :=
  let (queue, world) := state
  let (answer, world) := Pass.run benched now deadline key { world with queue }
  let outcome :=
    match answer with
    | .ok result => outcomeOfDelay result.requeueAfter
    | .error fault => outcomeOfFault fault
  (outcome, world.queue, world)

def processNext (world : World) (timeout : Option Float) : WorkQueue.Handled × World :=
  let (handled, queue, world) :=
    WorkQueue.processNext world.terms.policy pass timeout world.queue world
  (handled, { world with queue })

/-- Let a worker process the keys that are ready, up to a limit; the number of
them. -/
def processAll (world : World) : (limit : Nat) → Nat × World
  | 0 => (0, world)
  | limit + 1 =>
      match world.processNext (some 0) with
      | (.yes, world) =>
          let (count, world) := processAll world limit
          (count + 1, world)
      | (_, world) => (0, world)

/-! ## The task runner -/

def launch : Run.Launcher World := fun command world =>
  match world.processes with
  | .live => (Programs.launch command, world)
  | .scripted ends =>
      (ends.head?.getD (.exited 0 none),
        { world with
          processes := .scripted (ends.drop 1)
          commands := world.commands ++ [command] })

/-- Start the runner: subscribe, then ask for jobs for the tasks that wait. -/
def startRunner (world : World) : Except Fault Unit × World :=
  let world :=
    { world with broadcast := world.broadcast.subscribe .runner, picking := true }
  match benched (.listTasks none) .unstated world with
  | (.error fault, world) => (.error fault, world)
  | (.ok tasks, world) => (.ok (), { world with pool := world.pool.submitPending tasks })

def stopRunner (world : World) : World :=
  let world :=
    if world.picking then
      { world with broadcast := world.broadcast.unsubscribe .runner, picking := false }
    else world
  { world with pool := world.pool.stop }

def runTask (world : World) (key : ObjectKey) : Except Fault (Option TaskPhase) × World :=
  Run.run benched launch world.terms.maxAttempts key world

/-- Run the oldest job, if there is one. -/
def runJob? (world : World) : Option (Except Fault (Option TaskPhase) × World) :=
  world.pool.begin?.map fun (key, pool) =>
    let (ended, world) := runTask { world with pool } key
    (Run.jobEnd ended, { world with pool := world.pool.release key })

/-! ## Running by itself -/

/-- Let the workers and the runner go on as long as there is something to do
at this moment. -/
def settle (world : World) : (turns : Nat) → World
  | 0 => world
  | turns + 1 =>
      let (handled, world) := world.processAll 1
      match world.runJob? with
      | some (_, world) => settle world turns
      | none => if handled = 0 then world else settle world turns

/-- Create some scheduled commands, and leave aside what cannot be created. -/
def createAll (world : World) (ats : List At) : World :=
  ats.foldl (fun world resource => (direct (.createAt resource) .unstated world).2) world

/-- Run the controller and the runner over commands that are there before the
start and commands that come after it, until there is nothing left to do. -/
def runThrough (world : World) (before during : List At) (turns : Nat) : World :=
  let world := (world.createAll before).startRunner.2
  (world.startController.2.createAll during).settle turns

/-! ## Looking -/

def clearNotes (world : World) : World :=
  { world with
    events := []
    commands := []
    bench :=
      { world.bench with notes := [], clock := { world.bench.clock with sleeps := [] } } }

end World

end OneShot.Simulation
