import OneShot.Queue.Backoff
import OneShot.Queue.Clock

/-!
# The work queue

Keys that need work wait in a queue that delivers each of them to one worker
at a time.  A key is

* *dirty* while it needs work: it is ready, or held back behind a copy that is
  in flight;
* *in flight* from its delivery until the worker reports that it is done;
* *waiting* while a later moment is agreed on for it.

The moments agreed on stand in a list by time.  An entry is not removed when
its key is superseded; it is passed over when its moment comes.
-/

namespace OneShot

variable {κ τ ω : Type} [DecidableEq κ]
variable [Add τ] [Sub τ] [OfNat τ 0] [BEq τ] [LT τ] [DecidableLT τ] [LE τ] [DecidableLE τ]

/-- A moment agreed on for a key. -/
structure Appointment (κ τ : Type) where
  moment : τ
  key : κ

/-- The state of the queue. -/
structure WorkQueue (κ τ : Type) where
  limiter : Backoff κ τ
  /-- Keys to deliver, the next one first. -/
  ready : List κ := []
  dirty : List κ := []
  inFlight : List κ := []
  waiting : List (κ × τ) := []
  /-- The moments agreed on, by time and then by age. -/
  agenda : List (Appointment κ τ) := []
  shuttingDown : Bool := false

/-- Put an appointment behind those of the same moment. -/
def Appointment.enter (entry : Appointment κ τ) :
    List (Appointment κ τ) → List (Appointment κ τ)
  | [] => [entry]
  | head :: rest =>
      if entry.moment < head.moment then entry :: head :: rest
      else head :: enter entry rest

namespace WorkQueue

/-! ## Adding -/

/-- Mark a key as dirty, and as ready unless a copy is in flight.  A key that
is dirty already stays as it is. -/
def markDirty (queue : WorkQueue κ τ) (key : κ) : WorkQueue κ τ :=
  if key ∈ queue.dirty then queue
  else
    { queue with
      dirty := key :: queue.dirty
      ready := if key ∈ queue.inFlight then queue.ready else queue.ready ++ [key] }

/-- Ask for work on a key now.  This supersedes a later moment. -/
def add (queue : WorkQueue κ τ) (key : κ) : WorkQueue κ τ :=
  if queue.shuttingDown then queue
  else { queue with waiting := Assoc.erase queue.waiting key }.markDirty key

/-- Agree on a moment for a key, unless an earlier one is agreed on. -/
def appoint (queue : WorkQueue κ τ) (key : κ) (moment : τ) : WorkQueue κ τ :=
  let settled :=
    match Assoc.get? queue.waiting key with
    | some current => decide (current ≤ moment)
    | none => false
  if settled then queue
  else
    { queue with
      waiting := Assoc.put queue.waiting key moment
      agenda := Appointment.enter ⟨moment, key⟩ queue.agenda }

/-- Ask for work on a key after a delay. -/
def addAfter [Clock ω τ] (queue : WorkQueue κ τ) (key : κ) (delay : τ) (state : ω) :
    WorkQueue κ τ × ω :=
  if delay ≤ 0 then (queue.add key, state)
  else if queue.shuttingDown then (queue, state)
  else
    let (now, state) := Clock.read state
    (queue.appoint key (now + delay), state)

/-- Count a failure of a key and ask for work on it after its backoff. -/
def addRateLimited [Clock ω τ] (queue : WorkQueue κ τ) (key : κ) (state : ω) :
    WorkQueue κ τ × ω :=
  let (delay, limiter) := queue.limiter.fail key
  { queue with limiter }.addAfter key delay state

def forget (queue : WorkQueue κ τ) (key : κ) : WorkQueue κ τ :=
  { queue with limiter := queue.limiter.forget key }

def numRequeues (queue : WorkQueue κ τ) (key : κ) : Nat :=
  queue.limiter.count key

/-! ## Delivering -/

/-- Keep an appointment whose moment has come, if it is still the one agreed
on for its key. -/
def keep (queue : WorkQueue κ τ) (entry : Appointment κ τ) : WorkQueue κ τ :=
  match Assoc.get? queue.waiting entry.key with
  | some moment =>
      if moment == entry.moment then
        let freed := { queue with waiting := Assoc.erase queue.waiting entry.key }
        if queue.shuttingDown then freed else freed.markDirty entry.key
      else queue
  | none => queue

/-- Go through the appointments whose moment has come. -/
def promoteFrom (now : τ) : List (Appointment κ τ) → WorkQueue κ τ → WorkQueue κ τ
  | [], queue => { queue with agenda := [] }
  | entry :: rest, queue =>
      if entry.moment ≤ now then promoteFrom now rest (queue.keep entry)
      else { queue with agenda := entry :: rest }

/-- Make the keys dirty whose moment has come. -/
def promote (queue : WorkQueue κ τ) (now : τ) : WorkQueue κ τ :=
  promoteFrom now queue.agenda queue

def deliver? (queue : WorkQueue κ τ) : Option (κ × WorkQueue κ τ) :=
  match queue.ready with
  | [] => none
  | key :: rest =>
      some (key,
        { queue with
          ready := rest
          inFlight := queue.inFlight.insert key
          dirty := queue.dirty.erase key })

/-- The smaller of two durations, the first if neither is smaller. -/
def sooner (first second : τ) : τ :=
  if second < first then second else first

/-- How long a worker that found nothing can sleep: until the next appointment
or its own deadline, and without end if there is neither. -/
def sleepLength (queue : WorkQueue κ τ) (deadline : Option τ) (now : τ) : Option τ :=
  let untilNext := queue.agenda.head?.map fun entry => entry.moment - now
  let untilDeadline := deadline.map fun moment => moment - now
  let shortest :=
    match untilNext, untilDeadline with
    | some next, some limit => some (sooner next limit)
    | some next, none => some next
    | none, limit => limit
  shortest.map fun duration => if duration < 0 then 0 else duration

/-- What a worker that asks for a key finds. -/
inductive Finding (κ τ : Type) where
  | delivered (key : κ)
  /-- The queue shuts down, or the worker's deadline has passed. -/
  | nothing
  /-- The worker sleeps before it looks again. -/
  | asleep (duration : Option τ)

def look [Clock ω τ] (queue : WorkQueue κ τ) (deadline : Option τ) (state : ω) :
    Finding κ τ × WorkQueue κ τ × ω :=
  if queue.shuttingDown then (.nothing, queue, state)
  else
    let (now, state) := Clock.read state
    let promoted := queue.promote now
    match promoted.deliver? with
    | some (key, rest) => (.delivered key, rest, state)
    | none =>
        match deadline with
        | none =>
            let (now, state) := Clock.read state
            (.asleep (promoted.sleepLength none now), promoted, state)
        | some moment =>
            let (now, state) := Clock.read state
            if moment ≤ now then (.nothing, promoted, state)
            else
              let (now, state) := Clock.read state
              (.asleep (promoted.sleepLength deadline now), promoted, state)

/-- What a worker that asks for a key ends up with. -/
inductive Receipt (κ : Type) where
  | delivered (key : κ)
  | nothing
  /-- No event that is known of would wake the worker. -/
  | never

/-- Look for a key until something comes of it, a number of times. -/
def getWithin [Clock ω τ] (deadline : Option τ) :
    Nat → WorkQueue κ τ → ω → Receipt κ × WorkQueue κ τ × ω
  | 0, queue, state => (.never, queue, state)
  | turns + 1, queue, state =>
      match queue.look deadline state with
      | (.delivered key, queue, state) => (.delivered key, queue, state)
      | (.nothing, queue, state) => (.nothing, queue, state)
      | (.asleep none, queue, state) => (.never, queue, Clock.sleep (none : Option τ) state)
      | (.asleep (some duration), queue, state) =>
          getWithin deadline turns queue (Clock.sleep (some duration) state)

/-- Enough looks for any worker: every sleep brings the clock to an appointment
or to the deadline, up to the rounding of one more sleep. -/
def enoughTurns [Clock ω τ] (queue : WorkQueue κ τ) (state : ω) : Nat :=
  2 * queue.agenda.length + Clock.ownMoves state + 4

/-- Get a key, within a timeout if one is given. -/
def get [Clock ω τ] (queue : WorkQueue κ τ) (timeout : Option τ) (state : ω) :
    Receipt κ × WorkQueue κ τ × ω :=
  let turns := queue.enoughTurns state
  match timeout with
  | none => getWithin none turns queue state
  | some duration =>
      let (now, state) := Clock.read state
      getWithin (some (now + duration)) turns queue state

/-- Report that the work on a key is done.  A key that became dirty meanwhile
is ready again. -/
def done (queue : WorkQueue κ τ) (key : κ) : WorkQueue κ τ :=
  { queue with
    inFlight := queue.inFlight.erase key
    ready := if key ∈ queue.dirty then queue.ready ++ [key] else queue.ready }

/-! ## Shutting down -/

/-- Whether a shutdown that waits for the keys in flight came to an end. -/
inductive Drained where
  | yes
  | no
  /-- Nothing would end the wait. -/
  | never
  deriving DecidableEq

/-- Accept no more work, and wait once for the keys in flight if asked to. -/
def shutDown [Clock ω τ] (queue : WorkQueue κ τ) (drain : Bool) (timeout : Option τ)
    (state : ω) : Drained × WorkQueue κ τ × ω :=
  let closed := { queue with shuttingDown := true }
  if !drain || closed.inFlight.isEmpty then (.yes, closed, state)
  else
    let state := Clock.sleep timeout state
    match timeout with
    | none => (.never, closed, state)
    | some _ => (.no, closed, state)

end WorkQueue

end OneShot
