import OneShot.Client
import OneShot.Queue.Deadline
import OneShot.Resource.Derived

/-!
# One pass over a scheduled command

A pass starts from a fresh read and is safe to repeat.  While the command is
not due it asks to be made again; once it is due it looks for the task, creates
it if there is none, and when the task has ended the command is done.  The new
phase is stored once, at the end.

The pass is a machine of four stages.  Each stage makes one call, and
`Stage.next` says from the answer what follows, so that any number of passes
can be interleaved with other clients between their calls.
-/

namespace OneShot.Pass

open Calendar

/-- What a pass is about to do. -/
inductive Stage where
  /-- Read the command. -/
  | read (key : ObjectKey)
  /-- Look for the task of a command that is due. -/
  | findTask (resource : At)
  /-- Create the task of a command that has none. -/
  | launch (resource : At)
  /-- Store the phase that a command has reached. -/
  | store (resource : At) (reached : AtPhase)
  deriving Repr, DecidableEq

def inPhase (resource : At) (phase : AtPhase) : At :=
  { resource with phase := phase.text }

def Stage.call : Stage → Call
  | read key => .getAt key
  | findTask resource => .getTask resource.taskKey
  | launch resource => .createTask resource.newTask
  | store resource reached => .updateAtStatus (inPhase resource reached)

/-- The result of a pass that went through: after how many microseconds to
make it again, if at all. -/
structure Result where
  requeueAfter : Option Int := none
  deriving Repr, DecidableEq

def Result.requeue (result : Result) : Bool :=
  result.requeueAfter.any (0 < ·)

/-- What follows from the answer to a call. -/
inductive Progress where
  | goOn (stage : Stage)
  | finished (result : Result)
  | failed (fault : Fault)
  deriving Repr, DecidableEq

/-- Hold a new phase against the order of phases before it is stored. -/
def checkForward (resource : At) (previous : String) : Except Fault Unit :=
  if AtPhase.isForward previous resource.phase then .ok ()
  else .error (.phase (.backward resource.key previous resource.phase))

/-- The phase in which a pass starts: an unset phase counts as waiting. -/
def startPhase (stored : String) : String :=
  if stored.isEmpty then AtPhase.pending.text else stored

/-- End a pass in a phase: it is stored unless the pass started in it. -/
def reach (resource : At) (reached : AtPhase) : Progress :=
  if reached.text = startPhase resource.phase then .finished {}
  else
    match checkForward (inPhase resource reached) resource.phase with
    | .ok () => .goOn (.store resource reached)
    | .error fault => .failed fault

/-- What follows for a command that waits for its schedule. -/
def waitOrLaunch (resource : At) (now : DateTime) : Progress :=
  match Schedule.delay resource.spec.schedule now with
  | .error (.malformed fault) => .failed (.schedule (.malformed fault))
  | .error .outOfCalendar => .failed (.other .outOfRange)
  | .ok delay =>
      if 0 < delay then .finished { requeueAfter := some delay }
      else .goOn (.findTask resource)

/-- What follows from the read of a command. -/
def afterRead (now : DateTime) : Except Fault At → Progress
  | .error fault => if fault.isNotFound then .finished {} else .failed fault
  | .ok resource =>
      match AtPhase.ofText? resource.phase with
      | some .unset | some .pending => waitOrLaunch resource now
      | some .running => .goOn (.findTask resource)
      | some .done | none => .finished {}

/-- What follows from the look for the task. -/
def afterFindTask (resource : At) : Except Fault Task → Progress
  | .error fault => if fault.isNotFound then .goOn (.launch resource) else .failed fault
  | .ok task =>
      if task.status.phase.isTerminal then reach resource .done
      else reach resource .running

/-- What follows from the creation of the task.  A task that another pass
created meanwhile is as good. -/
def afterLaunch (resource : At) : Except Fault Task → Progress
  | .error fault => if fault.isAlreadyExists then reach resource .running else .failed fault
  | .ok _ => reach resource .running

def afterStore : Except Fault At → Progress
  | .error fault => .failed fault
  | .ok _ => .finished {}

/-- What follows from the answer to the call of a stage, at a moment. -/
def Stage.next (now : DateTime) :
    (stage : Stage) → Except Fault stage.call.Reply → Progress
  | read _, answer => afterRead now answer
  | findTask resource, answer => afterFindTask resource answer
  | launch resource, answer => afterLaunch resource answer
  | store _ _, answer => afterStore answer

/-! ## Running a pass to its end -/

/-- The number of stages that can still follow. -/
def Stage.height : Stage → Nat
  | read _ => 3
  | findTask _ => 2
  | launch _ => 1
  | store _ _ => 0

theorem reach_height {resource : At} {reached : AtPhase} {stage : Stage}
    (h : reach resource reached = .goOn stage) : stage.height = 0 := by
  unfold reach at h
  split at h
  · cases h
  · split at h
    · cases h; rfl
    · cases h

theorem waitOrLaunch_height {resource : At} {now : DateTime} {stage : Stage}
    (h : waitOrLaunch resource now = .goOn stage) : stage.height = 2 := by
  unfold waitOrLaunch at h
  split at h
  · cases h
  · cases h
  · split at h
    · cases h
    · cases h; rfl

theorem Stage.next_height {now : DateTime} {stage following : Stage}
    {answer : Except Fault stage.call.Reply}
    (h : stage.next now answer = .goOn following) : following.height < stage.height := by
  cases stage with
  | read key =>
      simp only [next] at h
      unfold afterRead at h
      split at h
      · split at h <;> cases h
      · split at h
        · rw [waitOrLaunch_height h]; simp [height]
        · rw [waitOrLaunch_height h]; simp [height]
        · cases h; simp [height]
        · cases h
        · cases h
  | findTask resource =>
      simp only [next] at h
      unfold afterFindTask at h
      split at h
      · split at h
        · cases h; simp [height]
        · cases h
      · split at h
        · rw [reach_height h]; simp [height]
        · rw [reach_height h]; simp [height]
  | launch resource =>
      simp only [next] at h
      unfold afterLaunch at h
      split at h
      · split at h
        · rw [reach_height h]; simp [height]
        · cases h
      · rw [reach_height h]; simp [height]
  | store resource reached =>
      simp only [next] at h
      unfold afterStore at h
      split at h <;> cases h

variable {σ τ : Type} [Add τ] [Sub τ] [OfNat τ 0] [LE τ] [DecidableLE τ] [Clock σ τ]

/-- Run a pass from a stage on.  Each call gets the time that is left until the
deadline. -/
def runFrom (client : Client σ τ) (now : σ → DateTime) (deadline : Deadline τ)
    (stage : Stage) (state : σ) : Except Fault Result × σ :=
  match deadline.remaining state with
  | (.error _, state) => (.error (.timedOut .expired), state)
  | (.ok limit, state) =>
      let (answer, state) := client stage.call (.stated limit) state
      match _h : stage.next (now state) answer with
      | .goOn following => runFrom client now deadline following state
      | .finished result => (.ok result, state)
      | .failed fault => (.error fault, state)
termination_by stage.height
decreasing_by exact Stage.next_height _h

def run (client : Client σ τ) (now : σ → DateTime) (deadline : Deadline τ)
    (key : ObjectKey) (state : σ) : Except Fault Result × σ :=
  runFrom client now deadline (.read key) state

/-- Store the phase of a command that was read in another one. -/
def storeStatus (client : Client σ τ) (resource : At) (previous : String)
    (limit : Option τ) (state : σ) : Except Fault At × σ :=
  match checkForward resource previous with
  | .error fault => (.error fault, state)
  | .ok () => client (.updateAtStatus resource) (.stated limit) state

end OneShot.Pass
