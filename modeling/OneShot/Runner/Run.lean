import OneShot.Client
import OneShot.Text.Blank

/-!
# One run of a task

A run reads its task, marks it as running, starts the command up to a number
of times, and reports the outcome.  A task that is gone or that has been
started before is left alone.

The run is a machine of four stages; `Stage.next` says from the answer to the
step of a stage what follows.
-/

namespace OneShot.Run

/-- What starting a command can lead to. -/
inductive ProcessEnd where
  /-- The command ran and left an exit code and the text of its error output. -/
  | exited (code : Int) (errors : Option String)
  /-- The command could not be started. -/
  | notStarted (text : String)
  /-- The start failed in a way that nobody foresaw. -/
  | crashed (fault : Fault)
  deriving Repr, DecidableEq

/-- What a run is about to do. -/
inductive Stage where
  | read (key : ObjectKey)
  /-- Mark the task as running. -/
  | mark (key : ObjectKey) (task : Task)
  /-- Start the command; some attempts may follow this one. -/
  | attempt (key : ObjectKey) (task : Task) (further : Nat)
  /-- Store the outcome. -/
  | report (key : ObjectKey) (status : TaskStatus)
  deriving Repr, DecidableEq

/-- The step of a stage: a call, or the start of a command. -/
inductive Action where
  | call (call : Call)
  | start (command : List String)
  deriving Repr, DecidableEq

/-- The answer to a step. -/
abbrev Action.Answer : Action → Type
  | call c => Except Fault c.Reply
  | start _ => ProcessEnd

def Stage.action : Stage → Action
  | read key => .call (.getTask key)
  | mark key _ => .call (.updateTaskStatus key { phase := .running })
  | attempt _ task _ => .start task.container.command
  | report key status => .call (.updateTaskStatus key status)

/-- What follows from an answer.  A run ends with the phase that it stored, or
with none if it left the task alone. -/
inductive Progress where
  | goOn (stage : Stage)
  | finished (phase : Option TaskPhase)
  | failed (fault : Fault)
  deriving Repr, DecidableEq

/-- The number of attempts that a runner is set up with, if it takes the one that is asked
for. -/
def attemptLimit (asked : Int) : Except Fault Nat :=
  if asked < 1 then .error (.other (.value "max_attempts must be at least 1"))
  else .ok asked.toNat

theorem attemptLimit_eq_ok {asked : Int} {limit : Nat} :
    attemptLimit asked = .ok limit ↔ 1 ≤ limit ∧ asked = limit := by
  unfold attemptLimit
  split
  next hfew =>
    constructor
    · intro hlimit
      cases hlimit
    · rintro ⟨hlimit, rfl⟩
      omega
  next hmany =>
    rw [Except.ok.injEq]
    omega

/-- How often the command of a task may be started. -/
def attemptsFor (task : Task) (maxAttempts : Nat) : Nat :=
  match task.restartPolicy with
  | .never => 1
  | _ => maxAttempts

/-- The message of a command that failed: its error output, else its code. -/
def failureMessage (code : Int) (errors : Option String) : String :=
  let said := Text.trim (errors.getD "")
  if said.isEmpty then "exit status " ++ Text.intText code else said

/-- What follows from the read of a task. -/
def afterRead (key : ObjectKey) : Except Fault Task → Progress
  | .error fault => if fault.isNotFound then .finished none else .failed fault
  | .ok task =>
      if task.status.phase = .pending then .goOn (.mark key task) else .finished none

/-- What follows once a task is marked as running. -/
def afterMark (maxAttempts : Nat) (key : ObjectKey) (task : Task) :
    Except Fault Task → Progress
  | .error fault => .failed fault
  | .ok _ => .goOn (.attempt key task (attemptsFor task maxAttempts - 1))

def afterAttempt (key : ObjectKey) (task : Task) (further : Nat) : ProcessEnd → Progress
  | .exited code errors =>
      if code = 0 then .goOn (.report key { phase := .succeeded })
      else
        match further with
        | left + 1 => .goOn (.attempt key task left)
        | 0 =>
            .goOn (.report key
              { phase := .failed
                reason := some "Error"
                message := some (failureMessage code errors) })
  | .notStarted text =>
      .goOn (.report key
        { phase := .failed, reason := some "StartError", message := some text })
  | .crashed fault => .failed fault

def afterReport (status : TaskStatus) : Except Fault Task → Progress
  | .error fault => .failed fault
  | .ok _ => .finished (some status.phase)

/-- What follows from the answer to the step of a stage. -/
def Stage.next (maxAttempts : Nat) : (stage : Stage) → stage.action.Answer → Progress
  | read key, answer => afterRead key answer
  | mark key task, answer => afterMark maxAttempts key task answer
  | attempt key task further, answer => afterAttempt key task further answer
  | report _ status, answer => afterReport status answer

/-! ## Running a task to its end -/

/-- The number of stages that can still follow. -/
def Stage.height (maxAttempts : Nat) : Stage → Nat
  | read _ => maxAttempts + 4
  | mark _ _ => maxAttempts + 3
  | attempt _ _ further => further + 1
  | report _ _ => 0

theorem afterAttempt_height {key : ObjectKey} {task : Task} {further : Nat}
    {ended : ProcessEnd} {following : Stage} {maxAttempts : Nat}
    (h : afterAttempt key task further ended = .goOn following) :
    following.height maxAttempts < further + 1 := by
  unfold afterAttempt at h
  split at h
  · split at h
    · cases h; simp [Stage.height]
    · split at h
      · cases h; simp [Stage.height]
      · cases h; simp [Stage.height]
  · cases h; simp [Stage.height]
  · cases h

theorem Stage.next_height {maxAttempts : Nat} {stage following : Stage}
    {answer : stage.action.Answer} (h : stage.next maxAttempts answer = .goOn following) :
    following.height maxAttempts < stage.height maxAttempts := by
  cases stage with
  | read key =>
      simp only [next] at h
      unfold afterRead at h
      split at h
      · split at h <;> cases h
      · split at h
        · cases h; simp [height]
        · cases h
  | mark key task =>
      simp only [next] at h
      unfold afterMark at h
      split at h
      · cases h
      · cases h
        simp only [height, attemptsFor]
        split <;> omega
  | attempt key task further =>
      simp only [next] at h
      exact afterAttempt_height h
  | report key status =>
      simp only [next] at h
      unfold afterReport at h
      split at h <;> cases h

variable {σ τ : Type}

/-- How commands are started. -/
abbrev Launcher (σ : Type) := List String → σ → ProcessEnd × σ

def perform (client : Client σ τ) (launch : Launcher σ) :
    (action : Action) → σ → action.Answer × σ
  | .call call, state => client call .unstated state
  | .start command, state => launch command state

def runFrom (client : Client σ τ) (launch : Launcher σ) (maxAttempts : Nat) (stage : Stage)
    (state : σ) : Except Fault (Option TaskPhase) × σ :=
  let (answer, state) := perform client launch stage.action state
  match _h : stage.next maxAttempts answer with
  | .goOn following => runFrom client launch maxAttempts following state
  | .finished phase => (.ok phase, state)
  | .failed fault => (.error fault, state)
termination_by stage.height maxAttempts
decreasing_by exact Stage.next_height _h

def run (client : Client σ τ) (launch : Launcher σ) (maxAttempts : Nat) (key : ObjectKey)
    (state : σ) : Except Fault (Option TaskPhase) × σ :=
  runFrom client launch maxAttempts (.read key) state

/-- A job swallows the faults that clients of the resources report; any other
fault crashes it. -/
def jobEnd : Except Fault (Option TaskPhase) → Except Fault (Option TaskPhase)
  | .ok phase => .ok phase
  | .error fault => if fault.isOfResources then .ok none else .error fault

end OneShot.Run
