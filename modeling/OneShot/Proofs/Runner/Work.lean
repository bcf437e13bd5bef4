import OneShot.Runner.Run
import OneShot.Proofs.Reconcile.Attempts
import OneShot.Proofs.Runner.Jobs
import OneShot.Proofs.Store.Tables

/-!
# A task runner among other clients

The workers of a runner go through the stages of their runs, one call or one
start of a process at a time.  In between other clients make calls, events are
heard, for the first time or once more, and jobs are asked for.  What one step
of a worker can lead to is listed here; the store is left alone, or the status
of the task is written under the key of the run.
-/

namespace OneShot

open Calendar

namespace Run

def Stage.key : Stage → ObjectKey
  | read key | mark key _ | attempt key _ _ | report key _ => key

/-- The status that a stage writes. -/
def Stage.written? : Stage → Option TaskStatus
  | mark _ _ => some { phase := .running }
  | report _ status => some status
  | read _ | attempt _ _ _ => none

/-- The task whose attempts are begun. -/
def Stage.launches : Stage → Progress → List Task
  | mark _ task, .goOn _ => [task]
  | _, _ => []

/-- Make the step of a stage in a store, where something may go wrong with a
call, and a process that is started ends in some way. -/
def Stage.work (stage : Stage) (now : DateTime) (mishap : Mishap) (ending : ProcessEnd)
    (store : Store) : stage.action.Answer × Store :=
  let client : Client Store Unit := fun call _ store =>
    ((store.attempt now call mishap).answer, (store.attempt now call mishap).store)
  perform client (fun _ store => (ending, store)) stage.action store

def Stage.progress (stage : Stage) (maxAttempts : Nat) (now : DateTime) (mishap : Mishap)
    (ending : ProcessEnd) (store : Store) : Progress × Store :=
  let (answer, store) := stage.work now mishap ending store
  (stage.next maxAttempts answer, store)

/-! ## What comes of a step -/

variable {store after : Store} {now : DateTime} {mishap : Mishap} {ending : ProcessEnd}
  {maxAttempts : Nat} {stage following : Stage}

theorem work_store (stage : Stage) (now : DateTime) (mishap : Mishap) (ending : ProcessEnd)
    (store : Store) :
    (stage.work now mishap ending store).2 = store ∨
      ∃ status, stage.written? = some status ∧
        (stage.work now mishap ending store).2 =
          (store.serve now (.updateTaskStatus stage.key status)).store := by
  cases stage with
  | read key =>
      left
      rcases store.attempt_store_cases now (.getTask key) mishap with hsame | hserved
      · exact hsame
      · exact hserved
  | mark key task =>
      rcases store.attempt_store_cases now (.updateTaskStatus key { phase := .running }) mishap with
        hsame | hserved
      · exact Or.inl hsame
      · exact Or.inr ⟨_, rfl, hserved⟩
  | attempt key task further => exact Or.inl rfl
  | report key status =>
      rcases store.attempt_store_cases now (.updateTaskStatus key status) mishap with
        hsame | hserved
      · exact Or.inl hsame
      · exact Or.inr ⟨_, rfl, hserved⟩

/-- What a run can go on with. -/
inductive GoesOn (store : Store) (mishap : Mishap) : Stage → Stage → Store → Prop where
  | found {key : ObjectKey} {task : Task} (hheard : mishap = .nothing)
      (hread : store.getTask key = .ok task) (hpending : task.status.phase = .pending) :
      GoesOn store mishap (.read key) (.mark key task) store
  | marked {key : ObjectKey} {task updated : Task} {further : Nat}
      (hdone : (store.updateTaskStatus key { phase := .running }).answer = .ok updated) :
      GoesOn store mishap (.mark key task) (.attempt key task further)
        (store.updateTaskStatus key { phase := .running }).store
  | again {key : ObjectKey} {task : Task} {further : Nat} :
      GoesOn store mishap (.attempt key task (further + 1)) (.attempt key task further) store
  | ended {key : ObjectKey} {task : Task} {further : Nat} {status : TaskStatus}
      (hterminal : status.phase.isTerminal = true) :
      GoesOn store mishap (.attempt key task further) (.report key status) store

theorem goesOn_of_afterAttempt {key : ObjectKey} {task : Task} {further : Nat}
    (hgo : afterAttempt key task further ending = .goOn following) :
    GoesOn store mishap (.attempt key task further) following store := by
  unfold afterAttempt at hgo
  split at hgo
  · split at hgo
    · cases hgo
      exact .ended rfl
    · split at hgo
      · cases hgo
        exact .again
      · cases hgo
        exact .ended rfl
  · cases hgo
    exact .ended rfl
  · cases hgo

theorem goesOn_of_progress
    (hgo : stage.progress maxAttempts now mishap ending store = (.goOn following, after)) :
    GoesOn store mishap stage following after := by
  simp only [Stage.progress, Prod.mk.injEq] at hgo
  obtain ⟨hnext, rfl⟩ := hgo
  cases stage with
  | read key =>
      simp only [Stage.next, Stage.work, Stage.action, perform] at hnext ⊢
      unfold afterRead at hnext
      split at hnext
      next => split at hnext <;> cases hnext
      next task hanswer =>
        split at hnext
        next hpending =>
          cases hnext
          obtain ⟨rfl, hread⟩ := store.attempt_eq_ok now (.getTask key) mishap hanswer
          exact .found rfl hread hpending
        next => cases hnext
  | mark key task =>
      simp only [Stage.next, Stage.work, Stage.action, perform] at hnext ⊢
      unfold afterMark at hnext
      split at hnext
      next => cases hnext
      next updated hanswer =>
        cases hnext
        obtain ⟨rfl, hdone⟩ := store.attempt_eq_ok now (.updateTaskStatus key _) mishap hanswer
        exact .marked hdone
  | attempt key task further => exact goesOn_of_afterAttempt hnext
  | report key status =>
      simp only [Stage.next, Stage.work, Stage.action, perform] at hnext
      unfold afterReport at hnext
      split at hnext <;> cases hnext

theorem GoesOn.key (hgoes : GoesOn store mishap stage following after) :
    following.key = stage.key := by
  cases hgoes <;> rfl

theorem Stage.next_key {answer : stage.action.Answer}
    (hgo : stage.next maxAttempts answer = .goOn following) : following.key = stage.key := by
  cases stage with
  | read key =>
      simp only [next] at hgo
      unfold afterRead at hgo
      split at hgo
      · split at hgo <;> cases hgo
      · split at hgo <;> cases hgo
        rfl
  | mark key task =>
      simp only [next] at hgo
      unfold afterMark at hgo
      split at hgo <;> cases hgo
      rfl
  | attempt key task further =>
      have hgoes : GoesOn {} .nothing (.attempt key task further) following {} :=
        goesOn_of_afterAttempt hgo
      exact hgoes.key
  | report key status =>
      simp only [next] at hgo
      unfold afterReport at hgo
      split at hgo <;> cases hgo

theorem runFrom_eq {σ τ : Type} (client : Client σ τ) (launch : Launcher σ) (maxAttempts : Nat)
    (stage : Stage) (state : σ) :
    runFrom client launch maxAttempts stage state =
      match stage.next maxAttempts (perform client launch stage.action state).1 with
      | .goOn following =>
          runFrom client launch maxAttempts following (perform client launch stage.action state).2
      | .finished phase => (.ok phase, (perform client launch stage.action state).2)
      | .failed fault => (.error fault, (perform client launch stage.action state).2) := by
  rw [runFrom]
  cases perform client launch stage.action state with
  | mk answer after =>
      dsimp only
      split
      next following hgo => rw [hgo]
      next phase hend => rw [hend]
      next fault hend => rw [hend]

end Run

/-! ## The runner and the others -/

/-- A call puts a task back to where it waits to be run. -/
def Call.resets : Call → Bool
  | updateTaskStatus _ status => status.phase = .pending
  | _ => false

/-- A task runner, with the store that it works on. -/
structure TaskRunner (ι : Type) where
  store : Store
  pool : JobPool := {}
  /-- The tasks listed at the start that no job was asked for yet. -/
  listed : List Task := []
  stages : ι → Option Run.Stage := fun _ => none
  /-- The keys whose job has ended; the pool has not been told yet. -/
  ended : List ObjectKey := []
  /-- The tasks whose attempts were begun, the oldest first. -/
  launched : List Task := []

inductive TaskRunnerMove (ι : Type) where
  /-- Another client makes a call. -/
  | call (request : TimedCall)
  /-- The runner starts, and lists the tasks that are there. -/
  | list (now : DateTime) (mishap : Mishap)
  /-- The next of the listed tasks gets a job if it waits. -/
  | offer
  /-- An event is heard, be it again. -/
  | hear (event : ChangeEvent)
  | submit (key : ObjectKey)
  /-- A worker takes the oldest job. -/
  | begin (worker : ι)
  | proceed (worker : ι) (now : DateTime) (mishap : Mishap) (ending : Run.ProcessEnd)
  /-- The pool is told that a job has ended. -/
  | release (key : ObjectKey)
  | stop

namespace TaskRunner

variable {ι : Type} [DecidableEq ι]

/-- A worker goes on with its run, or is done with it. -/
def moveOn (runner : TaskRunner ι) (worker : ι) (stage : Run.Stage) :
    Run.Progress × Store → TaskRunner ι
  | (.goOn following, store) =>
      { runner with
        store
        stages := Function.update runner.stages worker (some following)
        launched := runner.launched ++ stage.launches (.goOn following) }
  | (.finished _, store) | (.failed _, store) =>
      { runner with
        store
        stages := Function.update runner.stages worker none
        ended := runner.ended ++ [stage.key] }

def step? (maxAttempts : Nat) (runner : TaskRunner ι) :
    TaskRunnerMove ι → Option (TaskRunner ι)
  | .call request =>
      if request.call.resets then none
      else some { runner with store := (runner.store.serve request.now request.call).store }
  | .list now mishap =>
      match (runner.store.attempt now (.listTasks none) mishap).answer with
      | .ok tasks => some { runner with listed := tasks }
      | .error _ => some runner
  | .offer =>
      match runner.listed with
      | [] => none
      | task :: rest =>
          some { runner with pool := runner.pool.submitPending [task], listed := rest }
  | .hear event => some { runner with pool := runner.pool.handle event }
  | .submit key => some { runner with pool := runner.pool.submit key }
  | .begin worker =>
      match runner.stages worker, runner.pool.begin? with
      | none, some (key, pool) =>
          some { runner with
            pool
            stages := Function.update runner.stages worker (some (.read key)) }
      | _, _ => none
  | .proceed worker now mishap ending =>
      (runner.stages worker).map fun stage =>
        runner.moveOn worker stage (stage.progress maxAttempts now mishap ending runner.store)
  | .release key =>
      if key ∈ runner.ended then
        some { runner with pool := runner.pool.release key, ended := runner.ended.erase key }
      else none
  | .stop => some { runner with pool := runner.pool.stop }

/-- The steps that are possible. -/
inductive Step (maxAttempts : Nat) (runner : TaskRunner ι) :
    TaskRunnerMove ι → TaskRunner ι → Prop where
  | called (request : TimedCall) (hresets : request.call.resets = false) :
      Step maxAttempts runner (.call request)
        { runner with store := (runner.store.serve request.now request.call).store }
  | listed {now : DateTime} {mishap : Mishap} {tasks : List Task}
      (hanswer : (runner.store.attempt now (.listTasks none) mishap).answer = .ok tasks) :
      Step maxAttempts runner (.list now mishap) { runner with listed := tasks }
  | unlisted {now : DateTime} {mishap : Mishap} {fault : Fault}
      (hanswer : (runner.store.attempt now (.listTasks none) mishap).answer = .error fault) :
      Step maxAttempts runner (.list now mishap) runner
  | offered {task : Task} {rest : List Task} (hlisted : runner.listed = task :: rest) :
      Step maxAttempts runner .offer
        { runner with pool := runner.pool.submitPending [task], listed := rest }
  | heard (event : ChangeEvent) :
      Step maxAttempts runner (.hear event) { runner with pool := runner.pool.handle event }
  | asked (key : ObjectKey) :
      Step maxAttempts runner (.submit key) { runner with pool := runner.pool.submit key }
  | begun {worker : ι} {key : ObjectKey} {pool : JobPool}
      (hfree : runner.stages worker = none) (hbegin : runner.pool.begin? = some (key, pool)) :
      Step maxAttempts runner (.begin worker)
        { runner with pool, stages := Function.update runner.stages worker (some (.read key)) }
  | went {worker : ι} {stage : Run.Stage} (now : DateTime) (mishap : Mishap)
      (ending : Run.ProcessEnd) (hstage : runner.stages worker = some stage) :
      Step maxAttempts runner (.proceed worker now mishap ending)
        (runner.moveOn worker stage (stage.progress maxAttempts now mishap ending runner.store))
  | released {key : ObjectKey} (hended : key ∈ runner.ended) :
      Step maxAttempts runner (.release key)
        { runner with pool := runner.pool.release key, ended := runner.ended.erase key }
  | stopped : Step maxAttempts runner .stop { runner with pool := runner.pool.stop }

theorem step_cases {maxAttempts : Nat} {runner next : TaskRunner ι} {move : TaskRunnerMove ι}
    (hstep : runner.step? maxAttempts move = some next) : Step maxAttempts runner move next := by
  cases move with
  | call request =>
      simp only [step?] at hstep
      split at hstep
      next => cases hstep
      next hresets =>
        cases hstep
        exact .called request (eq_false_of_ne_true hresets)
  | list now mishap =>
      simp only [step?] at hstep
      split at hstep
      next tasks hanswer =>
        cases hstep
        exact .listed hanswer
      next fault hanswer =>
        cases hstep
        exact .unlisted hanswer
  | offer =>
      simp only [step?] at hstep
      split at hstep
      next => cases hstep
      next task rest hlisted =>
        cases hstep
        exact .offered hlisted
  | hear event =>
      cases hstep
      exact .heard event
  | submit key =>
      cases hstep
      exact .asked key
  | begin worker =>
      simp only [step?] at hstep
      split at hstep
      next key pool hfree hbegin =>
        cases hstep
        exact .begun hfree hbegin
      next => cases hstep
  | proceed worker now mishap ending =>
      simp only [step?] at hstep
      obtain ⟨stage, hstage, rfl⟩ := Option.map_eq_some_iff.mp hstep
      exact .went now mishap ending hstage
  | release key =>
      simp only [step?] at hstep
      split at hstep
      next hended =>
        cases hstep
        exact .released hended
      next => cases hstep
  | stop =>
      cases hstep
      exact .stopped

/-- The keys of the jobs that the workers hold. -/
def held (runner : TaskRunner ι) (worker : ι) : Option ObjectKey :=
  (runner.stages worker).map Run.Stage.key

theorem held_update (stages : ι → Option Run.Stage) (worker : ι) (place : Option Run.Stage) :
    (fun other => (Function.update stages worker place other).map Run.Stage.key) =
      Function.update (fun other => (stages other).map Run.Stage.key) worker
        (place.map Run.Stage.key) := by
  funext other
  by_cases heq : other = worker
  · rw [heq, Function.update_self, Function.update_self]
  · rw [Function.update_of_ne heq, Function.update_of_ne heq]

/-- A run that nobody comes in between of goes through the steps of its worker. -/
theorem play_run (maxAttempts : Nat) (now : DateTime) (endOf : List String → Run.ProcessEnd)
    (worker : ι) (stage : Run.Stage) (runner : TaskRunner ι)
    (hstage : runner.stages worker = some stage) :
    let client : Client Store Unit := fun call _ store =>
      ((store.serve now call).answer, (store.serve now call).store)
    let launch : Run.Launcher Store := fun command store => (endOf command, store)
    ∃ moves launched, (∀ move ∈ moves, ∃ ending, move = .proceed worker now .nothing ending) ∧
      play (step? maxAttempts) runner moves = some
        { runner with
          store := (Run.runFrom client launch maxAttempts stage runner.store).2
          stages := Function.update runner.stages worker none
          ended := runner.ended ++ [stage.key]
          launched } := by
  intro client launch
  obtain ⟨ending, hwork⟩ : ∃ ending, stage.work now .nothing ending runner.store =
      Run.perform client launch stage.action runner.store := by
    cases stage with
    | read key => exact ⟨.exited 0 none, rfl⟩
    | mark key task => exact ⟨.exited 0 none, rfl⟩
    | attempt key task further => exact ⟨endOf task.container.command, rfl⟩
    | report key status => exact ⟨.exited 0 none, rfl⟩
  have hprogress : stage.progress maxAttempts now .nothing ending runner.store =
      (stage.next maxAttempts (Run.perform client launch stage.action runner.store).1,
        (Run.perform client launch stage.action runner.store).2) := by
    rw [Run.Stage.progress, hwork]
  have hstep : runner.step? maxAttempts (.proceed worker now .nothing ending) =
      some (runner.moveOn worker stage
        (stage.next maxAttempts (Run.perform client launch stage.action runner.store).1,
          (Run.perform client launch stage.action runner.store).2)) := by
    rw [step?, hstage, Option.map_some, hprogress]
  rw [Run.runFrom_eq]
  split
  next following hgo =>
    rw [hgo] at hstep hprogress
    have hheight := Run.Stage.next_height hgo
    have hkey := (Run.goesOn_of_progress hprogress).key
    obtain ⟨moves, launched, hmoves, hrest⟩ :=
      play_run maxAttempts now endOf worker following
        (runner.moveOn worker stage (.goOn following, _)) (by simp [moveOn])
    refine ⟨.proceed worker now .nothing ending :: moves, launched, ?_, ?_⟩
    · simpa using hmoves
    · rw [play_cons, hstep, Option.bind_some, hrest]
      simp only [moveOn, hkey, Function.update_idem]
      rfl
  next phase hend =>
    rw [hend] at hstep
    exact ⟨[.proceed worker now .nothing ending], runner.launched, by simp,
      by rw [play_cons, hstep]; rfl⟩
  next fault hend =>
    rw [hend] at hstep
    exact ⟨[.proceed worker now .nothing ending], runner.launched, by simp,
      by rw [play_cons, hstep]; rfl⟩
termination_by stage.height maxAttempts

end TaskRunner

end OneShot
