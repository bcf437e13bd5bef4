import OneShot.Proofs.Runner.History
import OneShot.Proofs.Store.VersionedMap
import Mathlib.Data.Fintype.Basic

/-!
# Tasks that wait

The runner is told of a task when it hears that one was added under its key, or
when it lists the tasks that are there.  From then on a task that waits is
covered: a job for its key waits, or a worker holds it that has not read a task
yet, or has read this one.

A task that waits can be left uncovered in two ways.  A job that is asked for is
refused while its key is still active for a task that was stored under it before;
and a run ends when a call of it fails before the task is marked.  In neither case
does the runner ask for the job again.
-/

namespace OneShot

open Calendar

namespace Store

variable {store : Store} {row : TaskRow}

theorem Intact.getTask_of_mem (hstore : store.Intact) (hrow : row ∈ store.tasks) :
    ∃ task, store.getTask row.key = .ok task ∧ row.toTask = .ok task := by
  obtain ⟨task, htask⟩ := hstore.readableTasks row hrow
  refine ⟨task, ?_, htask⟩
  unfold getTask
  rw [hstore.taskRow?_of_mem hrow]
  exact htask

theorem Intact.updateTaskStatus_of_mem (hstore : store.Intact) (hrow : row ∈ store.tasks)
    (status : TaskStatus) :
    ∃ updated, (store.updateTaskStatus row.key status).answer = .ok updated := by
  obtain ⟨task, hread, -⟩ := hstore.getTask_of_mem hrow
  obtain ⟨updated, hdone, -⟩ := updateTaskStatus_of_getTask hread status
  exact ⟨updated, hdone⟩

end Store

/-! ## Steps of the runner -/

namespace TaskRunner

variable {ι : Type} [DecidableEq ι] {runner next : TaskRunner ι} {move : TaskRunnerMove ι}
  {worker : ι} {maxAttempts : Nat} {read : Task → Prop} {key : ObjectKey} {row : TaskRow}

/-- A step asks for a job for a key. -/
def Asks (key : ObjectKey) (runner : TaskRunner ι) : TaskRunnerMove ι → Prop
  | .hear event => event.kind = .task ∧ event.type = .added ∧ event.key = key
  | .offer => ∃ task ∈ runner.listed.head?, task.status.phase = .pending ∧ task.key = key
  | .submit asked => asked = key
  | _ => False

/-- The task of a row is among those that were listed and not offered yet. -/
def Lists (runner : TaskRunner ι) (row : TaskRow) : Prop :=
  ∃ task ∈ runner.listed, row.toTask = .ok task

theorem submit_of_asks (hasks : Asks key runner move)
    (hstep : runner.step? maxAttempts move = some next) :
    next.pool = runner.pool.submit key ∧ next.stages = runner.stages := by
  cases step_cases hstep with
  | heard event =>
      obtain ⟨hkind, htype, rfl⟩ := hasks
      simp [JobPool.handle, hkind, htype]
  | offered hlisted =>
      obtain ⟨task, hhead, hpending, rfl⟩ := hasks
      rw [hlisted, List.head?_cons, Option.mem_some_iff] at hhead
      subst hhead
      simp [JobPool.submitPending, hpending]
  | asked asked =>
      obtain rfl : asked = key := hasks
      exact ⟨rfl, rfl⟩
  | called | listed | unlisted | begun | went | released | stopped => cases hasks

theorem launched_of_step (hstep : runner.step? maxAttempts move = some next) :
    runner.launched ⊆ next.launched := by
  cases step_cases hstep with
  | @went worker stage now mishap ending hstage =>
      cases stage.progress maxAttempts now mishap ending runner.store with
      | mk progress store =>
          cases progress with
          | goOn following => exact List.subset_append_left _ _
          | finished phase => exact List.Subset.refl _
          | failed fault => exact List.Subset.refl _
  | _ => exact List.Subset.refl _

theorem running_of_step (hstep : runner.step? maxAttempts move = some next)
    (hrunning : next.pool.stopped = false) : runner.pool.stopped = false := by
  cases step_cases hstep with
  | offered hlisted => exact (runner.pool.grows_submitPending [_]).stopped.symm.trans hrunning
  | heard event => exact (runner.pool.grows_handle event).stopped.symm.trans hrunning
  | asked key =>
      exact ((JobPool.Grows.refl runner.pool).submit key).stopped.symm.trans hrunning
  | begun hfree hbegin =>
      unfold JobPool.begin? at hbegin
      split at hbegin
      next => cases hbegin
      next =>
        cases hbegin
        exact hrunning
  | went now mishap ending hstage => rwa [moveOn_pool] at hrunning
  | stopped => cases hrunning
  | called | listed | unlisted | released => exact hrunning

theorem job_of_step (hjob : key ∈ runner.pool.jobs)
    (hstep : runner.step? maxAttempts move = some next) (hrunning : next.pool.stopped = false) :
    key ∈ next.pool.jobs ∨
      ∃ worker, move = .begin worker ∧ next.stages worker = some (.read key) := by
  cases step_cases hstep with
  | offered hlisted => exact Or.inl ((runner.pool.grows_submitPending [_]).jobs hjob)
  | heard event => exact Or.inl ((runner.pool.grows_handle event).jobs hjob)
  | asked other => exact Or.inl (((JobPool.Grows.refl runner.pool).submit other).jobs hjob)
  | @begun worker taken pool hfree hbegin =>
      unfold JobPool.begin? at hbegin
      split at hbegin
      next => cases hbegin
      next first later hjobs =>
        cases hbegin
        rw [hjobs] at hjob
        rcases List.mem_cons.mp hjob with rfl | hlater
        · exact Or.inr ⟨worker, rfl, Function.update_self worker _ _⟩
        · exact Or.inl hlater
  | went now mishap ending hstage =>
      rw [moveOn_pool]
      exact Or.inl hjob
  | stopped => cases hrunning
  | called | listed | unlisted | released => exact Or.inl hjob

theorem placed_of_step (hplaced : runner.pool.Placed runner.held runner.ended)
    (hstep : runner.step? maxAttempts move = some next) :
    next.pool.Placed next.held next.ended := by
  cases step_cases hstep with
  | offered hlisted => exact hplaced.submitPending [_]
  | heard event => exact hplaced.handle event
  | asked key => exact hplaced.submit key
  | @begun worker key pool hfree hbegin =>
      have hidle : runner.held worker = none := by rw [held, hfree, Option.map_none]
      unfold held
      rw [held_update]
      exact hplaced.begin hbegin hidle
  | @went worker stage now mishap ending hstage =>
      have hheld := held_of_stage hstage
      have hdone := hplaced.finish hheld
      cases hprogress : stage.progress maxAttempts now mishap ending runner.store with
      | mk progress store =>
          cases progress with
          | goOn following =>
              have hkey := (Run.goesOn_of_progress hprogress).key
              unfold moveOn held
              rw [held_update, Option.map_some, hkey, ← hheld]
              exact (Function.update_eq_self worker runner.held).symm ▸ hplaced
          | finished phase | failed fault =>
              unfold moveOn held
              rw [held_update]
              exact hdone
  | released hended => exact hplaced.release
  | stopped => exact hplaced.stop
  | called | listed | unlisted => exact hplaced

omit [DecidableEq ι] in
theorem lists_of_answer {tasks : List Task} {now : DateTime} {mishap : Mishap}
    (hstore : runner.store.Intact) (hrow : row ∈ runner.store.tasks)
    (hanswer : (runner.store.attempt now (.listTasks none) mishap).answer = .ok tasks) :
    Lists { runner with listed := tasks } row := by
  obtain ⟨-, hserved⟩ := runner.store.attempt_eq_ok now (.listTasks none) mishap hanswer
  obtain ⟨listed, hlisted, -, hmem⟩ := hstore.listing_tasks none
  have hsame : listed = tasks := Except.ok.inj (hlisted.symm.trans hserved)
  obtain ⟨task, hget, htask⟩ := hstore.getTask_of_mem hrow
  have hkey := (TaskRow.shows_of_toTask htask).key
  refine ⟨task, ?_, htask⟩
  rw [← hsame, hmem, hkey]
  exact ⟨hget, rfl⟩

theorem lists_of_step (hstore : runner.store.Intact) (hrow : row ∈ runner.store.tasks)
    (hpending : row.taskPhase = .pending) (hlists : runner.Lists row)
    (hstep : runner.step? maxAttempts move = some next) :
    next.Lists row ∨ Asks row.key runner move := by
  obtain ⟨task, hmem, htask⟩ := hlists
  cases step_cases hstep with
  | listed hanswer => exact Or.inl (lists_of_answer hstore hrow hanswer)
  | offered hlisted =>
      rw [hlisted] at hmem
      rcases List.mem_cons.mp hmem with rfl | hrest
      · have hshows := TaskRow.shows_of_toTask htask
        exact Or.inr ⟨task, by simp [hlisted], hshows.phase.trans hpending, hshows.key⟩
      · exact Or.inl ⟨task, hrest, htask⟩
  | went now mishap ending hstage => exact Or.inl ⟨task, by simpa using hmem, htask⟩
  | called | unlisted | heard | asked | begun | released | stopped =>
      exact Or.inl ⟨task, hmem, htask⟩

/-- A task that waits was not changed by a step; it was there before, or is new. -/
theorem waiting_of_step (hsound : Sound read runner)
    (hstep : runner.step? maxAttempts move = some next)
    (hissued : ∃ number ≤ runner.store.issued, row.uid = Store.uidText number)
    (hrow : row ∈ next.store.tasks) (hpending : row.taskPhase = .pending) :
    row ∈ runner.store.tasks := by
  -- no call of the runner or of others puts a task back, so it waited before if it waits now
  have hserve : ∀ now (call : Call), call.resets = false →
      row ∈ (runner.store.serve now call).store.tasks → row ∈ runner.store.tasks := by
    intro now call hcall hafter
    have htracks : runner.store.Tracks row.uid fun old =>
        old.taskPhase = .pending → old ∈ runner.store.tasks := ⟨hissued, fun _ hold _ _ => hold⟩
    refine (htracks.serve ?_ now hcall).row row hafter rfl hpending
    intro old status hstatus _ hreset
    rw [Store.taskPhase_moved] at hreset
    exact absurd hreset hstatus
  cases step_cases hstep with
  | called request hresets => exact hserve request.now request.call hresets hrow
  | @went worker stage now mishap ending hstage =>
      rw [moveOn_store] at hrow
      rcases Run.work_store stage now mishap ending runner.store with
        hsame | ⟨status, hstatus, hserved⟩
      · have hkept : (stage.progress maxAttempts now mishap ending runner.store).2 =
            runner.store := hsame
        rwa [hkept] at hrow
      · have hwritten : (stage.progress maxAttempts now mishap ending runner.store).2 =
            (runner.store.serve now (.updateTaskStatus stage.key status)).store := hserved
        rw [hwritten] at hrow
        exact hserve now _ (hsound.resets_written hstage hstatus) hrow
  | _ => exact hrow

end TaskRunner

def Run.Stage.marked : Run.Stage → Bool
  | .read _ | .mark _ _ => false
  | .attempt _ _ _ | .report _ _ => true

/-! ## Histories of tasks that wait -/

namespace RunnerHistory

variable {ι : Type} [DecidableEq ι] {maxAttempts : Nat} {history next told : RunnerHistory ι}
  {move : TaskRunnerMove ι} {before after moves : List (TaskRunnerMove ι)} {worker : ι}
  {stage : Run.Stage} {row : TaskRow} {uid : String}

/-- A job for the key of a row waits, or a worker is on it that has not read a
task, or has read the task of this row. -/
def Covers (history : RunnerHistory ι) (row : TaskRow) : Prop :=
  row.key ∈ history.runner.pool.jobs ∨
    ∃ worker, ∃ stage ∈ history.runner.stages worker, stage.key = row.key ∧
      ∀ found ∈ (history.records worker).found, found.1.metadata.uid = row.uid

instance [Fintype ι] (history : RunnerHistory ι) (row : TaskRow) :
    Decidable (history.Covers row) :=
  inferInstanceAs (Decidable (row.key ∈ history.runner.pool.jobs ∨
    ∃ worker, ∃ stage ∈ history.runner.stages worker, stage.key = row.key ∧
      ∀ found ∈ (history.records worker).found, found.1.metadata.uid = row.uid))

/-- The runner is told of a task that is stored: it hears that one was added under
its key, or it lists the tasks. -/
def Tells (uid : String) (history : RunnerHistory ι) : TaskRunnerMove ι → Prop
  | .hear event => event.kind = .task ∧ event.type = .added ∧
      ∃ row ∈ history.runner.store.tasks, row.uid = uid ∧ row.key = event.key
  | .list _ mishap => mishap = .nothing ∧ history.runner.store.HasTask uid
  | _ => False

/-- A job for a task that is stored is refused: its key is active for a run that
has ended, or that has read another task. -/
def Refuses (uid : String) (history : RunnerHistory ι) (move : TaskRunnerMove ι) : Prop :=
  ∃ row ∈ history.runner.store.tasks, row.uid = uid ∧ history.runner.Asks row.key move ∧
    (row.key ∈ history.runner.ended ∨
      ∃ worker, ∃ stage ∈ history.runner.stages worker, stage.key = row.key ∧
        ∃ found ∈ (history.records worker).found, found.1.metadata.uid ≠ uid)

/-- A call of a run fails before a task is marked that is stored. -/
def Fails (uid : String) (history : RunnerHistory ι) (move : TaskRunnerMove ι) : Prop :=
  ∃ row ∈ history.runner.store.tasks, row.uid = uid ∧
    ∃ worker now mishap ending, move = .proceed worker now mishap ending ∧ mishap ≠ .nothing ∧
      (history.runner.stages worker = some (.read row.key) ∨
        ∃ task, history.runner.stages worker = some (.mark row.key task) ∧
          task.metadata.uid = uid)

/-- A step after which a task that waits may not be covered any more. -/
def Loses (uid : String) (history : RunnerHistory ι) (move : TaskRunnerMove ι) : Prop :=
  history.Refuses uid move ∨ history.Fails uid move

/-- What the pickup of tasks rests on. -/
structure Steady (history : RunnerHistory ι) : Prop where
  run : TaskRunner.Sound (fun _ => True) history.runner
  records : history.Sound
  placed : history.runner.pool.Placed history.runner.held history.runner.ended
  launched : ∀ worker stage, history.runner.stages worker = some stage → stage.marked = true →
    ∀ found ∈ (history.records worker).found, found.1 ∈ history.runner.launched

theorem launched_of_step (hbefore : history.Steady)
    (hrun : TaskRunner.Sound (fun _ => True) next.runner) (hrecords : next.Sound)
    (hstep : history.step? maxAttempts move = some next)
    (hstage : next.runner.stages worker = some stage) (hmarked : stage.marked = true) :
    ∀ found ∈ (next.records worker).found, found.1 ∈ next.runner.launched := by
  cases stage with
  | read key => cases hmarked
  | mark key task => cases hmarked
  | attempt key task further =>
      obtain ⟨earlier, hbacks, -⟩ := hrecords.backed worker _ hstage
      rw [hbacks.found]
      rintro found ⟨rfl⟩
      exact hrun.attempted worker key task further hstage
  | report key status =>
      have hgrows := TaskRunner.launched_of_step (runner_of_step hstep)
      cases went_of_step hstep hstage with
      | still hstays hrecord =>
          rw [hrecord]
          exact fun found hfound => hgrows (hbefore.launched worker _ hstays rfl found hfound)
      | begun hread => cases hread
      | onward hattempt hgo hrecord =>
          have hgoes := Run.goesOn_of_progress hgo
          generalize next.runner.store = later at hgoes
          cases hgoes with
          | ended hterminal =>
              rw [hrecord]
              exact fun found hfound => hgrows (hbefore.launched worker _ hattempt rfl found hfound)

theorem steady_of_play {store : Store} (hstore : store.Intact)
    (hplay : play (step? maxAttempts) ({ runner := { store } } : RunnerHistory ι) moves =
      some history) : history.Steady := by
  refine play_records (P := fun _ history => history.Steady) ?_ ?_ hplay
  · exact
      { run := TaskRunner.sound_start hstore
        records := sound_of_play hstore (play_nil (step? maxAttempts) _)
        placed := by simp [JobPool.Placed]
        launched := by simp }
  · intro earlier history move next hearlier hsteady hstep
    have hrunner := runner_of_step hstep
    have hplayed := play_runner maxAttempts ({ runner := { store } } : RunnerHistory ι) earlier
    rw [hearlier, Option.map_some] at hplayed
    have hrun : TaskRunner.Sound (fun _ => True) next.runner :=
      (TaskRunner.Sound.step hplayed.symm
        (TaskRunner.sound_of_play hstore hplayed.symm) hrunner).mono fun _ _ => trivial
    have hrecords := hsteady.records.step hstep
    exact
      { run := hrun
        records := hrecords
        placed := TaskRunner.placed_of_step hsteady.placed hrunner
        launched := fun worker stage => launched_of_step hsteady hrun hrecords hstep }

omit [DecidableEq ι] in
/-- A run that has read a task that still waits has not marked it. -/
theorem Steady.unmarked (hsteady : history.Steady)
    (hstage : history.runner.stages worker = some stage)
    (hfound : ∀ found ∈ (history.records worker).found, found.1.metadata.uid = row.uid)
    (hrow : row ∈ history.runner.store.tasks) (hpending : row.taskPhase = .pending) :
    stage.marked = false := by
  have hbacked := hsteady.records.backed worker stage hstage
  have hbegun : ∀ task earlier, (history.records worker).found = some (task, earlier) →
      stage.marked ≠ true := by
    intro task earlier hrecord hmarked
    have hlaunched := hsteady.launched worker stage hstage hmarked (task, earlier) hrecord
    have huid : row.uid = task.metadata.uid := (hfound (task, earlier) hrecord).symm
    exact (hsteady.run.begun task hlaunched).2.row row hrow huid hpending
  cases stage with
  | read key => rfl
  | mark key task => rfl
  | attempt key task further =>
      obtain ⟨earlier, hbacks, -⟩ := hbacked
      exact absurd rfl (hbegun task earlier hbacks.found)
  | report key status =>
      obtain ⟨task, earlier, hbacks, -⟩ := hbacked
      exact absurd rfl (hbegun task earlier hbacks.found)

omit [DecidableEq ι] in
theorem Steady.uid_of_mark {key : ObjectKey} {task : Task} (hsteady : history.Steady)
    (hstage : history.runner.stages worker = some (.mark key task))
    (hfound : ∀ found ∈ (history.records worker).found, found.1.metadata.uid = row.uid) :
    task.metadata.uid = row.uid := by
  obtain ⟨earlier, hbacks, -⟩ := hsteady.records.backed worker _ hstage
  exact hfound (task, earlier) hbacks.found

theorem stays_of_step (hstage : history.runner.stages worker = some stage)
    (hstep : history.step? maxAttempts move = some next) :
    (next.runner.stages worker = some stage ∧
        next.records worker = history.records worker) ∨
      ∃ now mishap ending, move = .proceed worker now mishap ending := by
  obtain ⟨runner, hrunner, rfl⟩ := Option.map_eq_some_iff.mp hstep
  cases TaskRunner.step_cases hrunner with
  | @begun other key pool hfree hbegin =>
      left
      have hne : worker ≠ other := by
        rintro rfl
        rw [hfree] at hstage
        cases hstage
      simp [recordsAfter, hne, hstage]
  | @went other stage₀ now mishap ending hstage₀ =>
      by_cases hsame : worker = other
      · subst hsame
        exact Or.inr ⟨now, mishap, ending, rfl⟩
      · left
        rw [TaskRunner.moveOn_stages_of_ne _ hsame]
        simp [recordsAfter, hstage₀, hsame, hstage]
  | _ => exact Or.inl ⟨hstage, rfl⟩

/-- A worker that is to read a task finds the one that waits under its key. -/
theorem covers_of_read (hsteady : history.Steady)
    (hstage : history.runner.stages worker = some (.read row.key))
    (hrow : row ∈ history.runner.store.tasks) (hpending : row.taskPhase = .pending)
    {now : DateTime} {ending : Run.ProcessEnd}
    (hstep : history.step? maxAttempts (.proceed worker now .nothing ending) = some next) :
    next.Covers row := by
  obtain ⟨task, hget, htask⟩ := hsteady.run.store.getTask_of_mem hrow
  have hwaits : task.status.phase = .pending :=
    (TaskRow.shows_of_toTask htask).phase.trans hpending
  have hprogress : (Run.Stage.read row.key).progress maxAttempts now .nothing ending
      history.runner.store = (.goOn (.mark row.key task), history.runner.store) := by
    simp [Run.Stage.progress, Run.Stage.work, Run.Stage.action, Run.perform, Run.Stage.next,
      Run.afterRead, Store.attempt, Store.serve, Store.reading, hget, hwaits]
  obtain ⟨runner, hrunner, rfl⟩ := Option.map_eq_some_iff.mp hstep
  simp only [TaskRunner.step?, hstage, Option.map_some, hprogress, Option.some.injEq] at hrunner
  subst hrunner
  refine Or.inr ⟨worker, .mark row.key task, by simp [TaskRunner.moveOn], rfl, ?_⟩
  simp [recordsAfter, hstage, hprogress, RunRecord.note, TaskRow.uid_of_toTask htask]

/-- A worker that has read a task marks it, so that it does not wait any more. -/
theorem not_waiting_of_mark (hsteady : history.Steady) {task : Task}
    (hstage : history.runner.stages worker = some (.mark row.key task))
    (huid : task.metadata.uid = row.uid) (hrow : row ∈ history.runner.store.tasks)
    {now : DateTime} {ending : Run.ProcessEnd}
    (hstep : history.step? maxAttempts (.proceed worker now .nothing ending) = some next)
    (hlater : row ∈ next.runner.store.tasks) : row.taskPhase ≠ .pending := by
  obtain ⟨updated, hdone⟩ :=
    hsteady.run.store.updateTaskStatus_of_mem hrow { phase := .running }
  have htracks := (hsteady.run.marked worker row.key task hstage).2.1
  have hmarked := htracks.begun_of_marked hdone (by simp)
  obtain ⟨runner, hrunner, rfl⟩ := Option.map_eq_some_iff.mp hstep
  simp only [TaskRunner.step?, hstage, Option.map_some, Option.some.injEq] at hrunner
  subst hrunner
  rw [TaskRunner.moveOn_store] at hlater
  exact hmarked.row row hlater huid.symm

/-- A task that waits stays covered, unless a call of its run fails. -/
theorem Covers.step (hsteady : history.Steady) (hcovers : history.Covers row)
    (hrow : row ∈ history.runner.store.tasks) (hpending : row.taskPhase = .pending)
    (hstep : history.step? maxAttempts move = some next)
    (hlater : row ∈ next.runner.store.tasks) (hrunning : next.runner.pool.stopped = false) :
    next.Covers row ∨ history.Fails row.uid move := by
  rcases hcovers with hjob | ⟨worker, stage, hstage, hkey, hfound⟩
  · rcases TaskRunner.job_of_step hjob (runner_of_step hstep) hrunning with
      hwaits | ⟨worker, rfl, hbegun⟩
    · exact Or.inl (Or.inl hwaits)
    · left
      refine Or.inr ⟨worker, .read row.key, hbegun, rfl, ?_⟩
      simp [records_of_step hstep, recordsAfter]
  · -- the steps of others leave the worker where it is; its own one reads or marks the task
    rcases stays_of_step hstage hstep with ⟨hstays, hrecord⟩ | ⟨now, mishap, ending, rfl⟩
    · left
      refine Or.inr ⟨worker, stage, hstays, hkey, ?_⟩
      rwa [hrecord]
    · have hunmarked := hsteady.unmarked hstage hfound hrow hpending
      by_cases hmishap : mishap = .nothing
      · subst hmishap
        left
        cases stage with
        | read key =>
            obtain rfl : key = row.key := hkey
            exact covers_of_read hsteady hstage hrow hpending hstep
        | mark key task =>
            obtain rfl : key = row.key := hkey
            have huid := hsteady.uid_of_mark hstage hfound
            exact absurd hpending (not_waiting_of_mark hsteady hstage huid hrow hstep hlater)
        | attempt key task further => cases hunmarked
        | report key status => cases hunmarked
      · right
        refine ⟨row, hrow, rfl, worker, now, mishap, ending, rfl, hmishap, ?_⟩
        cases stage with
        | read key =>
            obtain rfl : key = row.key := hkey
            exact Or.inl hstage
        | mark key task =>
            obtain rfl : key = row.key := hkey
            exact Or.inr ⟨task, hstage, hsteady.uid_of_mark hstage hfound⟩
        | attempt key task further => cases hunmarked
        | report key status => cases hunmarked

/-- A task is covered once a job is asked for its key, unless the job is refused. -/
theorem covers_of_asks (hsteady : history.Steady) (hrow : row ∈ history.runner.store.tasks)
    (hasks : history.runner.Asks row.key move)
    (hstep : history.step? maxAttempts move = some next)
    (hrunning : next.runner.pool.stopped = false) :
    next.Covers row ∨ history.Refuses row.uid move := by
  have hrunner := runner_of_step hstep
  obtain ⟨hpool, hstages⟩ := TaskRunner.submit_of_asks hasks hrunner
  have hrecords : next.records = history.records := by
    rw [records_of_step hstep]
    cases move with
    | begin | proceed => cases hasks
    | _ => rfl
  rcases hsteady.placed.asked (TaskRunner.running_of_step hrunner hrunning) row.key with
    hjob | ⟨worker, hheld⟩ | hended
  · left
    exact Or.inl (hpool ▸ hjob)
  · obtain ⟨stage, hstage, hkey⟩ := Option.map_eq_some_iff.mp hheld
    by_cases hfound : ∀ found ∈ (history.records worker).found, found.1.metadata.uid = row.uid
    · left
      refine Or.inr ⟨worker, stage, ?_, hkey, ?_⟩
      · rwa [hstages]
      · rwa [hrecords]
    · right
      push Not at hfound
      exact ⟨row, hrow, rfl, hasks, Or.inr ⟨worker, stage, hstage, hkey, hfound⟩⟩
  · right
    exact ⟨row, hrow, rfl, hasks, Or.inl hended⟩

/-- A task that waits is covered, or still to be offered, once the runner was told of it. -/
structure Attends (history : RunnerHistory ι) (uid : String) : Prop where
  issued : ∃ number ≤ history.runner.store.issued, uid = Store.uidText number
  kept : ∀ row ∈ history.runner.store.tasks, row.uid = uid → row.taskPhase = .pending →
    history.runner.pool.stopped = false → history.Covers row ∨ history.runner.Lists row

theorem attends_of_step (hsteady : history.Steady)
    (hissued : ∃ number ≤ history.runner.store.issued, uid = Store.uidText number)
    (hstep : history.step? maxAttempts move = some next)
    (hkept : ∀ row ∈ history.runner.store.tasks, row ∈ next.runner.store.tasks → row.uid = uid →
      row.taskPhase = .pending → next.runner.pool.stopped = false →
        next.Covers row ∨ next.runner.Lists row) : next.Attends uid := by
  have hrunner := runner_of_step hstep
  have hsince := TaskRunner.since_of_step hrunner
  obtain ⟨number, hnumber, huid⟩ := hissued
  refine ⟨⟨number, Nat.le_trans hnumber hsince.issued, huid⟩, ?_⟩
  intro row hlater hsame hpending hrunning
  have hrow := TaskRunner.waiting_of_step hsteady.run hrunner
    ⟨number, hnumber, hsame.trans huid⟩ hlater hpending
  exact hkept row hrow hlater hsame hpending hrunning

theorem attends_of_tells (hsteady : history.Steady) (htells : history.Tells uid move)
    (hstep : history.step? maxAttempts move = some next) (hheld : ¬ history.Refuses uid move) :
    next.Attends uid := by
  have hstore := hsteady.run.store
  cases move with
  | hear event =>
      obtain ⟨hkind, htype, row, hrow, rfl, hkey⟩ := htells
      refine attends_of_step hsteady (hstore.taskIssued row hrow) hstep ?_
      intro other hother hlater hsame hpending hrunning
      obtain rfl := hstore.eq_of_uid hother hrow hsame
      have hasks : history.runner.Asks other.key (.hear event) := ⟨hkind, htype, hkey.symm⟩
      rcases covers_of_asks hsteady hrow hasks hstep hrunning with hcovers | hrefuses
      · exact Or.inl hcovers
      · exact absurd hrefuses hheld
  | list now mishap =>
      obtain ⟨rfl, row, hrow, rfl⟩ := htells
      refine attends_of_step hsteady (hstore.taskIssued row hrow) hstep ?_
      intro other hother hlater hsame hpending hrunning
      right
      obtain ⟨runner, hrunner, rfl⟩ := Option.map_eq_some_iff.mp hstep
      cases TaskRunner.step_cases hrunner with
      | listed hanswer => exact TaskRunner.lists_of_answer hstore hother hanswer
      | unlisted hanswer =>
          obtain ⟨listed, hlisted, -⟩ := hstore.listing_tasks none
          have hserved : history.runner.store.listTasks none = .error _ := hanswer
          rw [hlisted] at hserved
          cases hserved
  | _ => cases htells

theorem Attends.step (hsteady : history.Steady) (hattends : history.Attends uid)
    (hstep : history.step? maxAttempts move = some next) (hkeeps : ¬ history.Loses uid move) :
    next.Attends uid := by
  have hrunner := runner_of_step hstep
  refine attends_of_step hsteady hattends.issued hstep ?_
  rintro row hrow hlater rfl hpending hrunning
  have hbefore := TaskRunner.running_of_step hrunner hrunning
  rcases hattends.kept row hrow rfl hpending hbefore with hcovers | hlists
  · rcases hcovers.step hsteady hrow hpending hstep hlater hrunning with hcovers | hfails
    · exact Or.inl hcovers
    · exact absurd (Or.inr hfails) hkeeps
  · rcases TaskRunner.lists_of_step hsteady.run.store hrow hpending hlists hrunner with
      hlists | hasks
    · exact Or.inr hlists
    · rcases covers_of_asks hsteady hrow hasks hstep hrunning with hcovers | hrefuses
      · exact Or.inl hcovers
      · exact absurd (Or.inl hrefuses) hkeeps

theorem attends_of_play (hattends : history.Attends uid)
    (hsteady : ∀ moves earlier, play (step? maxAttempts) history moves = some earlier →
      earlier.Steady)
    (hplay : play (step? maxAttempts) history moves = some next) :
    next.Attends uid ∨
      Sometime (step? maxAttempts) (fun earlier move _ => Loses uid earlier move) history
        moves := by
  refine play_records (P := fun moves next => next.Attends uid ∨ Sometime (step? maxAttempts)
    (fun earlier move _ => Loses uid earlier move) history moves) (Or.inl hattends) ?_ hplay
  intro moves earlier move later hmoves hearlier hstep
  -- once a step has lost the task, nothing has to be shown of what comes after
  by_cases hloses : earlier.Loses uid move
  · exact Or.inr (sometime_last hmoves hloses)
  · rcases hearlier with hattends | hsometime
    · exact Or.inl (hattends.step (hsteady moves earlier hmoves) hstep hloses)
    · exact Or.inr (hsometime.snoc fun _ _ _ hlost => hlost)

/-- When the runner has been told of a task, has offered all tasks that it has listed, and
was not stopped, then the task does not wait, or a job for its key waits or a worker is on it
that has not read a task or has read this one; unless, since then, a job for it was refused
while its key was active for another task or for a run that had ended, or a call of a run has
failed before the task was marked. -/
theorem covers_waiting_or_lost {requests : List TimedCall} {store : Store}
    (hstore : play Store.handle? {} requests = some store)
    (hbefore : play (step? maxAttempts) ({ runner := { store } } : RunnerHistory ι) before =
      some told)
    (htells : told.Tells row.uid move)
    (hplay : play (step? maxAttempts) told (move :: after) = some history)
    (hstarted : history.runner.listed = []) (hrunning : history.runner.pool.stopped = false)
    (hrow : row ∈ history.runner.store.tasks) (hpending : row.taskPhase = .pending) :
    history.Covers row ∨
      Sometime (step? maxAttempts) (fun earlier move _ => Loses row.uid earlier move) told
        (move :: after) := by
  have hintact := Store.intact_of_play hstore
  rw [play_cons, Option.bind_eq_some_iff] at hplay
  obtain ⟨next, hnext, hafter⟩ := hplay
  by_cases hrefuses : told.Refuses row.uid move
  · exact Or.inr (sometime_head (Or.inl hrefuses))
  have hattends : next.Attends row.uid :=
    attends_of_tells (steady_of_play hintact hbefore) htells hnext hrefuses
  have hsteady : ∀ moves earlier, play (step? maxAttempts) next moves = some earlier →
      earlier.Steady := by
    intro moves earlier hmoves
    have hreached : play (step? maxAttempts) ({ runner := { store } } : RunnerHistory ι)
        (before ++ move :: moves) = some earlier := by
      rw [play_append, hbefore, Option.bind_some, play_cons, hnext, Option.bind_some, hmoves]
    exact steady_of_play hintact hreached
  rcases attends_of_play hattends hsteady hafter with hattends | hsometime
  · rcases hattends.kept row hrow rfl hpending hrunning with hcovers | ⟨task, htask, -⟩
    · exact Or.inl hcovers
    · rw [hstarted] at htask
      cases htask
  · exact Or.inr (hsometime.cons hnext)

/-- A task is added while another one is run, and is read by a second worker. -/
theorem covers_waiting_or_lost_beside_another :
    let now : DateTime := ⟨⟨2024, 1, 2⟩, 0, 0, 0, 0, some 0⟩
    let one : At := { metadata := { name := "a" }, spec := ⟨"2024-01-01T00:00:00Z", "echo a"⟩ }
    let other : At := { metadata := { name := "b" }, spec := ⟨"2024-01-01T00:00:00Z", "ls"⟩ }
    let task : Task := (other.stored "uid-3" now).newTask
    let goes : Bool → TaskRunnerMove Bool := fun worker =>
      .proceed worker now .nothing (.exited 0 none)
    let before : List (TaskRunnerMove Bool) :=
      [.list now .nothing, .offer, .begin true, goes true, .call ⟨now, .createAt other⟩,
        .call ⟨now, .createTask task⟩]
    let heard : TaskRunnerMove Bool := .hear { kind := .task, type := .added, key := task.key }
    let after : List (TaskRunnerMove Bool) := [goes true, .begin false, goes false, goes true]
    let row : TaskRow := task.row "uid-4" now
    ∃ store told history,
      play Store.handle? {} [⟨now, .createAt one⟩,
        ⟨now, .createTask (one.stored "uid-1" now).newTask⟩] = some store ∧
      play (step? 3) ({ runner := { store } } : RunnerHistory Bool) before = some told ∧
      told.Tells row.uid heard ∧ play (step? 3) told (heard :: after) = some history ∧
      history.runner.listed = [] ∧ history.runner.pool.stopped = false ∧
      row ∈ history.runner.store.tasks ∧ row.taskPhase = .pending ∧
      (history.Covers row ∨
        Sometime (step? 3) (fun earlier move _ => Loses row.uid earlier move) told
          (heard :: after)) := by
  intro now one other task goes before heard after row
  let store : Store :=
    { ats := [one.row "uid-1" now]
      tasks := [(one.stored "uid-1" now).newTask.row "uid-2" now]
      issued := 2 }
  have hstore : play Store.handle? {} [⟨now, .createAt one⟩,
      ⟨now, .createTask (one.stored "uid-1" now).newTask⟩] = some store := by decide +kernel
  obtain ⟨told, hbefore, hadded, history, hplay, hstarted, hrunning, hrow⟩ :
      ∃ told ∈ play (step? 3) ({ runner := { store } } : RunnerHistory Bool) before,
        row ∈ told.runner.store.tasks ∧
          ∃ history ∈ play (step? 3) told (heard :: after), history.runner.listed = [] ∧
            history.runner.pool.stopped = false ∧ row ∈ history.runner.store.tasks := by
    decide +kernel
  have htells : told.Tells row.uid heard := ⟨rfl, rfl, row, hadded, rfl, rfl⟩
  have hpending : row.taskPhase = .pending := by decide
  exact ⟨store, told, history, hstore, hbefore, htells, hplay, hstarted, hrunning, hrow, hpending,
    covers_waiting_or_lost hstore hbefore htells hplay hstarted hrunning hrow hpending⟩

/-- A task waits without a job when the read of its run has failed. -/
theorem waiting_task_lost_after_fault :
    ¬ ∀ (requests : List TimedCall) (store : Store) (maxAttempts : Nat)
        (before after : List (TaskRunnerMove Bool)) (move : TaskRunnerMove Bool)
        (told history : RunnerHistory Bool) (row : TaskRow),
      play Store.handle? {} requests = some store →
      play (step? maxAttempts) ({ runner := { store } } : RunnerHistory Bool) before = some told →
      told.Tells row.uid move → play (step? maxAttempts) told (move :: after) = some history →
      history.runner.listed = [] → history.runner.pool.stopped = false →
      row ∈ history.runner.store.tasks → row.taskPhase = .pending → history.Covers row := by
  intro hcovers
  let now : DateTime := ⟨⟨2024, 1, 2⟩, 0, 0, 0, 0, some 0⟩
  let resource : At := { metadata := { name := "a" }, spec := ⟨"2024-01-01T00:00:00Z", "echo"⟩ }
  let task : Task := (resource.stored "uid-1" now).newTask
  let row : TaskRow := task.row "uid-2" now
  let heard : TaskRunnerMove Bool := .hear { kind := .task, type := .added, key := task.key }
  let before : List (TaskRunnerMove Bool) :=
    [.list now .nothing, .call ⟨now, .createAt resource⟩, .call ⟨now, .createTask task⟩]
  let after : List (TaskRunnerMove Bool) :=
    [.begin true, .proceed true now (.unsent (.transient .database)) (.exited 0 none),
      .release task.key]
  obtain ⟨told, hbefore, hadded, history, hplay, hstarted, hrunning, hrow, hlost⟩ :
      ∃ told ∈ play (step? 3) ({ runner := { store := {} } } : RunnerHistory Bool) before,
        row ∈ told.runner.store.tasks ∧
          ∃ history ∈ play (step? 3) told (heard :: after), history.runner.listed = [] ∧
            history.runner.pool.stopped = false ∧ row ∈ history.runner.store.tasks ∧
            ¬ history.Covers row := by
    decide +kernel
  exact hlost (hcovers [] {} 3 before after heard told history row rfl hbefore
    ⟨rfl, rfl, row, hadded, rfl, rfl⟩ hplay hstarted hrunning hrow (by decide))

/-- No call fails, and a task waits without a job that was added under the key of another one
while that one was run. -/
example :
    let now : DateTime := ⟨⟨2024, 1, 2⟩, 0, 0, 0, 0, some 0⟩
    let resource : At := { metadata := { name := "a" }, spec := ⟨"2024-01-01T00:00:00Z", "echo"⟩ }
    let task : Task := (resource.stored "uid-1" now).newTask
    let goes : TaskRunnerMove Bool := .proceed true now .nothing (.exited 0 none)
    let heard : TaskRunnerMove Bool := .hear { kind := .task, type := .added, key := task.key }
    let moves : List (TaskRunnerMove Bool) :=
      [.call ⟨now, .createAt resource⟩, .call ⟨now, .createTask task⟩, heard, .begin true, goes,
        goes, .call ⟨now, .deleteAt resource.key⟩, .call ⟨now, .createTask task⟩, heard]
    ∃ history ∈ play (step? 3) ({ runner := { store := {} } } : RunnerHistory Bool) moves,
      ∃ row ∈ history.runner.store.tasks, row.taskPhase = .pending ∧ ¬ history.Covers row := by
  decide +kernel

end RunnerHistory

end OneShot
