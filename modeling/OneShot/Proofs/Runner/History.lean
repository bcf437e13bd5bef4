import OneShot.Proofs.Runner.Once

/-!
# Histories of a task runner

A history keeps, beside the runner, a record of what each worker has read and
started since it took its job.  The record is never consulted by a step; it ties
the outcome that a run stores to the processes that the run has started, and
these to the task that it has read.

A task is read once and its row is written later under the same key.  What may
have become of the row meanwhile is said by one relation between stores,
`Store.Since`, which every step of the runner and of its clients keeps.
-/

namespace OneShot

open Calendar

namespace Store

/-- A task with this uid is stored. -/
def HasTask (store : Store) (uid : String) : Prop :=
  ∃ row ∈ store.tasks, row.uid = uid

instance (store : Store) (uid : String) : Decidable (store.HasTask uid) :=
  inferInstanceAs (Decidable (∃ row ∈ store.tasks, row.uid = uid))

/-- Every task of the later store was there before, under the same key and with
the same command, or it was created in between. -/
structure Since (earlier later : Store) : Prop where
  issued : earlier.issued ≤ later.issued
  rows : ∀ row ∈ later.tasks,
    (∃ old ∈ earlier.tasks, row.uid = old.uid ∧ row.key = old.key ∧ row.command = old.command) ∨
      ∀ number ≤ earlier.issued, row.uid ≠ uidText number

variable {earlier middle later : Store} {row : TaskRow}

theorem Since.refl (store : Store) : store.Since store where
  issued := Nat.le_refl store.issued
  rows := fun row hrow => Or.inl ⟨row, hrow, rfl, rfl, rfl⟩

theorem Since.trans (hfirst : earlier.Since middle) (hsecond : middle.Since later) :
    earlier.Since later where
  issued := Nat.le_trans hfirst.issued hsecond.issued
  rows := by
    intro row hrow
    rcases hsecond.rows row hrow with ⟨old, hold, huid, hkey, hcommand⟩ | hnew
    · rcases hfirst.rows old hold with ⟨oldest, holdest, huid', hkey', hcommand'⟩ | hnew
      · exact Or.inl ⟨oldest, holdest, huid.trans huid', hkey.trans hkey',
          hcommand.trans hcommand'⟩
      · right
        intro number hnumber
        rw [huid]
        exact hnew number hnumber
    · right
      intro number hnumber
      exact hnew number (Nat.le_trans hnumber hfirst.issued)

theorem since_serve (store : Store) (now : DateTime) (call : Call) :
    store.Since (store.serve now call).store where
  issued := store.issued_le_serve now call
  rows := by
    intro row hrow
    rcases (store.serve_tasks now call).origin hrow with
      hold | ⟨status, old, hold, -, rfl⟩ | ⟨task, -, -, rfl, -⟩
    · exact Or.inl ⟨row, hold, rfl, rfl, rfl⟩
    · exact Or.inl ⟨old, hold, rfl, rfl, rfl⟩
    · right
      intro number hnumber heq
      have hnumbers : store.issued + 1 = number := uidText_inj heq
      omega

/-- A task that is stored now and was stored at first was there all the time. -/
theorem Since.hasTask (hearlier : earlier.Intact) (hfirst : earlier.Since middle)
    (hsecond : middle.Since later) (hrow : row ∈ later.tasks) (hold : earlier.HasTask row.uid) :
    middle.HasTask row.uid := by
  rcases hsecond.rows row hrow with ⟨found, hfound, huid, -⟩ | hnew
  · exact ⟨found, hfound, huid.symm⟩
  · obtain ⟨old, hmem, huid⟩ := hold
    obtain ⟨number, hnumber, hissued⟩ := hearlier.taskIssued old hmem
    have hnot := hnew number (Nat.le_trans hnumber hfirst.issued)
    exact absurd (huid.symm.trans hissued) hnot

end Store

/-! ## What a run has to show -/

/-- A process was started, with this command and this end, when the store was so. -/
structure Launch where
  command : List String
  ending : Run.ProcessEnd
  store : Store

/-- What a run has read, and the processes that it has started, the oldest first. -/
structure RunRecord where
  found : Option (Task × Store) := none
  launches : List Launch := []

namespace Run

/-- The outcome that the last process of a run gives it. -/
def ProcessEnd.status? : ProcessEnd → Option TaskStatus
  | .exited code errors =>
      if code = 0 then some { phase := .succeeded }
      else some
        { phase := .failed, reason := some "Error", message := some (failureMessage code errors) }
  | .notStarted text =>
      some { phase := .failed, reason := some "StartError", message := some text }
  | .crashed _ => none

/-- The command ran and failed, so that it may be started again. -/
def ProcessEnd.Failed (ending : ProcessEnd) : Prop :=
  ∃ code errors, code ≠ 0 ∧ ending = .exited code errors

/-- What an attempt leads to. -/
theorem afterAttempt_eq (key : ObjectKey) (task : Task) (further : Nat) (ending : ProcessEnd) :
    (∃ left, further = left + 1 ∧ ending.Failed ∧
      afterAttempt key task further ending = .goOn (.attempt key task left)) ∨
      (∃ status, ending.status? = some status ∧ (ending.Failed → further = 0) ∧
        afterAttempt key task further ending = .goOn (.report key status)) ∨
      ∃ fault, ending = .crashed fault ∧ afterAttempt key task further ending = .failed fault := by
  cases ending with
  | exited code errors =>
      by_cases hcode : code = 0
      · have hnot : ¬ (ProcessEnd.exited code errors).Failed := by
          rintro ⟨other, _, hother, heq⟩
          cases heq
          exact hother hcode
        exact Or.inr (Or.inl ⟨_, if_pos hcode, fun hfailed => absurd hfailed hnot, if_pos hcode⟩)
      · cases further with
        | zero =>
            exact Or.inr (Or.inl ⟨_, if_neg hcode, fun _ => rfl, if_neg hcode⟩)
        | succ left =>
            exact Or.inl ⟨left, rfl, ⟨code, errors, hcode, rfl⟩, if_neg hcode⟩
  | notStarted text =>
      refine Or.inr (Or.inl ⟨_, rfl, ?_, rfl⟩)
      rintro ⟨code, errors, hcode, heq⟩
      cases heq
  | crashed fault => exact Or.inr (Or.inr ⟨fault, rfl, rfl⟩)

theorem afterAttempt_cases {key : ObjectKey} {task : Task} {further : Nat} {ending : ProcessEnd}
    {following : Stage} (hgo : afterAttempt key task further ending = .goOn following) :
    (ending.Failed ∧ ∃ left, following = .attempt key task left) ∨
      ∃ status, ending.status? = some status ∧ following = .report key status := by
  rcases afterAttempt_eq key task further ending with
    ⟨left, -, hfailed, hagain⟩ | ⟨status, hstatus, -, hreport⟩ | ⟨fault, -, hcrashed⟩
  · exact Or.inl ⟨hfailed, left, Progress.goOn.inj (hgo.symm.trans hagain)⟩
  · exact Or.inr ⟨status, hstatus, Progress.goOn.inj (hgo.symm.trans hreport)⟩
  · cases hgo.symm.trans hcrashed

end Run

namespace RunRecord

/-- The processes of a run have led to this outcome: the last one gives it, and
those before have failed. -/
def Tells (record : RunRecord) (status : TaskStatus) : Prop :=
  ∃ failed last, record.launches = failed ++ [last] ∧ last.ending.status? = some status ∧
    ∀ launch ∈ failed, launch.ending.Failed

/-- The run has read this task under this key, and has started its command only. -/
structure Backs (record : RunRecord) (store : Store) (key : ObjectKey) (task : Task)
    (earlier : Store) : Prop where
  found : record.found = some (task, earlier)
  intact : earlier.Intact
  read : earlier.getTask key = .ok task
  since : earlier.Since store
  launches : ∀ launch ∈ record.launches, launch.command = task.container.command ∧
    earlier.Since launch.store ∧ launch.store.Since store

variable {record : RunRecord} {store later earlier : Store} {key : ObjectKey} {task : Task}

theorem Backs.mono (hbacks : record.Backs store key task earlier) (hlater : store.Since later) :
    record.Backs later key task earlier where
  found := hbacks.found
  intact := hbacks.intact
  read := hbacks.read
  since := hbacks.since.trans hlater
  launches := by
    intro launch hlaunch
    obtain ⟨hcommand, hbefore, hafter⟩ := hbacks.launches launch hlaunch
    exact ⟨hcommand, hbefore, hafter.trans hlater⟩

theorem Backs.launch (hbacks : record.Backs store key task earlier)
    (ending : Run.ProcessEnd) :
    RunRecord.Backs
      { record with launches := record.launches ++ [⟨task.container.command, ending, store⟩] }
      store key task earlier :=
  { hbacks with
    launches := List.forall_mem_append.mpr ⟨hbacks.launches,
      List.forall_mem_singleton.mpr ⟨rfl, hbacks.since, Store.Since.refl store⟩⟩ }

/-- What the step of a stage adds to the record of its run. -/
def note (record : RunRecord) (ending : Run.ProcessEnd) (store : Store) :
    Run.Stage → Run.Progress → RunRecord
  | .read _, .goOn (.mark _ task) => { record with found := some (task, store) }
  | .attempt _ task _, _ =>
      { record with launches := record.launches ++ [⟨task.container.command, ending, store⟩] }
  | _, _ => record

end RunRecord

/-- What is on record when a run has come to a stage. -/
def Run.Stage.Backed (store : Store) (record : RunRecord) : Run.Stage → Prop
  | .read _ => record.found = none ∧ record.launches = []
  | .mark key task => ∃ earlier, record.Backs store key task earlier ∧ record.launches = []
  | .attempt key task _ => ∃ earlier, record.Backs store key task earlier ∧
      ∀ launch ∈ record.launches, launch.ending.Failed
  | .report key status => ∃ task earlier, record.Backs store key task earlier ∧
      record.Tells status

namespace Run

variable {store later : Store} {record : RunRecord} {stage following : Stage}
  {maxAttempts : Nat} {now : DateTime} {mishap : Mishap} {ending : ProcessEnd}

theorem Stage.Backed.mono (hbacked : stage.Backed store record) (hlater : store.Since later) :
    stage.Backed later record := by
  cases stage with
  | read key => exact hbacked
  | mark key task =>
      obtain ⟨earlier, hbacks, hnone⟩ := hbacked
      exact ⟨earlier, hbacks.mono hlater, hnone⟩
  | attempt key task further =>
      obtain ⟨earlier, hbacks, hfailed⟩ := hbacked
      exact ⟨earlier, hbacks.mono hlater, hfailed⟩
  | report key status =>
      obtain ⟨task, earlier, hbacks, htells⟩ := hbacked
      exact ⟨task, earlier, hbacks.mono hlater, htells⟩

theorem since_progress (stage : Stage) (maxAttempts : Nat) (now : DateTime) (mishap : Mishap)
    (ending : ProcessEnd) (store : Store) :
    store.Since (stage.progress maxAttempts now mishap ending store).2 := by
  rcases work_store stage now mishap ending store with hsame | ⟨status, -, hserved⟩
  · have hkept : (stage.progress maxAttempts now mishap ending store).2 = store := hsame
    rw [hkept]
    exact Store.Since.refl store
  · have hwritten : (stage.progress maxAttempts now mishap ending store).2 =
        (store.serve now (.updateTaskStatus stage.key status)).store := hserved
    rw [hwritten]
    exact store.since_serve now _

theorem Stage.Backed.goOn (hstore : store.Intact) (hbacked : stage.Backed store record)
    (hgo : stage.progress maxAttempts now mishap ending store = (.goOn following, later)) :
    following.Backed later (record.note ending store stage (.goOn following)) := by
  have hsince : store.Since later := by
    have hafter := since_progress stage maxAttempts now mishap ending store
    rwa [hgo] at hafter
  have hgoes := goesOn_of_progress hgo
  cases stage with
  | read key =>
      cases hgoes with
      | @found key task hheard hread hpending =>
          obtain ⟨-, hnone⟩ := hbacked
          refine ⟨store, ⟨rfl, hstore, hread, hsince, ?_⟩, hnone⟩
          intro launch hlaunch
          have hmem : launch ∈ record.launches := hlaunch
          rw [hnone] at hmem
          cases hmem
  | mark key task =>
      obtain ⟨earlier, hbacks, hnone⟩ := hbacked
      cases hgoes with
      | marked hdone =>
          refine ⟨earlier, hbacks.mono hsince, ?_⟩
          intro launch hlaunch
          have hmem : launch ∈ record.launches := hlaunch
          rw [hnone] at hmem
          cases hmem
  | attempt key task further =>
      obtain ⟨earlier, hbacks, hfailed⟩ := hbacked
      have hlaunched := (hbacks.launch ending).mono hsince
      have hnext : afterAttempt key task further ending = .goOn following := congrArg Prod.fst hgo
      rcases afterAttempt_cases hnext with ⟨hagain, left, rfl⟩ | ⟨status, hstatus, rfl⟩
      · exact ⟨earlier, hlaunched, List.forall_mem_append.mpr
          ⟨hfailed, List.forall_mem_singleton.mpr hagain⟩⟩
      · exact ⟨task, earlier, hlaunched, record.launches, _, rfl, hstatus, hfailed⟩
  | report key status => cases hgoes

end Run

/-! ## Steps of the runner -/

namespace TaskRunner

variable {ι : Type} [DecidableEq ι] {runner next : TaskRunner ι} {move : TaskRunnerMove ι}
  {worker other : ι} {maxAttempts : Nat} {stage : Run.Stage}

@[simp] theorem moveOn_store (outcome : Run.Progress × Store) :
    (runner.moveOn worker stage outcome).store = outcome.2 := by
  obtain ⟨progress, store⟩ := outcome
  cases progress <;> rfl

@[simp] theorem moveOn_pool (outcome : Run.Progress × Store) :
    (runner.moveOn worker stage outcome).pool = runner.pool := by
  obtain ⟨progress, store⟩ := outcome
  cases progress <;> rfl

@[simp] theorem moveOn_listed (outcome : Run.Progress × Store) :
    (runner.moveOn worker stage outcome).listed = runner.listed := by
  obtain ⟨progress, store⟩ := outcome
  cases progress <;> rfl

theorem moveOn_stages_of_ne (outcome : Run.Progress × Store) (hne : other ≠ worker) :
    (runner.moveOn worker stage outcome).stages other = runner.stages other := by
  obtain ⟨progress, store⟩ := outcome
  cases progress <;> simp [moveOn, hne]

/-- What a step does to the store: nothing, or one call. -/
theorem store_of_step (hstep : runner.step? maxAttempts move = some next) :
    next.store = runner.store ∨ ∃ now call, next.store = (runner.store.serve now call).store := by
  cases step_cases hstep with
  | called request => exact Or.inr ⟨request.now, request.call, rfl⟩
  | went now mishap ending hstage =>
      rw [moveOn_store]
      rcases Run.work_store _ now mishap ending runner.store with hsame | ⟨status, -, hserved⟩
      · exact Or.inl hsame
      · exact Or.inr ⟨now, _, hserved⟩
  | _ => exact Or.inl rfl

theorem since_of_step (hstep : runner.step? maxAttempts move = some next) :
    runner.store.Since next.store := by
  rcases store_of_step hstep with hsame | ⟨now, call, hserved⟩
  · rw [hsame]
    exact Store.Since.refl runner.store
  · rw [hserved]
    exact runner.store.since_serve now call

theorem intact_of_step (hstore : runner.store.Intact)
    (hstep : runner.step? maxAttempts move = some next) : next.store.Intact := by
  rcases store_of_step hstep with hsame | ⟨now, call, hserved⟩
  · rw [hsame]
    exact hstore
  · rw [hserved]
    exact hstore.serve now call

end TaskRunner

/-! ## Histories -/

/-- A task runner, with the records of the runs that its workers are on. -/
structure RunnerHistory (ι : Type) where
  runner : TaskRunner ι
  records : ι → RunRecord := fun _ => {}

namespace RunnerHistory

variable {ι : Type} [DecidableEq ι]

def recordsAfter (maxAttempts : Nat) (history : RunnerHistory ι) :
    TaskRunnerMove ι → ι → RunRecord
  | .begin worker => Function.update history.records worker {}
  | .proceed worker now mishap ending =>
      match history.runner.stages worker with
      | none => history.records
      | some stage =>
          Function.update history.records worker
            ((history.records worker).note ending history.runner.store stage
              (stage.progress maxAttempts now mishap ending history.runner.store).1)
  | _ => history.records

/-- A step of the runner, with the records brought up to date. -/
def step? (maxAttempts : Nat) (history : RunnerHistory ι) (move : TaskRunnerMove ι) :
    Option (RunnerHistory ι) :=
  (history.runner.step? maxAttempts move).map fun runner =>
    { runner, records := history.recordsAfter maxAttempts move }

variable {maxAttempts : Nat} {history next : RunnerHistory ι} {move : TaskRunnerMove ι}
  {moves : List (TaskRunnerMove ι)} {worker : ι} {stage : Run.Stage}

theorem runner_of_step (hstep : history.step? maxAttempts move = some next) :
    history.runner.step? maxAttempts move = some next.runner := by
  obtain ⟨runner, hrunner, rfl⟩ := Option.map_eq_some_iff.mp hstep
  exact hrunner

theorem records_of_step (hstep : history.step? maxAttempts move = some next) :
    next.records = history.recordsAfter maxAttempts move := by
  obtain ⟨runner, -, rfl⟩ := Option.map_eq_some_iff.mp hstep
  rfl

/-- The runs of histories are the runs of their runners. -/
theorem play_runner (maxAttempts : Nat) (history : RunnerHistory ι)
    (moves : List (TaskRunnerMove ι)) :
    (play (step? maxAttempts) history moves).map (·.runner) =
      play (TaskRunner.step? maxAttempts) history.runner moves := by
  induction moves generalizing history with
  | nil => rfl
  | cons move rest ih =>
      rw [play_cons, play_cons]
      unfold step?
      cases history.runner.step? maxAttempts move with
      | none => rfl
      | some runner => exact ih { runner, records := history.recordsAfter maxAttempts move }

/-- What a step means to a worker that is on a run afterwards. -/
inductive Went (maxAttempts : Nat) (history next : RunnerHistory ι) (worker : ι)
    (stage : Run.Stage) : TaskRunnerMove ι → Prop where
  /-- The step was made elsewhere. -/
  | still {move : TaskRunnerMove ι} (hstage : history.runner.stages worker = some stage)
      (hrecord : next.records worker = history.records worker) :
      Went maxAttempts history next worker stage move
  | begun {key : ObjectKey} (hstage : stage = .read key) (hrecord : next.records worker = {}) :
      Went maxAttempts history next worker stage (.begin worker)
  | onward {now : DateTime} {mishap : Mishap} {ending : Run.ProcessEnd} {before : Run.Stage}
      (hbefore : history.runner.stages worker = some before)
      (hgo : before.progress maxAttempts now mishap ending history.runner.store =
        (.goOn stage, next.runner.store))
      (hrecord : next.records worker =
        (history.records worker).note ending history.runner.store before (.goOn stage)) :
      Went maxAttempts history next worker stage (.proceed worker now mishap ending)

theorem went_of_proceed {mover : ι} {now : DateTime} {mishap : Mishap}
    {ending : Run.ProcessEnd} {before : Run.Stage}
    (hbefore : history.runner.stages mover = some before)
    (hstep : history.step? maxAttempts (.proceed mover now mishap ending) = some next)
    (hstage : next.runner.stages worker = some stage) :
    Went maxAttempts history next worker stage (.proceed mover now mishap ending) := by
  obtain ⟨runner, hrunner, rfl⟩ := Option.map_eq_some_iff.mp hstep
  simp only [TaskRunner.step?, hbefore, Option.map_some, Option.some.injEq] at hrunner
  subst hrunner
  have hrecords : history.recordsAfter maxAttempts (.proceed mover now mishap ending) =
      Function.update history.records mover
        ((history.records mover).note ending history.runner.store before
          (before.progress maxAttempts now mishap ending history.runner.store).1) := by
    simp only [recordsAfter, hbefore]
  by_cases hmover : worker = mover
  · subst hmover
    cases hprogress : before.progress maxAttempts now mishap ending history.runner.store with
    | mk progress store =>
        rw [hprogress] at hstage hrecords
        cases progress with
        | goOn following =>
            simp only [TaskRunner.moveOn, Function.update_self, Option.some.injEq] at hstage
            subst hstage
            exact .onward hbefore (by simp [hprogress]) (by simp [hrecords])
        | finished phase => simp [TaskRunner.moveOn] at hstage
        | failed fault => simp [TaskRunner.moveOn] at hstage
  · rw [TaskRunner.moveOn_stages_of_ne _ hmover] at hstage
    exact .still hstage (by simp [hrecords, hmover])

theorem went_of_step (hstep : history.step? maxAttempts move = some next)
    (hstage : next.runner.stages worker = some stage) :
    Went maxAttempts history next worker stage move := by
  obtain ⟨runner, hrunner, rfl⟩ := Option.map_eq_some_iff.mp hstep
  cases TaskRunner.step_cases hrunner with
  | went now mishap ending hbefore => exact went_of_proceed hbefore hstep hstage
  | begun hfree hbegin =>
      rcases update_cases hstage with ⟨rfl, hplace⟩ | ⟨hne, hbefore⟩
      · exact .begun (Option.some.inj hplace).symm (by simp [recordsAfter])
      · exact .still hbefore (by simp [recordsAfter, hne])
  | _ => exact .still hstage rfl

/-! ## What is on record -/

/-- What holds of every history. -/
structure Sound (history : RunnerHistory ι) : Prop where
  store : history.runner.store.Intact
  backed : ∀ worker stage, history.runner.stages worker = some stage →
    stage.Backed history.runner.store (history.records worker)

theorem Sound.step (hsound : history.Sound) (hstep : history.step? maxAttempts move = some next) :
    next.Sound := by
  have hrunner := runner_of_step hstep
  constructor
  · exact TaskRunner.intact_of_step hsound.store hrunner
  · intro worker stage hstage
    cases went_of_step hstep hstage with
    | still hbefore hrecord =>
        rw [hrecord]
        exact (hsound.backed worker stage hbefore).mono (TaskRunner.since_of_step hrunner)
    | begun hread hrecord =>
        rw [hrecord, hread]
        exact ⟨rfl, rfl⟩
    | onward hbefore hgo hrecord =>
        rw [hrecord]
        exact (hsound.backed worker _ hbefore).goOn hsound.store hgo

theorem sound_of_play {store : Store} (hstore : store.Intact)
    (hplay : play (step? maxAttempts) ({ runner := { store } } : RunnerHistory ι) moves =
      some history) : history.Sound := by
  refine play_keeps (P := Sound) ?_ ?_ hplay
  · intro history move next hsound hstep
    exact hsound.step hstep
  · exact ⟨hstore, by simp⟩

end RunnerHistory

end OneShot
