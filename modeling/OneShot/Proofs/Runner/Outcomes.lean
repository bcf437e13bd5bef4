import OneShot.Proofs.Runner.History

/-!
# The outcome of a task

The outcome that a run stores was told by processes that the run has started
itself, with the command of the task that it has read.  It is written under the
key of that task.  As long as the task is stored, it is written to the task's own
row; when the task was removed and another one created under its key, it is
written to the row of the other one, whose command was not started.
-/

namespace OneShot

open Calendar

namespace Store

variable {earlier later : Store} {key : ObjectKey} {task own : Task} {row old : TaskRow}

/-- A row that was there when a task was read under its key is the row of that task. -/
theorem Intact.read_row (hearlier : earlier.Intact) (hread : earlier.getTask key = .ok task)
    (hold : old ∈ earlier.tasks) (hkey : old.key = key) :
    task.metadata.uid = old.uid ∧
      Column.readStrings? old.command = some task.container.command := by
  obtain ⟨found, hfound, hshown⟩ := toTask_of_getTask hread
  have hlookup := hearlier.taskRow?_of_mem hold
  have hsame : found = old := by
    rw [hkey, hfound] at hlookup
    exact Option.some.inj hlookup
  subst hsame
  exact ⟨TaskRow.uid_of_toTask hshown, TaskRow.command_of_toTask hshown⟩

/-- A row under the key of a task that was read before is the row of that task, with its
command, or a row that was created since, and then the task is not stored any more. -/
theorem Since.own_or_replaced (hearlier : earlier.Intact) (hlater : later.Intact)
    (hsince : earlier.Since later) (hread : earlier.getTask row.key = .ok task)
    (hrow : row ∈ later.tasks) (hown : row.toTask = .ok own) :
    (row.uid = task.metadata.uid ∧ own.container.command = task.container.command ∧
        earlier.HasTask row.uid) ∨
      (¬ earlier.HasTask row.uid ∧ ¬ later.HasTask task.metadata.uid) := by
  rcases hsince.rows row hrow with ⟨old, hold, huid, hkey, hcommand⟩ | hnew
  · left
    obtain ⟨hread_uid, hread_command⟩ := hearlier.read_row hread hold hkey.symm
    have hcommands : some own.container.command = some task.container.command := by
      rw [← TaskRow.command_of_toTask hown, hcommand, hread_command]
    exact ⟨huid.trans hread_uid.symm, Option.some.inj hcommands, old, hold, huid.symm⟩
  · right
    have habsent : ¬ earlier.HasTask row.uid := by
      rintro ⟨old, hold, huid⟩
      obtain ⟨number, hnumber, hissued⟩ := hearlier.taskIssued old hold
      exact hnew number hnumber (huid.symm.trans hissued)
    refine ⟨habsent, ?_⟩
    rintro ⟨other, hother, hsame⟩
    obtain ⟨found, hfound, hshown⟩ := toTask_of_getTask hread
    have hmem : found ∈ earlier.tasks := List.mem_of_find?_eq_some hfound
    have hfound_uid := TaskRow.uid_of_toTask hshown
    rcases hsince.rows other hother with ⟨old, hold, huid, hkey, -⟩ | hfresh
    · -- the task is still stored under its key, so no other row is
      have hold_found : old = found :=
        hearlier.eq_of_uid hold hmem (huid.symm.trans (hsame.trans hfound_uid))
      have hplace : other.key = row.key := by
        rw [hkey, hold_found, key_of_taskRow? hfound]
      have hrows : other = row :=
        List.inj_on_of_nodup_map hlater.taskKeys hother hrow hplace
      exact habsent ⟨found, hmem, by rw [← hrows, hsame, hfound_uid]⟩
    · obtain ⟨number, hnumber, hissued⟩ := hearlier.taskIssued found hmem
      exact hfresh number hnumber (hsame.trans (hfound_uid.trans hissued))

end Store

namespace Run

/-- A row that the step of a stage has changed is the row under the key of the run, and it
has got the status that the stage writes. -/
theorem written_of_work {stage : Stage} {now : DateTime} {mishap : Mishap} {ending : ProcessEnd}
    {store : Store} (hstore : store.Intact) {row after : TaskRow} (hrow : row ∈ store.tasks)
    (hafter : after ∈ (stage.work now mishap ending store).2.tasks) (hsame : after.uid = row.uid)
    (hchanged : after ≠ row) :
    row.key = stage.key ∧ ∃ status, stage.written? = some status ∧ after = row.moved status := by
  have hkept : after ∉ store.tasks :=
    fun hmem => hchanged (hstore.eq_of_uid hmem hrow hsame)
  rcases work_store stage now mishap ending store with hquiet | ⟨status, hstatus, hserved⟩
  · rw [hquiet] at hafter
    exact absurd hafter hkept
  · rw [hserved] at hafter
    rcases (store.serve_tasks now (.updateTaskStatus stage.key status)).origin hafter with
      hmem | ⟨written, old, hold, hcall, rfl⟩ | ⟨task, hcall, -⟩
    · exact absurd hmem hkept
    · obtain ⟨hkey, rfl⟩ := Call.updateTaskStatus.inj hcall
      have hrows : old = row := hstore.eq_of_uid hold hrow hsame
      rw [← hrows]
      exact ⟨hkey.symm, status, hstatus, rfl⟩
    · cases hcall

end Run

namespace RunnerHistory

variable {ι : Type} [DecidableEq ι] {maxAttempts : Nat} {history next : RunnerHistory ι}
  {moves : List (TaskRunnerMove ι)} {worker : ι} {now : DateTime} {mishap : Mishap}
  {ending : Run.ProcessEnd} {row after : TaskRow}

/-- A row in which a step of the runner has stored an outcome is one that a report was
made for. -/
theorem reported_of_step (hstore : history.runner.store.Intact)
    (hstep : history.step? maxAttempts (.proceed worker now mishap ending) = some next)
    (hrow : row ∈ history.runner.store.tasks) (hafter : after ∈ next.runner.store.tasks)
    (hsame : after.uid = row.uid) (hchanged : after ≠ row)
    (hended : after.taskPhase.isTerminal = true) :
    ∃ status, history.runner.stages worker = some (.report row.key status) ∧
      after = row.moved status := by
  have hrunner := runner_of_step hstep
  simp only [TaskRunner.step?] at hrunner
  obtain ⟨stage, hstage, hnext⟩ := Option.map_eq_some_iff.mp hrunner
  rw [← hnext, TaskRunner.moveOn_store] at hafter
  obtain ⟨hkey, status, hstatus, rfl⟩ := Run.written_of_work hstore hrow hafter hsame hchanged
  rw [Store.taskPhase_moved] at hended
  cases stage with
  | read key => cases hstatus
  | attempt key task further => cases hstatus
  | mark key task =>
      cases hstatus
      cases hended
  | report key reported =>
      cases hstatus
      rw [hkey]
      exact ⟨status, hstage, rfl⟩

/-- When a step of the runner stores in the row of a task that it has ended, the outcome was
told by processes that the run has started since it has read a task under this key.  They were
started with the row's own command while the row was stored, or the row was not there yet when
the run has read its task, and that task is not stored any more. -/
theorem outcome_of_own_processes_or_replaced {requests : List TimedCall} {store : Store}
    (hstore : play Store.handle? {} requests = some store)
    (hplay : play (step? maxAttempts) ({ runner := { store } } : RunnerHistory ι) moves =
      some history)
    (hstep : history.step? maxAttempts (.proceed worker now mishap ending) = some next)
    (hrow : row ∈ history.runner.store.tasks) (hafter : after ∈ next.runner.store.tasks)
    (hsame : after.uid = row.uid) (hchanged : after ≠ row)
    (hended : after.taskPhase.isTerminal = true) :
    ∃ own task earlier, row.toTask = .ok own ∧
      (history.records worker).found = some (task, earlier) ∧
      earlier.getTask row.key = .ok task ∧
      (history.records worker).Tells ⟨after.taskPhase, after.reason, after.message⟩ ∧
      (∀ launch ∈ (history.records worker).launches,
        launch.command = task.container.command) ∧
      ((∀ launch ∈ (history.records worker).launches,
          launch.command = own.container.command ∧ launch.store.HasTask own.metadata.uid) ∨
        (¬ earlier.HasTask own.metadata.uid ∧
          ¬ history.runner.store.HasTask task.metadata.uid)) := by
  have hsound := sound_of_play (Store.intact_of_play hstore) hplay
  obtain ⟨status, hstage, rfl⟩ :=
    reported_of_step hsound.store hstep hrow hafter hsame hchanged hended
  obtain ⟨own, hown⟩ := hsound.store.readableTasks row hrow
  have huid := TaskRow.uid_of_toTask hown
  obtain ⟨task, earlier, hbacks, htells⟩ := hsound.backed worker _ hstage
  have hstatus : (⟨(row.moved status).taskPhase, (row.moved status).reason,
      (row.moved status).message⟩ : TaskStatus) = status := by
    rw [Store.taskPhase_moved]
    rfl
  rw [hstatus]
  refine ⟨own, task, earlier, hown, hbacks.found, hbacks.read, htells,
    fun launch hlaunch => (hbacks.launches launch hlaunch).1, ?_⟩
  rw [huid]
  rcases hbacks.since.own_or_replaced hbacks.intact hsound.store hbacks.read hrow hown with
    ⟨-, hcommand, hthere⟩ | hreplaced
  · left
    intro launch hlaunch
    obtain ⟨hstarted, hbefore, hsince⟩ := hbacks.launches launch hlaunch
    exact ⟨hstarted.trans hcommand.symm, hbefore.hasTask hbacks.intact hsince hrow hthere⟩
  · exact Or.inr hreplaced

/-- A command fails and is started again, while another task is removed and created again. -/
theorem outcome_of_own_processes_of_second_attempt :
    let now : DateTime := ⟨⟨2024, 1, 2⟩, 0, 0, 0, 0, some 0⟩
    let one : At := { metadata := { name := "a" }, spec := ⟨"2024-01-01T00:00:00Z", "echo a"⟩ }
    let other : At := { metadata := { name := "b" }, spec := ⟨"2024-01-01T00:00:00Z", "ls"⟩ }
    let task : Task := (one.stored "uid-1" now).newTask
    let goes : Int → TaskRunnerMove Bool := fun code =>
      .proceed true now .nothing (.exited code none)
    let moves : List (TaskRunnerMove Bool) :=
      [.list now .nothing, .offer, .begin true, goes 0, goes 0, goes 1,
        .call ⟨now, .deleteAt other.key⟩, .call ⟨now, .createAt other⟩,
        .call ⟨now, .createTask (other.stored "uid-5" now).newTask⟩, goes 0]
    ∃ store history next row after own,
      play Store.handle? {} [⟨now, .createAt one⟩, ⟨now, .createTask task⟩,
        ⟨now, .createAt other⟩, ⟨now, .createTask (other.stored "uid-3" now).newTask⟩] =
          some store ∧
      play (step? 3) ({ runner := { store } } : RunnerHistory Bool) moves = some history ∧
      history.step? 3 (goes 0) = some next ∧ row ∈ history.runner.store.tasks ∧
      after ∈ next.runner.store.tasks ∧ after.uid = row.uid ∧ after ≠ row ∧
      after.taskPhase.isTerminal = true ∧ row.toTask = .ok own ∧
      ∀ launch ∈ (history.records true).launches,
        launch.command = own.container.command ∧ launch.store.HasTask own.metadata.uid := by
  intro now one other task goes moves
  let store : Store :=
    { ats := [one.row "uid-1" now, other.row "uid-3" now]
      tasks := [task.row "uid-2" now, (other.stored "uid-3" now).newTask.row "uid-4" now]
      issued := 4 }
  have hstore : play Store.handle? {} [⟨now, .createAt one⟩, ⟨now, .createTask task⟩,
      ⟨now, .createAt other⟩, ⟨now, .createTask (other.stored "uid-3" now).newTask⟩] =
        some store := by decide +kernel
  obtain ⟨history, hplay, next, hstep, ⟨row, hrow, after, hafter, hsame, hchanged, hended⟩,
      hfound⟩ :
      ∃ history ∈ play (step? 3) ({ runner := { store } } : RunnerHistory Bool) moves,
        ∃ next ∈ history.step? 3 (goes 0),
          (∃ row ∈ history.runner.store.tasks, ∃ after ∈ next.runner.store.tasks,
            after.uid = row.uid ∧ after ≠ row ∧ after.taskPhase.isTerminal = true) ∧
          ∀ read ∈ (history.records true).found,
            history.runner.store.HasTask read.1.metadata.uid := by
    decide +kernel
  obtain ⟨own, task, earlier, hown, hread, -, -, -, hours | ⟨-, hgone⟩⟩ :=
    outcome_of_own_processes_or_replaced hstore hplay hstep hrow hafter hsame hchanged hended
  · exact ⟨store, history, next, row, after, own, hstore, hplay, hstep, hrow, hafter, hsame,
      hchanged, hended, hown, hours⟩
  · exact absurd (hfound _ hread) hgone

/-- While the command of a task runs, the task is removed and another one with another
command is created under its key.  The outcome goes to the other one. -/
theorem outcome_of_processes_of_another :
    ¬ ∀ (requests : List TimedCall) (store : Store) (maxAttempts : Nat)
      (moves : List (TaskRunnerMove Bool)) (history next : RunnerHistory Bool) (worker : Bool)
      (now : DateTime) (mishap : Mishap) (ending : Run.ProcessEnd) (row after : TaskRow)
      (own : Task),
      play Store.handle? {} requests = some store →
      play (step? maxAttempts) ({ runner := { store } } : RunnerHistory Bool) moves =
        some history →
      history.step? maxAttempts (.proceed worker now mishap ending) = some next →
      row ∈ history.runner.store.tasks → after ∈ next.runner.store.tasks →
      after.uid = row.uid → after ≠ row → after.taskPhase.isTerminal = true →
      row.toTask = .ok own →
        ∀ launch ∈ (history.records worker).launches,
          launch.command = own.container.command ∧ launch.store.HasTask own.metadata.uid := by
  intro hown
  let now : DateTime := ⟨⟨2024, 1, 2⟩, 0, 0, 0, 0, some 0⟩
  let one : At := { metadata := { name := "a" }, spec := ⟨"2024-01-01T00:00:00Z", "echo a"⟩ }
  let other : At := { metadata := { name := "a" }, spec := ⟨"2024-01-01T00:00:00Z", "ls"⟩ }
  let task : Task := (one.stored "uid-1" now).newTask
  let replacement : Task := (other.stored "uid-3" now).newTask
  let goes : TaskRunnerMove Bool := .proceed true now .nothing (.exited 0 none)
  let moves : List (TaskRunnerMove Bool) :=
    [.list now .nothing, .offer, .begin true, goes, goes, goes,
      .call ⟨now, .deleteAt one.key⟩, .call ⟨now, .createAt other⟩,
      .call ⟨now, .createTask replacement⟩]
  let store : Store :=
    { ats := [one.row "uid-1" now], tasks := [task.row "uid-2" now], issued := 2 }
  have hstore : play Store.handle? {} [⟨now, .createAt one⟩, ⟨now, .createTask task⟩] =
      some store := by decide +kernel
  let row : TaskRow := replacement.row "uid-4" now
  obtain ⟨history, hplay, next, hstep, hrow, hafter, launch, hlaunch, hcommand⟩ :
      ∃ history ∈ play (step? 3) ({ runner := { store } } : RunnerHistory Bool) moves,
        ∃ next ∈ history.step? 3 goes, row ∈ history.runner.store.tasks ∧
          row.moved { phase := .succeeded } ∈ next.runner.store.tasks ∧
          ∃ launch ∈ (history.records true).launches, launch.command = ["echo", "a"] := by
    decide +kernel
  obtain ⟨hsame, -⟩ := hown _ store 3 moves history next true now .nothing (.exited 0 none) row
    (row.moved { phase := .succeeded }) (replacement.stored "uid-4" now) hstore hplay hstep hrow
    hafter rfl (by decide +kernel) (by decide +kernel) (replacement.toTask_row "uid-4" now)
    launch hlaunch
  rw [hcommand] at hsame
  exact absurd hsame (by decide +kernel)

end RunnerHistory

end OneShot
