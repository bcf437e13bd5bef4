import OneShot.Proofs.Store.Columns
import OneShot.Proofs.Store.Incarnations

/-!
# Rows that can be told apart and read

In both tables no two rows share a key or a uid, and every row stands for an
object.  For the table of tasks all that a call does to it is listed first; a
task is found by its key, and a removal takes along those that name the uid of
the removed command.
-/

namespace OneShot

open Calendar

/-- The row of a task that has got another status. -/
def TaskRow.moved (row : TaskRow) (status : TaskStatus) : TaskRow :=
  { row with
    phase := status.phase.text
    reason := status.reason
    message := status.message
    version := row.version + 1 }

@[simp] theorem TaskRow.key_moved (row : TaskRow) (status : TaskStatus) :
    (row.moved status).key = row.key := rfl

@[simp] theorem TaskRow.uid_moved (row : TaskRow) (status : TaskStatus) :
    (row.moved status).uid = row.uid := rfl

theorem TaskRow.uid_of_toTask {row : TaskRow} {task : Task} (hread : row.toTask = .ok task) :
    task.metadata.uid = row.uid := by
  obtain ⟨labels, command, policy, -, rfl⟩ := TaskRow.toTask_eq_ok hread
  rfl

theorem TaskRow.command_of_toTask {row : TaskRow} {task : Task} (hread : row.toTask = .ok task) :
    Column.readStrings? row.command = some task.container.command := by
  obtain ⟨labels, command, policy, hcommand, rfl⟩ := TaskRow.toTask_eq_ok hread
  exact hcommand

namespace Store

/-! ## The table of tasks -/

/-- What a call does to the table of tasks. -/
inductive TasksChange (store : Store) (now : DateTime) (call : Call) (after : Store) : Prop where
  | kept (htasks : after.tasks = store.tasks)
  | added (task : Task) (hcall : call = .createTask task)
      (hfree : store.taskRow? task.key = none)
      (htasks : after.tasks = store.tasks ++ [task.row (uidText (store.issued + 1)) now])
      (hissued : after.issued = store.issued + 1)
  | moved (key : ObjectKey) (status : TaskStatus) (hcall : call = .updateTaskStatus key status)
      (htasks : after.tasks =
        store.tasks.map fun row => if row.key = key then row.moved status else row)
  | removed (key : ObjectKey) (resource : At) (hcall : call = .deleteAt key)
      (hresource : store.getAt key = .ok resource)
      (htasks : after.tasks =
        store.tasks.filter fun row => row.ownerUid != some resource.metadata.uid)
      (hats : after.ats = store.ats.filter fun row => row.uid != resource.metadata.uid)

theorem Change.tasks {before : Store} {call : Call} {effect : Effect call.Reply}
    (hchange : Change before call effect) (now : DateTime)
    (hadds : ∀ task, call = .createTask task → TasksChange before now call effect.store) :
    TasksChange before now call effect.store := by
  cases hchange with
  | refused hquiet => exact .kept hquiet.tasks
  | read hquiet => exact .kept hquiet.tasks
  | addAt hfree hkey hshows hats htasks => exact .kept htasks
  | moveAt hrow hversion hkey hstore => exact .kept (hstore ▸ rfl)
  | editAt hkey hstore => exact .kept (hstore ▸ rfl)
  | removeAt hresource howned hats htasks => exact .removed _ _ rfl hresource htasks hats
  | addTask => exact hadds _ rfl
  | moveTask hrow hshows hstore => exact .moved _ _ rfl (hstore ▸ rfl)

theorem serve_tasks (store : Store) (now : DateTime) (call : Call) :
    TasksChange store now call (store.serve now call).store := by
  refine (store.serve_change now call).tasks now ?_
  rintro task rfl
  cases htaken : store.taskRow? task.key with
  | some found =>
      have hrefused : store.serve now (.createTask task) = store.refuse _ :=
        createTask_of_taken now task htaken
      rw [hrefused]
      exact .kept rfl
  | none =>
      have hcreated : store.serve now (.createTask task) = _ := createTask_of_free now task htaken
      rw [hcreated]
      exact .added task rfl htaken rfl rfl

variable {store after : Store} {now : DateTime} {call : Call}

/-- Where a row of the table comes from. -/
theorem TasksChange.origin (hchange : TasksChange store now call after) {row : TaskRow}
    (hrow : row ∈ after.tasks) :
    row ∈ store.tasks ∨
      (∃ status, ∃ old ∈ store.tasks, call = .updateTaskStatus old.key status ∧
        row = old.moved status) ∨
      ∃ task, call = .createTask task ∧ store.taskRow? task.key = none ∧
        row = task.row (uidText (store.issued + 1)) now ∧ after.issued = store.issued + 1 := by
  cases hchange with
  | kept htasks => exact Or.inl (htasks ▸ hrow)
  | added task hcall hfree htasks hissued =>
      rw [htasks, List.mem_append, List.mem_singleton] at hrow
      rcases hrow with hold | hnew
      · exact Or.inl hold
      · exact Or.inr (Or.inr ⟨task, hcall, hfree, hnew, hissued⟩)
  | moved key status hcall htasks =>
      rw [htasks] at hrow
      obtain ⟨old, hold, rfl⟩ := List.mem_map.mp hrow
      by_cases hkey : old.key = key
      · subst hkey
        rw [if_pos rfl]
        exact Or.inr (Or.inl ⟨status, old, hold, hcall, rfl⟩)
      · rw [if_neg hkey]
        exact Or.inl hold
  | removed key resource hcall hresource htasks hats =>
      rw [htasks] at hrow
      exact Or.inl (List.mem_of_mem_filter hrow)

/-- A column that a status does not touch is distinct in all rows after a call,
if it is before and a new row brings a new value. -/
theorem TasksChange.nodup {β : Type} {column : TaskRow → β}
    (hchange : TasksChange store now call after)
    (hmoved : ∀ row status, column (TaskRow.moved row status) = column row)
    (hnew : ∀ task, call = .createTask task → store.taskRow? task.key = none →
      ∀ old ∈ store.tasks, column old ≠ column (task.row (uidText (store.issued + 1)) now))
    (hnodup : (store.tasks.map column).Nodup) : (after.tasks.map column).Nodup := by
  cases hchange with
  | kept htasks => rwa [htasks]
  | added task hcall hfree htasks hissued =>
      rw [htasks, List.map_append, List.map_singleton]
      refine hnodup.append (List.nodup_singleton _) (List.disjoint_singleton.mpr fun htaken => ?_)
      obtain ⟨old, hold, heq⟩ := List.mem_map.mp htaken
      exact hnew task hcall hfree old hold heq
  | moved key status hcall htasks =>
      have hsame : (store.tasks.map fun row => if row.key = key then row.moved status else row).map
          column = store.tasks.map column := by
        rw [List.map_map]
        refine List.map_congr_left fun row _ => ?_
        rw [Function.comp_apply]
        split
        next => exact hmoved row status
        next => rfl
      rwa [htasks, hsame]
  | removed key resource hcall hresource htasks hats =>
      rw [htasks]
      exact hnodup.sublist (List.filter_sublist.map column)

/-! ## Both tables -/

theorem ne_next_uid {uid : String} (hissued : ∃ number ≤ store.issued, uid = uidText number) :
    uid ≠ uidText (store.issued + 1) := by
  obtain ⟨number, hnumber, rfl⟩ := hissued
  intro heq
  have hsame : number = store.issued + 1 := uidText_inj heq
  omega

/-- The rows can be told apart and stand for objects. -/
structure Intact (store : Store) : Prop where
  ats : store.Identified
  taskKeys : (store.tasks.map TaskRow.key).Nodup
  taskUids : (store.tasks.map TaskRow.uid).Nodup
  taskIssued : ∀ row ∈ store.tasks, ∃ number ≤ store.issued, row.uid = uidText number
  readableAts : ∀ row ∈ store.ats, ∃ resource, row.toAt = .ok resource
  readableTasks : ∀ row ∈ store.tasks, ∃ task, row.toTask = .ok task

theorem intact_empty : Intact {} := by
  constructor
  · exact identified_empty
  all_goals simp

theorem toAt_of_labels {row old : AtRow} (hlabels : row.labels = old.labels)
    (hold : ∃ resource, old.toAt = .ok resource) : ∃ resource, row.toAt = .ok resource := by
  obtain ⟨resource, hresource⟩ := hold
  unfold AtRow.toAt at hresource ⊢
  rw [hlabels]
  cases hread : readLabels old.labels with
  | error fault =>
      rw [hread] at hresource
      cases hresource
  | ok labels => exact ⟨_, rfl⟩

theorem toTask_moved {row : TaskRow} (status : TaskStatus)
    (hrow : ∃ task, row.toTask = .ok task) : ∃ task, (row.moved status).toTask = .ok task := by
  obtain ⟨task, htask⟩ := hrow
  unfold TaskRow.toTask at htask ⊢
  cases hlabels : readLabels row.labels with
  | error fault =>
      rw [hlabels] at htask
      cases htask
  | ok labels =>
      cases hcommand : Column.readStrings? row.command with
      | none =>
          rw [hlabels, hcommand] at htask
          cases htask
      | some command =>
          cases hpolicy : RestartPolicy.ofText? row.restartPolicy with
          | none =>
              rw [hlabels, hcommand, hpolicy] at htask
              cases htask
          | some policy =>
              simp only [TaskRow.moved, hlabels, hcommand, hpolicy]
              exact ⟨_, rfl⟩

theorem Intact.readableAts_serve (hstore : store.Intact) (now : DateTime) (call : Call) :
    ∀ row ∈ (store.serve now call).store.ats, ∃ resource, row.toAt = .ok resource := by
  have hchange := store.serve_change now call
  have hchanged : ∀ (key : ObjectKey) (change : AtRow → AtRow),
      (∀ row, (change row).labels = row.labels) → ∀ row ∈ (store.changeAt key change).ats,
        ∃ resource, row.toAt = .ok resource := by
    intro key change hlabels row hrow
    obtain ⟨old, hold, rfl⟩ := List.mem_map.mp hrow
    split
    next => exact toAt_of_labels (hlabels old) (hstore.readableAts old hold)
    next => exact hstore.readableAts old hold
  have hcreated : ∀ resource, call = .createAt resource → store.atRow? resource.key = none →
      ∀ row ∈ (store.serve now call).store.ats, ∃ resource, row.toAt = .ok resource := by
    rintro resource rfl hfree row hrow
    have heffect : store.serve now (.createAt resource) = _ := createAt_of_free now resource hfree
    rw [heffect, List.mem_append, List.mem_singleton] at hrow
    rcases hrow with hold | rfl
    · exact hstore.readableAts row hold
    · exact ⟨_, resource.toAt_row _ now⟩
  generalize store.serve now call = effect at *
  cases hchange with
  | refused hquiet => exact hquiet.ats ▸ hstore.readableAts
  | read hquiet => exact hquiet.ats ▸ hstore.readableAts
  | addAt hfree => exact hcreated _ rfl hfree
  | moveAt hrow hversion hkey hwritten => exact hwritten ▸ hchanged _ _ (by exact fun _ => rfl)
  | editAt hkey hwritten => exact hwritten ▸ hchanged _ _ (by exact fun _ => rfl)
  | removeAt hresource howned hats =>
      intro row hrow
      rw [hats] at hrow
      exact hstore.readableAts row (List.mem_of_mem_filter hrow)
  | addTask hfree hkey howned hshows hats => exact hats ▸ hstore.readableAts
  | moveTask hrow hshows hwritten => exact hwritten ▸ hstore.readableAts

theorem Intact.serve (hstore : store.Intact) (now : DateTime) (call : Call) :
    (store.serve now call).store.Intact := by
  have hchange := store.serve_tasks now call
  have hissued := store.issued_le_serve now call
  refine ⟨hstore.ats.serve now call, ?_, ?_, ?_, hstore.readableAts_serve now call, ?_⟩
  · refine hchange.nodup (by simp) ?_ hstore.taskKeys
    intro task hcall hfree old hold heq
    exact List.find?_eq_none.mp hfree old hold (decide_eq_true heq)
  · refine hchange.nodup (by simp) ?_ hstore.taskUids
    intro task hcall hfree old hold
    exact ne_next_uid (hstore.taskIssued old hold)
  · intro row hrow
    rcases hchange.origin hrow with hold | ⟨status, old, hold, -, rfl⟩ | ⟨task, -, -, rfl, hnext⟩
    · obtain ⟨number, hnumber, huid⟩ := hstore.taskIssued row hold
      exact ⟨number, Nat.le_trans hnumber hissued, huid⟩
    · obtain ⟨number, hnumber, huid⟩ := hstore.taskIssued old hold
      exact ⟨number, Nat.le_trans hnumber hissued, huid⟩
    · exact ⟨store.issued + 1, Nat.le_of_eq hnext.symm, rfl⟩
  · intro row hrow
    rcases hchange.origin hrow with hold | ⟨status, old, hold, -, rfl⟩ | ⟨task, -, -, rfl, -⟩
    · exact hstore.readableTasks row hold
    · exact toTask_moved status (hstore.readableTasks old hold)
    · exact ⟨_, task.toTask_row _ now⟩

theorem intact_of_play {requests : List TimedCall} (hplay : play handle? {} requests = some store) :
    store.Intact := by
  refine play_keeps (P := Intact) ?_ intact_empty hplay
  intro store request next hstore hstep
  cases hstep
  exact hstore.serve request.now request.call

/-! ## Looking up tasks -/

theorem Intact.taskRow?_of_mem (hstore : store.Intact) {row : TaskRow}
    (hrow : row ∈ store.tasks) : store.taskRow? row.key = some row := by
  cases hfound : store.taskRow? row.key with
  | none => exact absurd (decide_eq_true rfl) (List.find?_eq_none.mp hfound row hrow)
  | some found =>
      have hsame : found = row :=
        List.inj_on_of_nodup_map hstore.taskKeys (List.mem_of_find?_eq_some hfound) hrow
          (key_of_taskRow? hfound)
      rw [hsame]

/-- The status of a task that can be read is written, and the task can still be read. -/
theorem updateTaskStatus_of_getTask {key : ObjectKey} {task : Task}
    (hread : store.getTask key = .ok task) (status : TaskStatus) :
    ∃ updated, (store.updateTaskStatus key status).answer = .ok updated ∧
      (store.updateTaskStatus key status).store.getTask key = .ok updated := by
  obtain ⟨row, hrow, hshown⟩ := toTask_of_getTask hread
  obtain ⟨updated, hupdated⟩ := toTask_moved status ⟨task, hshown⟩
  have hafter : (store.changeTask key fun old => old.moved status).getTask key = .ok updated := by
    unfold getTask
    rw [taskRow?_changeTask_self (by exact fun _ => rfl) hrow]
    exact hupdated
  unfold TaskRow.moved at hafter
  refine ⟨updated, ?_, ?_⟩
  · simp only [updateTaskStatus, hrow, commit, hafter]
  · simp only [updateTaskStatus, hrow, commit, hafter]

theorem Intact.eq_of_uid (hstore : store.Intact) {row other : TaskRow} (hrow : row ∈ store.tasks)
    (hother : other ∈ store.tasks) (huid : row.uid = other.uid) : row = other :=
  List.inj_on_of_nodup_map hstore.taskUids hrow hother huid

/-- What is left of a table is found, and nothing else. -/
theorem Intact.taskRow?_filter (hstore : store.Intact) {kept : TaskRow → Bool}
    (htasks : after.tasks = store.tasks.filter kept) (key : ObjectKey) :
    after.taskRow? key = (store.taskRow? key).filter kept := by
  unfold taskRow?
  rw [htasks]
  cases hrow : store.tasks.find? fun row => decide (row.key = key) with
  | none =>
      rw [Option.filter_none]
      exact find?_filter_of_none kept hrow
  | some row =>
      by_cases hkept : kept row = true
      · rw [Option.filter_some_pos hkept]
        exact find?_filter_of_kept hrow hkept
      · rw [Option.filter_some_neg (eq_false_of_ne_true hkept), List.find?_eq_none]
        intro other hother hkey
        obtain ⟨hmem, hstays⟩ := List.mem_filter.mp hother
        have hsame : other = row :=
          List.inj_on_of_nodup_map hstore.taskKeys hmem (List.mem_of_find?_eq_some hrow)
            ((of_decide_eq_true hkey).trans (key_of_taskRow? hrow).symm)
        exact hkept (hsame ▸ hstays)

end Store

end OneShot
