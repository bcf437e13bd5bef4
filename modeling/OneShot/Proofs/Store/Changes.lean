import OneShot.Proofs.Store.Keyed
import OneShot.Store.Basic
import Mathlib.Data.List.Basic

/-!
# What a call does to the store

Every call is a transaction.  It is refused, or it reads, or it makes the one
change that it is there for and tells of it.  `Store.Change` lists these
outcomes, with all that each of them says about the tables, the answer and the
events; what holds of a store under every change is proved from that list.
-/

namespace OneShot

open Calendar

/-! ## Rows and the objects they stand for -/

/-- What an object tells of the row that it was read from. -/
structure AtRow.Shows (row : AtRow) (resource : At) : Prop where
  key : resource.key = row.key
  uid : resource.metadata.uid = row.uid
  version : resource.metadata.resourceVersion = versionText row.version
  phase : resource.phase = row.phase

theorem AtRow.shows_of_toAt {row : AtRow} {resource : At} (hread : row.toAt = .ok resource) :
    row.Shows resource := by
  unfold AtRow.toAt at hread
  cases hlabels : readLabels row.labels with
  | error fault =>
      rw [hlabels] at hread
      cases hread
  | ok labels =>
      rw [hlabels] at hread
      cases hread
      exact ⟨rfl, rfl, rfl, rfl⟩

theorem AtRow.spec_of_toAt {row : AtRow} {resource : At} (hread : row.toAt = .ok resource) :
    resource.spec = ⟨row.schedule, row.command⟩ := by
  unfold AtRow.toAt at hread
  cases hlabels : readLabels row.labels with
  | error fault =>
      rw [hlabels] at hread
      cases hread
  | ok labels =>
      rw [hlabels] at hread
      cases hread
      rfl

/-- The phase of the task that a row stands for. -/
def TaskRow.taskPhase (row : TaskRow) : TaskPhase :=
  (TaskPhase.ofText? row.phase).getD .unknown

/-- What an object tells of the row that it was read from. -/
structure TaskRow.Shows (row : TaskRow) (task : Task) : Prop where
  key : task.key = row.key
  owners : task.metadata.owners = row.owner?.toList
  phase : task.status.phase = row.taskPhase

/-- A row that can be read has columns that can be read, and the task is made of these. -/
theorem TaskRow.toTask_eq_ok {row : TaskRow} {task : Task} (hread : row.toTask = .ok task) :
    ∃ labels command policy, Column.readStrings? row.command = some command ∧
      task =
        { metadata :=
            { name := row.name
              ns := row.ns
              uid := row.uid
              resourceVersion := versionText row.version
              created := some row.created
              labels := labels
              owners := row.owner?.toList }
          container := ⟨row.containerName, row.image, command⟩
          restartPolicy := policy
          status := ⟨row.taskPhase, row.reason, row.message⟩ } := by
  unfold TaskRow.toTask at hread
  cases hlabels : readLabels row.labels with
  | error fault =>
      rw [hlabels] at hread
      cases hread
  | ok labels =>
      rw [hlabels] at hread
      cases hcommand : Column.readStrings? row.command with
      | none =>
          rw [hcommand] at hread
          cases hread
      | some command =>
          rw [hcommand] at hread
          cases hpolicy : RestartPolicy.ofText? row.restartPolicy with
          | none =>
              rw [hpolicy] at hread
              cases hread
          | some policy =>
              rw [hpolicy] at hread
              cases hread
              exact ⟨labels, command, policy, rfl, rfl⟩

theorem TaskRow.shows_of_toTask {row : TaskRow} {task : Task} (hread : row.toTask = .ok task) :
    row.Shows task := by
  obtain ⟨labels, command, policy, -, rfl⟩ := TaskRow.toTask_eq_ok hread
  exact ⟨rfl, rfl, rfl⟩

/-- A row that cannot be read is no class of fault that a client looks for. -/
theorem AtRow.toAt_eq_error {row : AtRow} {fault : Fault} (hread : row.toAt = .error fault) :
    ∃ cause, fault = .other cause := by
  unfold AtRow.toAt readLabels at hread
  cases hlabels : Column.readLabels? row.labels with
  | none =>
      rw [hlabels] at hread
      cases hread
      exact ⟨_, rfl⟩
  | some labels =>
      rw [hlabels] at hread
      cases hread

theorem TaskRow.toTask_eq_error {row : TaskRow} {fault : Fault}
    (hread : row.toTask = .error fault) : ∃ cause, fault = .other cause := by
  unfold TaskRow.toTask readLabels at hread
  cases hlabels : Column.readLabels? row.labels with
  | none =>
      rw [hlabels] at hread
      cases hread
      exact ⟨_, rfl⟩
  | some labels =>
      rw [hlabels] at hread
      cases hcommand : Column.readStrings? row.command with
      | none =>
          rw [hcommand] at hread
          cases hread
          exact ⟨_, rfl⟩
      | some command =>
          rw [hcommand] at hread
          cases hpolicy : RestartPolicy.ofText? row.restartPolicy with
          | none =>
              rw [hpolicy] at hread
              cases hread
              exact ⟨_, rfl⟩
          | some policy =>
              rw [hpolicy] at hread
              cases hread

namespace Store

variable {store before after : Store} {key other : ObjectKey}

theorem key_of_atRow? {row : AtRow} (hrow : store.atRow? key = some row) : row.key = key :=
  Keyed.key_of_row? hrow

theorem key_of_taskRow? {row : TaskRow} (hrow : store.taskRow? key = some row) :
    row.key = key :=
  Keyed.key_of_row? hrow

theorem key_of_toAt {row : AtRow} {resource : At} (hrow : store.atRow? key = some row)
    (hread : row.toAt = .ok resource) : resource.key = key :=
  (AtRow.shows_of_toAt hread).key.trans (key_of_atRow? hrow)

theorem toAt_of_getAt {resource : At} (hread : store.getAt key = .ok resource) :
    ∃ row, store.atRow? key = some row ∧ row.toAt = .ok resource := by
  unfold getAt at hread
  cases hrow : store.atRow? key with
  | none =>
      rw [hrow] at hread
      cases hread
  | some row =>
      rw [hrow] at hread
      exact ⟨row, rfl, hread⟩

theorem getAt_eq_ok {resource : At} (hread : store.getAt key = .ok resource) :
    ∃ row, store.atRow? key = some row ∧ row.Shows resource := by
  obtain ⟨row, hrow, hshown⟩ := toAt_of_getAt hread
  exact ⟨row, hrow, AtRow.shows_of_toAt hshown⟩

theorem toTask_of_getTask {task : Task} (hread : store.getTask key = .ok task) :
    ∃ row, store.taskRow? key = some row ∧ row.toTask = .ok task := by
  unfold getTask at hread
  cases hrow : store.taskRow? key with
  | none =>
      rw [hrow] at hread
      cases hread
  | some row =>
      rw [hrow] at hread
      exact ⟨row, rfl, hread⟩

theorem getTask_eq_ok {task : Task} (hread : store.getTask key = .ok task) :
    ∃ row, store.taskRow? key = some row ∧ row.Shows task := by
  obtain ⟨row, hrow, hshown⟩ := toTask_of_getTask hread
  exact ⟨row, hrow, TaskRow.shows_of_toTask hshown⟩

theorem atRow?_of_getAt_isNotFound {fault : Fault} (hread : store.getAt key = .error fault)
    (hfault : fault.isNotFound = true) : store.atRow? key = none := by
  unfold getAt at hread
  cases hrow : store.atRow? key with
  | none => rfl
  | some row =>
      rw [hrow] at hread
      obtain ⟨cause, rfl⟩ := AtRow.toAt_eq_error hread
      cases hfault

theorem taskRow?_of_getTask_isNotFound {fault : Fault}
    (hread : store.getTask key = .error fault) (hfault : fault.isNotFound = true) :
    store.taskRow? key = none := by
  unfold getTask at hread
  cases hrow : store.taskRow? key with
  | none => rfl
  | some row =>
      rw [hrow] at hread
      obtain ⟨cause, rfl⟩ := TaskRow.toTask_eq_error hread
      cases hfault

/-! ## Looking up after a change -/

theorem atRow?_of_eq (hats : after.ats = before.ats) (key : ObjectKey) :
    after.atRow? key = before.atRow? key := by
  unfold atRow?
  rw [hats]

theorem taskRow?_of_eq (htasks : after.tasks = before.tasks) (key : ObjectKey) :
    after.taskRow? key = before.taskRow? key := by
  unfold taskRow?
  rw [htasks]

/-- A row that is put at the end of a table is found if there was none. -/
theorem atRow?_append {row : AtRow} (hats : after.ats = before.ats ++ [row])
    (key : ObjectKey) :
    after.atRow? key = (before.atRow? key).or (if row.key = key then some row else none) := by
  unfold atRow?
  rw [hats]
  exact Keyed.row?_append before.ats row key

theorem taskRow?_append {row : TaskRow} (htasks : after.tasks = before.tasks ++ [row])
    (key : ObjectKey) :
    after.taskRow? key =
      (before.taskRow? key).or (if row.key = key then some row else none) := by
  unfold taskRow?
  rw [htasks]
  exact Keyed.row?_append before.tasks row key

theorem atRow?_append_self {row : AtRow} (hats : after.ats = before.ats ++ [row])
    (hfree : before.atRow? key = none) (hkey : row.key = key) :
    after.atRow? key = some row := by
  unfold atRow?
  rw [hats]
  exact Keyed.row?_append_self hfree hkey

theorem taskRow?_append_self {row : TaskRow} (htasks : after.tasks = before.tasks ++ [row])
    (hfree : before.taskRow? key = none) (hkey : row.key = key) :
    after.taskRow? key = some row := by
  unfold taskRow?
  rw [htasks]
  exact Keyed.row?_append_self hfree hkey

theorem atRow?_changeAt {change : AtRow → AtRow} (hkey : ∀ row, (change row).key = row.key)
    (store : Store) (key other : ObjectKey) :
    (store.changeAt key change).atRow? other =
      (store.atRow? other).map fun row => if row.key = key then change row else row :=
  Keyed.row?_changed hkey store.ats key other

/-- A change of one row is the only one that a look-up by its key sees. -/
theorem atRow?_changeAt_self {change : AtRow → AtRow}
    (hkey : ∀ row, (change row).key = row.key) {row : AtRow}
    (hrow : store.atRow? key = some row) :
    (store.changeAt key change).atRow? key = some (change row) :=
  Keyed.row?_changed_self hkey hrow

theorem atRow?_changeAt_of_ne {change : AtRow → AtRow}
    (hkey : ∀ row, (change row).key = row.key) (hne : other ≠ key) :
    (store.changeAt key change).atRow? other = store.atRow? other :=
  Keyed.row?_changed_of_ne hkey hne

theorem taskRow?_changeTask_self {change : TaskRow → TaskRow}
    (hkey : ∀ row, (change row).key = row.key) {row : TaskRow}
    (hrow : store.taskRow? key = some row) :
    (store.changeTask key change).taskRow? key = some (change row) :=
  Keyed.row?_changed_self hkey hrow

theorem taskRow?_changeTask_of_ne {change : TaskRow → TaskRow}
    (hkey : ∀ row, (change row).key = row.key) (hne : other ≠ key) :
    (store.changeTask key change).taskRow? other = store.taskRow? other :=
  Keyed.row?_changed_of_ne hkey hne

theorem find?_filter_of_kept {ρ : Type} {sought kept : ρ → Bool} {rows : List ρ} {row : ρ}
    (hrow : rows.find? sought = some row) (hkept : kept row = true) :
    (rows.filter kept).find? sought = some row := by
  rw [List.find?_eq_some_iff_append] at hrow ⊢
  obtain ⟨hsought, earlier, later, rfl, hearlier⟩ := hrow
  refine ⟨hsought, earlier.filter kept, later.filter kept, ?_, ?_⟩
  · rw [List.filter_append, List.filter_cons_of_pos hkept]
  · intro other hother
    exact hearlier other (List.mem_of_mem_filter hother)

theorem find?_filter_of_none {ρ : Type} {sought : ρ → Bool} (kept : ρ → Bool) {rows : List ρ}
    (hnone : rows.find? sought = none) : (rows.filter kept).find? sought = none := by
  rw [List.find?_eq_none] at hnone ⊢
  intro row hrow
  exact hnone row (List.mem_of_mem_filter hrow)

end Store

/-! ## The changes -/

/-- The tables are as they were, and nothing is told. -/
structure Effect.Quiet {α : Type} (before : Store) (effect : Effect α) : Prop where
  ats : effect.store.ats = before.ats
  tasks : effect.store.tasks = before.tasks
  events : effect.events = []

def Call.reads : Call → Bool
  | getAt _ | listAts _ | getTask _ | listTasks _ => true
  | _ => false

/-- The columns of a task's owner are those of the owner that it came with. -/
structure TaskRow.OwnedAs (row : TaskRow) (owner : Option OwnerReference) : Prop where
  kind : row.ownerKind = owner.map (·.kind)
  name : row.ownerName = owner.map (·.name)
  uid : row.ownerUid = owner.map (·.uid)
  controller : row.ownerController = owner.any (·.controller)

namespace Store

/-- All that can come of a call. -/
inductive Change (before : Store) : (call : Call) → Effect call.Reply → Prop where
  | refused {call : Call} {effect : Effect call.Reply} {fault : Fault}
      (hquiet : effect.Quiet before) (hanswer : effect.answer = .error fault) :
      Change before call effect
  | read {call : Call} {effect : Effect call.Reply}
      (hquiet : effect.Quiet before) (hreads : call.reads = true) : Change before call effect
  | addAt {resource created : At} {effect : Effect At} {row : AtRow}
      (hfree : before.atRow? resource.key = none) (hkey : row.key = resource.key)
      (hshows : row.Shows created)
      (hats : effect.store.ats = before.ats ++ [row])
      (htasks : effect.store.tasks = before.tasks)
      (hanswer : effect.answer = .ok created)
      (hevents : effect.events = [atEvent .added created]) :
      Change before (.createAt resource) effect
  | moveAt {resource updated : At} {effect : Effect At} {row : AtRow}
      (hrow : before.atRow? resource.key = some row)
      (hversion : Decimal.readInteger? resource.metadata.resourceVersion = some row.version)
      (hkey : updated.key = resource.key)
      (hstore : effect.store = before.changeAt resource.key fun row =>
        { row with phase := resource.phase, version := row.version + 1 })
      (hanswer : effect.answer = .ok updated)
      (hevents : effect.events = [atEvent .modified updated]) :
      Change before (.updateAtStatus resource) effect
  | editAt {key : ObjectKey} {spec : AtSpec} {updated : At} {effect : Effect At}
      (hkey : updated.key = key)
      (hstore : effect.store = before.changeAt key fun row =>
        { row with
          schedule := spec.schedule, command := spec.command, version := row.version + 1 })
      (hanswer : effect.answer = .ok updated)
      (hevents : effect.events = [atEvent .modified updated]) :
      Change before (.updateAtSpec key spec) effect
  | removeAt {key : ObjectKey} {resource : At} {owned : List Task} {effect : Effect Unit}
      (hresource : before.getAt key = .ok resource)
      (howned : (before.tasks.filter fun row =>
        row.ownerUid == some resource.metadata.uid).mapM TaskRow.toTask = .ok owned)
      (hats : effect.store.ats =
        before.ats.filter fun row => row.uid != resource.metadata.uid)
      (htasks : effect.store.tasks =
        before.tasks.filter fun row => row.ownerUid != some resource.metadata.uid)
      (hanswer : effect.answer = .ok ())
      (hevents : effect.events = owned.map (taskEvent .deleted) ++ [atEvent .deleted resource]) :
      Change before (.deleteAt key) effect
  | addTask {task created : Task} {effect : Effect Task} {row : TaskRow}
      (hfree : before.taskRow? task.key = none) (hkey : row.key = task.key)
      (howned : row.OwnedAs task.metadata.storedOwner?)
      (hshows : row.Shows created)
      (hats : effect.store.ats = before.ats)
      (htasks : effect.store.tasks = before.tasks ++ [row])
      (hanswer : effect.answer = .ok created)
      (hevents : effect.events = [taskEvent .added created]) :
      Change before (.createTask task) effect
  | moveTask {key : ObjectKey} {status : TaskStatus} {updated : Task} {effect : Effect Task}
      {row : TaskRow}
      (hrow : before.taskRow? key = some row)
      (hshows : TaskRow.Shows
        { row with
          phase := status.phase.text
          reason := status.reason
          message := status.message
          version := row.version + 1 } updated)
      (hstore : effect.store = before.changeTask key fun row =>
        { row with
          phase := status.phase.text
          reason := status.reason
          message := status.message
          version := row.version + 1 })
      (hanswer : effect.answer = .ok updated)
      (hevents : effect.events = [taskEvent .modified updated]) :
      Change before (.updateTaskStatus key status) effect

section Serving

variable (store : Store) (now : DateTime)

omit now in
theorem refuse_quiet {α : Type} (fault : Fault) :
    (store.refuse fault : Effect α).Quiet store := ⟨rfl, rfl, rfl⟩

theorem createAt_change (resource : At) :
    Change store (.createAt resource) (store.createAt now resource) := by
  unfold createAt insertAt
  split
  next => exact .refused (store.refuse_quiet _) rfl
  next hfree =>
    have hnone : store.atRow? resource.key = none := by
      rw [At.key, ← Option.not_isSome_iff_eq_none]
      exact hfree
    simp only [issueUid, At.values, commit]
    split
    next created hread =>
      obtain ⟨row, hrow, hshows⟩ := getAt_eq_ok hread
      rw [← At.key, atRow?_append_self rfl hnone rfl, Option.some.injEq] at hrow
      subst hrow
      exact .addAt hnone rfl hshows rfl rfl rfl rfl
    next fault hread => exact .refused ⟨rfl, rfl, rfl⟩ rfl

theorem updateAtStatus_change (resource : At) :
    Change store (.updateAtStatus resource) (store.updateAtStatus resource) := by
  unfold updateAtStatus writeStatus
  split
  next => exact .refused (store.refuse_quiet _) rfl
  next observed hobserved =>
    split
    next => exact .refused (store.refuse_quiet _) rfl
    next =>
      split
      next => exact .refused (store.refuse_quiet _) rfl
      next row hrow =>
        split
        next => exact .refused (store.refuse_quiet _) rfl
        next hversion =>
          simp only [commit]
          split
          next updated hread =>
            obtain ⟨after, hafter, hshows⟩ := getAt_eq_ok hread
            refine .moveAt hrow ?_ (hshows.key.trans (key_of_atRow? hafter)) rfl rfl rfl
            rw [hobserved, not_not.mp hversion]
          next fault hread => exact .refused ⟨rfl, rfl, rfl⟩ rfl

theorem updateAtSpec_change (key : ObjectKey) (spec : AtSpec) :
    Change store (.updateAtSpec key spec) (store.updateAtSpec key spec) := by
  unfold updateAtSpec writeSpec
  split
  next => exact .refused (store.refuse_quiet _) rfl
  next =>
    simp only [commit]
    split
    next updated hread =>
      obtain ⟨after, hafter, hshows⟩ := getAt_eq_ok hread
      exact .editAt (hshows.key.trans (key_of_atRow? hafter)) rfl rfl rfl
    next fault hread => exact .refused ⟨rfl, rfl, rfl⟩ rfl

theorem deleteAt_change (key : ObjectKey) :
    Change store (.deleteAt key) (store.deleteAt key) := by
  unfold deleteAt
  cases hresource : store.getAt key with
  | error fault => exact .refused (store.refuse_quiet _) rfl
  | ok resource =>
      cases howned : (store.tasks.filter fun row =>
          row.ownerUid == some resource.metadata.uid).mapM TaskRow.toTask with
      | error fault =>
          simp only [bind, Except.bind, howned]
          exact .refused (store.refuse_quiet _) rfl
      | ok owned =>
          simp only [bind, Except.bind, howned]
          exact .removeAt hresource howned rfl rfl rfl rfl

theorem createTask_change (task : Task) :
    Change store (.createTask task) (store.createTask now task) := by
  unfold createTask insertTask
  split
  next => exact .refused (store.refuse_quiet _) rfl
  next hfree =>
    have hnone : store.taskRow? task.key = none := by
      rw [← Option.not_isSome_iff_eq_none]
      exact hfree
    simp only [issueUid, Task.values, commit]
    split
    next created hread =>
      obtain ⟨row, hrow, hshows⟩ := getTask_eq_ok hread
      rw [taskRow?_append_self rfl hnone rfl, Option.some.injEq] at hrow
      subst hrow
      exact .addTask hnone rfl ⟨rfl, rfl, rfl, rfl⟩ hshows rfl rfl rfl rfl
    next fault hread => exact .refused ⟨rfl, rfl, rfl⟩ rfl

/-- Only a task that is there makes a creation report that there is one. -/
theorem taskRow?_of_createTask_isAlreadyExists {task : Task} {fault : Fault}
    (hanswer : (store.createTask now task).answer = .error fault)
    (hfault : fault.isAlreadyExists = true) : (store.taskRow? task.key).isSome = true := by
  unfold createTask insertTask at hanswer
  split at hanswer
  next htaken => exact htaken
  next =>
    simp only [issueUid, Task.values, commit] at hanswer
    split at hanswer
    next => cases hanswer
    next _ unread hread =>
      cases hanswer
      unfold getTask at hread
      split at hread
      next =>
        obtain ⟨cause, rfl⟩ := TaskRow.toTask_eq_error hread
        cases hfault
      next =>
        cases hread
        cases hfault

theorem updateTaskStatus_change (key : ObjectKey) (status : TaskStatus) :
    Change store (.updateTaskStatus key status) (store.updateTaskStatus key status) := by
  unfold updateTaskStatus
  split
  next => exact .refused (store.refuse_quiet _) rfl
  next row hrow =>
    simp only [commit]
    split
    next updated hread =>
      obtain ⟨after, hafter, hshows⟩ := getTask_eq_ok hread
      have hsame := (taskRow?_changeTask_self (by exact fun _ => rfl) hrow).symm.trans hafter
      cases hsame
      exact .moveTask hrow hshows rfl rfl rfl
    next fault hread => exact .refused ⟨rfl, rfl, rfl⟩ rfl

/-- Every call leads to one of the changes. -/
theorem serve_change (call : Call) : Change store call (store.serve now call) := by
  cases call with
  | getAt key => exact .read ⟨rfl, rfl, rfl⟩ rfl
  | listAts ns => exact .read ⟨rfl, rfl, rfl⟩ rfl
  | getTask key => exact .read ⟨rfl, rfl, rfl⟩ rfl
  | listTasks ns => exact .read ⟨rfl, rfl, rfl⟩ rfl
  | createAt resource => exact createAt_change store now resource
  | updateAtStatus resource => exact updateAtStatus_change store resource
  | updateAtSpec key spec => exact updateAtSpec_change store key spec
  | deleteAt key => exact deleteAt_change store key
  | createTask task => exact createTask_change store now task
  | updateTaskStatus key status => exact updateTaskStatus_change store key status

end Serving

end Store

end OneShot
