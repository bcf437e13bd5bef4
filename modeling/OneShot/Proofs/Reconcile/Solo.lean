import OneShot.Proofs.Reconcile.Attempts
import OneShot.Proofs.Store.Columns
import OneShot.Proofs.Store.StatusWrites

/-!
# A pass on its own

What a pass does while nobody else uses the store and no call fails.  A pass
that finds no task does as if the task that it creates had been there; one that
finds a task stores the phase that the command reaches, unless it has that
phase already.  So a second pass at the same time finds nothing left to do.
-/

namespace OneShot

open Calendar

/-- A store that nobody else uses, while the clocks stand still. -/
structure Still where
  store : Store
  now : DateTime

namespace Still

instance : Clock Still Int where
  read still := (0, still)
  sleep _ still := still
  ownMoves _ := 0

def client : Client Still Int := fun call _ still =>
  let effect := still.store.serve still.now call
  (effect.answer, { still with store := effect.store })

end Still

namespace Pass

variable {now : DateTime} {resource : At} {following : Stage} {reached : AtPhase}

def Open (phase : String) : Prop :=
  phase = AtPhase.unset.text ∨ phase = AtPhase.pending.text ∨ phase = AtPhase.running.text

theorem open_of_afterRead (hgo : afterRead now (.ok resource) = .goOn following) :
    Open resource.phase := by
  simp only [afterRead] at hgo
  split at hgo
  next hunset => exact Or.inl (AtPhase.text_of_ofText? hunset)
  next hpending => exact Or.inr (Or.inl (AtPhase.text_of_ofText? hpending))
  next hrunning => exact Or.inr (Or.inr (AtPhase.text_of_ofText? hrunning))
  next => cases hgo
  next => cases hgo

theorem afterRead_of_running (hrunning : resource.phase = AtPhase.running.text) :
    afterRead now (.ok resource) = .goOn (.findTask resource) := by
  simp only [afterRead, hrunning, AtPhase.ofText?_text]

theorem afterRead_of_done (hdone : resource.phase = AtPhase.done.text) :
    afterRead now (.ok resource) = .finished {} := by
  simp only [afterRead, hdone, AtPhase.ofText?_text]

theorem reach_of_open (hopen : Open resource.phase)
    (hreached : reached = .running ∨ reached = .done) :
    reach resource reached =
      if reached.text = resource.phase then .finished {} else .goOn (.store resource reached) := by
  obtain ⟨metadata, spec, phase⟩ := resource
  simp only at hopen
  rcases hopen with rfl | rfl | rfl <;> rcases hreached with rfl | rfl <;> rfl

end Pass

namespace Store

/-- A pass without a deadline from a stage on: its result, and the store that it
leaves. -/
def passFrom (store : Store) (now : DateTime) (stage : Pass.Stage) :
    Except Fault Pass.Result × Store :=
  let ended := Pass.runFrom Still.client Still.now {} stage ⟨store, now⟩
  (ended.1, ended.2.store)

/-- A whole pass over the command of a key. -/
def pass (store : Store) (now : DateTime) (key : ObjectKey) :
    Except Fault Pass.Result × Store :=
  let ended := Pass.run Still.client Still.now {} key ⟨store, now⟩
  (ended.1, ended.2.store)

def passOn (store : Store) (now : DateTime) : Pass.Progress → Except Fault Pass.Result × Store
  | .goOn following => store.passFrom now following
  | .finished result => (.ok result, store)
  | .failed fault => (.error fault, store)

def moveTo (store : Store) (key : ObjectKey) (reached : AtPhase) : Store :=
  store.changeAt key fun row => { row with phase := reached.text, version := row.version + 1 }

/-- Where a pass ends that has found the phase which the command reaches. -/
def settle (store : Store) (row : AtRow) (reached : AtPhase) :
    Except Fault Pass.Result × Store :=
  if reached.text = row.phase then (.ok {}, store)
  else if Comparable row.version then (.ok {}, store.moveTo row.key reached)
  else (.error (incomparable row.version), store)

variable {store : Store} {now : DateTime} {key : ObjectKey} {row : AtRow} {resource : At}
  {reached : AtPhase}

theorem pass_eq : store.pass now key = store.passFrom now (.read key) := rfl

theorem passFrom_eq (store : Store) (now : DateTime) (stage : Pass.Stage) :
    store.passFrom now stage =
      (store.serve now stage.call).store.passOn now
        (stage.next now (store.serve now stage.call).answer) := by
  unfold passFrom Pass.runFrom
  simp only [Deadline.remaining, Still.client]
  split
  next following hgo =>
    rw [hgo]
    rfl
  next result hfinished =>
    rw [hfinished]
    rfl
  next fault hfailed =>
    rw [hfailed]
    rfl

/-- The phase of a command is written as long as it is as it was read. -/
theorem updateAtStatus_inPhase (hrow : store.atRow? key = some row)
    (hread : row.toAt = .ok resource) (hbounds : Comparable row.version) (reached : AtPhase) :
    ∃ updated events, store.updateAtStatus (Pass.inPhase resource reached) =
      { answer := .ok updated, store := store.moveTo key reached, events } := by
  have hversion : (Pass.inPhase resource reached).metadata.resourceVersion =
      versionText row.version := (AtRow.shows_of_toAt hread).version
  have hkey : (Pass.inPhase resource reached).key = key :=
    (key_of_toAt hrow hread : resource.key = key)
  have hwritten := updateAtStatus_of_current (hkey ▸ hrow) hversion hbounds hread
  rw [hkey] at hwritten
  exact ⟨_, _, hwritten⟩

theorem passOn_reach (hrow : store.atRow? key = some row) (hread : row.toAt = .ok resource)
    (hopen : Pass.Open resource.phase) (hreached : reached = .running ∨ reached = .done) :
    store.passOn now (Pass.reach resource reached) = store.settle row reached := by
  have hshows := AtRow.shows_of_toAt hread
  rw [Pass.reach_of_open hopen hreached, settle, hshows.phase, key_of_atRow? hrow]
  split
  next => rfl
  next =>
    rw [passOn, passFrom_eq]
    simp only [Pass.Stage.call, serve, Pass.Stage.next]
    split
    next hbounds =>
      obtain ⟨updated, events, hwritten⟩ := updateAtStatus_inPhase hrow hread hbounds reached
      rw [hwritten]
      rfl
    next hbounds =>
      have hversion : (Pass.inPhase resource reached).metadata.resourceVersion =
          versionText row.version := hshows.version
      rw [updateAtStatus_of_incomparable hversion hbounds]
      rfl

/-- A command for which a pass looks for the task, as it is stored. -/
structure Goes (store : Store) (now : DateTime) (key : ObjectKey) (row : AtRow) (resource : At) :
    Prop where
  stored : store.atRow? key = some row
  shown : row.toAt = .ok resource
  goesOn : Pass.afterRead now (.ok resource) = .goOn (.findTask resource)

theorem goes_of_getAt (hread : store.getAt key = .ok resource)
    (hgo : Pass.afterRead now (.ok resource) = .goOn (.findTask resource)) :
    ∃ row, store.Goes now key row resource := by
  obtain ⟨row, hrow, hshown⟩ := toAt_of_getAt hread
  exact ⟨row, hrow, hshown, hgo⟩

theorem Goes.getAt (hgoes : store.Goes now key row resource) : store.getAt key = .ok resource := by
  rw [Store.getAt, hgoes.stored]
  exact hgoes.shown

theorem Goes.pass (hgoes : store.Goes now key row resource) :
    store.pass now key = store.passFrom now (.findTask resource) := by
  rw [pass_eq, passFrom_eq]
  simp only [Pass.Stage.call, serve, Pass.Stage.next, reading, hgoes.getAt, hgoes.goesOn, passOn]

/-- A pass that does not look for a task leaves the store as it is. -/
theorem pass_of_stays (hstays : ∀ stage, Pass.afterRead now (store.getAt key) ≠ .goOn stage) :
    (store.pass now key).2 = store := by
  rw [pass_eq, passFrom_eq]
  simp only [Pass.Stage.call, serve, Pass.Stage.next, reading]
  cases hnext : Pass.afterRead now (store.getAt key) with
  | goOn stage => exact absurd hnext (hstays stage)
  | finished result => rfl
  | failed fault => rfl

/-- A pass that finds its task goes by the phase of the task. -/
theorem Goes.pass_of_found (hgoes : store.Goes now key row resource) {taskRow : TaskRow}
    {task : Task} (htask : store.taskRow? resource.taskKey = some taskRow)
    (hshown : taskRow.toTask = .ok task) :
    store.pass now key = store.settle row (Pass.reachedBy task) := by
  have hfound : store.getTask resource.taskKey = .ok task := by
    rw [getTask, htask]
    exact hshown
  rw [hgoes.pass, passFrom_eq]
  simp only [Pass.Stage.call, serve, Pass.Stage.next, reading, hfound, Pass.afterFindTask_ok]
  exact passOn_reach hgoes.stored hgoes.shown (Pass.open_of_afterRead hgoes.goesOn)
    (Pass.reachedBy_cases task)

theorem Goes.pass_of_unread (hgoes : store.Goes now key row resource) {taskRow : TaskRow}
    {fault : Fault} (htask : store.taskRow? resource.taskKey = some taskRow)
    (hunread : taskRow.toTask = .error fault) : store.pass now key = (.error fault, store) := by
  obtain ⟨cause, rfl⟩ := TaskRow.toTask_eq_error hunread
  have hfailed : store.getTask resource.taskKey = .error (.other cause) := by
    rw [getTask, htask]
    exact hunread
  rw [hgoes.pass, passFrom_eq]
  simp only [Pass.Stage.call, serve, Pass.Stage.next, reading, hfailed, Pass.afterFindTask]
  rfl

def launched (store : Store) (now : DateTime) (resource : At) : Store :=
  { store with
    tasks := store.tasks ++ [resource.newTask.row (uidText (store.issued + 1)) now]
    issued := store.issued + 1 }

theorem taskRow?_launched (hfree : store.taskRow? resource.taskKey = none) :
    (store.launched now resource).taskRow? resource.taskKey =
      some (resource.newTask.row (uidText (store.issued + 1)) now) :=
  taskRow?_append_self rfl hfree rfl

theorem Goes.launched (hgoes : store.Goes now key row resource) :
    (store.launched now resource).Goes now key row resource :=
  ⟨hgoes.stored, hgoes.shown, hgoes.goesOn⟩

/-- A pass that finds no task does as if the task had been there. -/
theorem Goes.pass_of_missing (hgoes : store.Goes now key row resource)
    (hfree : store.taskRow? resource.taskKey = none) :
    store.pass now key = (store.launched now resource).settle row .running ∧
      (store.launched now resource).pass now key = store.pass now key := by
  have hmissing : store.getTask resource.taskKey = .error (.notFound .task resource.taskKey) := by
    rw [getTask, hfree]
  have hcreated := createTask_of_free now resource.newTask hfree
  have hpass : store.pass now key = (store.launched now resource).settle row .running := by
    rw [hgoes.pass, passFrom_eq]
    simp only [Pass.Stage.call, serve, Pass.Stage.next, reading, hmissing, Pass.afterFindTask,
      Fault.isNotFound, if_true, passOn]
    rw [passFrom_eq]
    simp only [Pass.Stage.call, serve, Pass.Stage.next, hcreated, Pass.afterLaunch]
    exact passOn_reach hgoes.launched.stored hgoes.shown (Pass.open_of_afterRead hgoes.goesOn)
      (Or.inl rfl)
  refine ⟨hpass, ?_⟩
  rw [hpass]
  exact hgoes.launched.pass_of_found (taskRow?_launched hfree) (Task.toTask_row _ _ _)

/-! ## A pass after another -/

theorem atRow?_moveTo (hrow : store.atRow? key = some row) (reached : AtPhase) :
    (store.moveTo key reached).atRow? key =
      some { row with phase := reached.text, version := row.version + 1 } :=
  atRow?_changeAt_self (by exact fun _ => rfl) hrow

theorem Goes.running (hgoes : store.Goes now key row resource) :
    (store.moveTo key .running).Goes now key
      { row with phase := AtPhase.running.text, version := row.version + 1 }
      (resource.moved AtPhase.running.text (row.version + 1)) where
  stored := atRow?_moveTo hgoes.stored .running
  shown := AtRow.toAt_moved hgoes.shown _ _
  goesOn := Pass.afterRead_of_running rfl

theorem pass_of_done (hread : store.getAt key = .ok resource)
    (hdone : resource.phase = AtPhase.done.text) : store.pass now key = (.ok {}, store) := by
  rw [pass_eq, passFrom_eq]
  simp only [Pass.Stage.call, serve, Pass.Stage.next, reading, hread,
    Pass.afterRead_of_done hdone, passOn]

theorem Goes.pass_done (hgoes : store.Goes now key row resource) :
    (store.moveTo key .done).pass now key = (.ok {}, store.moveTo key .done) := by
  have hread : (store.moveTo key .done).getAt key =
      .ok (resource.moved AtPhase.done.text (row.version + 1)) := by
    rw [Store.getAt, atRow?_moveTo hgoes.stored]
    exact AtRow.toAt_moved hgoes.shown _ _
  exact pass_of_done hread rfl

/-- A pass that has found its task leaves nothing to the next one. -/
theorem Goes.repeat_of_found (hgoes : store.Goes now key row resource) {taskRow : TaskRow}
    {task : Task} (htask : store.taskRow? resource.taskKey = some taskRow)
    (hshown : taskRow.toTask = .ok task) :
    (store.pass now key).2.pass now key = store.pass now key := by
  have hpass := hgoes.pass_of_found htask hshown
  rw [settle, key_of_atRow? hgoes.stored] at hpass
  split at hpass
  next =>
    rw [hpass]
    exact hpass
  next =>
    split at hpass
    next hbounds =>
      rw [hpass]
      -- A running command is looked at again and stays as it is; one that is done is left alone.
      rcases Pass.reachedBy_cases task with hreached | hreached
      · rw [hreached, hgoes.running.pass_of_found htask hshown, hreached]
        exact if_pos rfl
      · rw [hreached]
        exact hgoes.pass_done
    next hbounds =>
      rw [hpass]
      exact hpass

/-- A second pass at the same time changes nothing and has the same result. -/
theorem pass_repeat (store : Store) (now : DateTime) (key : ObjectKey) :
    (store.pass now key).2.pass now key = store.pass now key := by
  by_cases hgo : ∃ stage, Pass.afterRead now (store.getAt key) = .goOn stage
  · obtain ⟨stage, hgo⟩ := hgo
    obtain ⟨resource, hread, rfl⟩ := Pass.afterRead_goOn hgo
    obtain ⟨row, hgoes⟩ := goes_of_getAt hread (hread ▸ hgo)
    cases htask : store.taskRow? resource.taskKey with
    | none =>
        -- The pass is the one over the store in which the task is there already.
        obtain ⟨-, hsame⟩ := hgoes.pass_of_missing htask
        rw [← hsame]
        exact hgoes.launched.repeat_of_found (taskRow?_launched htask) (Task.toTask_row _ _ _)
    | some taskRow =>
        cases hread : taskRow.toTask with
        | ok task => exact hgoes.repeat_of_found htask hread
        | error fault =>
            have hpass := hgoes.pass_of_unread htask hread
            rw [hpass]
            exact hpass
  · rw [pass_of_stays fun stage hstage => hgo ⟨stage, hstage⟩]

end Store

end OneShot
