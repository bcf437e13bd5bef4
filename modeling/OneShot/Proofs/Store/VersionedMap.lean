import OneShot.Proofs.Store.Order
import OneShot.Proofs.Store.Tables
import Mathlib.Logic.Function.Basic

/-!
# The store as a versioned map

Each table is a map from keys to rows.  A call that gets through changes the
value of one key, and raises its version by one if there was a row; a removal
also takes the tasks along that name the uid of the removed command.  A call
that is refused changes nothing.
-/

namespace OneShot

open Calendar

/-- The tables as maps from keys to rows. -/
structure Rows where
  ats : ObjectKey → Option AtRow
  tasks : ObjectKey → Option TaskRow

namespace Store

def rows (store : Store) : Rows := ⟨store.atRow?, store.taskRow?⟩

/-- What can be relied on in the next call, whichever it is. -/
structure VersionedMap (store : Store) : Prop where
  keys : (store.ats.map AtRow.key).Nodup ∧ (store.tasks.map TaskRow.key).Nodup
  uids : (store.ats.map AtRow.uid).Nodup ∧ (store.tasks.map TaskRow.uid).Nodup
  createAt : ∀ (now : DateTime) (resource : At),
    ((∃ fault, (store.createAt now resource).answer = .error fault ∧
        fault.isAlreadyExists = true) ↔ (store.atRow? resource.key).isSome = true) ∧
      (store.atRow? resource.key = none → ∃ uid, (∀ row ∈ store.ats, row.uid ≠ uid) ∧
        (store.createAt now resource).answer = .ok (resource.stored uid now) ∧
        (resource.row uid now).version = 1 ∧
        (store.createAt now resource).store.rows =
          { store.rows with
            ats := Function.update store.atRow? resource.key (some (resource.row uid now)) })
  createTask : ∀ (now : DateTime) (task : Task),
    ((∃ fault, (store.createTask now task).answer = .error fault ∧
        fault.isAlreadyExists = true) ↔ (store.taskRow? task.key).isSome = true) ∧
      (store.taskRow? task.key = none → ∃ uid, (∀ row ∈ store.tasks, row.uid ≠ uid) ∧
        (store.createTask now task).answer = .ok (task.stored uid now) ∧
        (task.row uid now).version = 1 ∧
        (store.createTask now task).store.rows =
          { store.rows with
            tasks := Function.update store.taskRow? task.key (some (task.row uid now)) })
  updateAtStatus : ∀ resource updated, (store.updateAtStatus resource).answer = .ok updated →
    ∃ row, store.atRow? resource.key = some row ∧
      (store.updateAtStatus resource).store.rows =
        { store.rows with
          ats := Function.update store.atRow? resource.key
            (some { row with phase := resource.phase, version := row.version + 1 }) }
  updateAtSpec : ∀ key spec updated, (store.updateAtSpec key spec).answer = .ok updated →
    ∃ row, store.atRow? key = some row ∧
      (store.updateAtSpec key spec).store.rows =
        { store.rows with
          ats := Function.update store.atRow? key (some
            { row with
              schedule := spec.schedule, command := spec.command, version := row.version + 1 }) }
  updateTaskStatus : ∀ key status updated,
    (store.updateTaskStatus key status).answer = .ok updated →
      ∃ row, store.taskRow? key = some row ∧
        (store.updateTaskStatus key status).store.rows =
          { store.rows with
            tasks := Function.update store.taskRow? key (some
              { row with
                phase := status.phase.text
                reason := status.reason
                message := status.message
                version := row.version + 1 }) }
  deleteAt : ∀ key row, store.atRow? key = some row →
    (store.deleteAt key).answer = .ok () ∧
      (store.deleteAt key).store.rows =
        { ats := Function.update store.atRow? key none
          tasks := fun other =>
            (store.taskRow? other).filter fun task => task.ownerUid != some row.uid }
  listAts : ∀ ns, ∃ listed, store.listAts ns = .ok listed ∧ Ascending At.key listed ∧
    ∀ resource, resource ∈ listed ↔
      store.getAt resource.key = .ok resource ∧ ns.all (· == resource.key.ns) = true
  listTasks : ∀ ns, ∃ listed, store.listTasks ns = .ok listed ∧ Ascending Task.key listed ∧
    ∀ task, task ∈ listed ↔
      store.getTask task.key = .ok task ∧ ns.all (· == task.key.ns) = true
  refused : ∀ (now : DateTime) (call : Call) (fault : Fault),
    (store.serve now call).answer = .error fault → (store.serve now call).Quiet store

variable {store after : Store} {key : ObjectKey}

/-! ## Changes of one key -/

theorem rows_of_ats {ats : ObjectKey → Option AtRow} (hats : after.atRow? = ats)
    (htasks : after.tasks = store.tasks) : after.rows = { store.rows with ats } := by
  simp only [rows, hats, Rows.mk.injEq, true_and]
  exact funext (taskRow?_of_eq htasks)

theorem rows_of_tasks {tasks : ObjectKey → Option TaskRow} (hats : after.ats = store.ats)
    (htasks : after.taskRow? = tasks) : after.rows = { store.rows with tasks } := by
  simp only [rows, htasks, Rows.mk.injEq, and_true]
  exact funext (atRow?_of_eq hats)

theorem rows_addAt {row : AtRow} (hats : after.ats = store.ats ++ [row])
    (htasks : after.tasks = store.tasks) (hfree : store.atRow? row.key = none) :
    after.rows = { store.rows with ats := Function.update store.atRow? row.key (some row) } := by
  have hlook : after.atRow? = Keyed.row? AtRow.key (store.ats ++ [row]) :=
    congrArg (Keyed.row? AtRow.key) hats
  exact rows_of_ats (hlook.trans (Keyed.row?_append_eq_update hfree)) htasks

theorem rows_addTask {row : TaskRow} (hats : after.ats = store.ats)
    (htasks : after.tasks = store.tasks ++ [row]) (hfree : store.taskRow? row.key = none) :
    after.rows =
      { store.rows with tasks := Function.update store.taskRow? row.key (some row) } := by
  have hlook : after.taskRow? = Keyed.row? TaskRow.key (store.tasks ++ [row]) :=
    congrArg (Keyed.row? TaskRow.key) htasks
  exact rows_of_tasks hats (hlook.trans (Keyed.row?_append_eq_update hfree))

theorem rows_changeAt {change : AtRow → AtRow} (hkey : ∀ row, (change row).key = row.key)
    {row : AtRow} (hrow : store.atRow? key = some row) :
    (store.changeAt key change).rows =
      { store.rows with ats := Function.update store.atRow? key (some (change row)) } :=
  rows_of_ats (Keyed.row?_changed_eq_update hkey hrow) rfl

theorem rows_changeTask {change : TaskRow → TaskRow} (hkey : ∀ row, (change row).key = row.key)
    {row : TaskRow} (hrow : store.taskRow? key = some row) :
    (store.changeTask key change).rows =
      { store.rows with tasks := Function.update store.taskRow? key (some (change row)) } :=
  rows_of_tasks rfl (Keyed.row?_changed_eq_update hkey hrow)

/-! ## The calls -/

theorem refused_quiet (store : Store) (now : DateTime) (call : Call) {fault : Fault}
    (hrefused : (store.serve now call).answer = .error fault) :
    (store.serve now call).Quiet store := by
  have hchange := store.serve_change now call
  generalize store.serve now call = effect at *
  cases hchange with
  | refused hquiet => exact hquiet
  | read hquiet => exact hquiet
  | addAt _ _ _ _ _ hanswer | moveAt _ _ _ _ hanswer | editAt _ _ hanswer
  | removeAt _ _ _ _ hanswer | addTask _ _ _ _ _ _ hanswer | moveTask _ _ _ hanswer =>
      rw [hanswer] at hrefused
      cases hrefused

theorem atRow?_of_updateAtSpec {spec : AtSpec} {updated : At}
    (hdone : (store.updateAtSpec key spec).answer = .ok updated) :
    ∃ row, store.atRow? key = some row := by
  cases hrow : store.atRow? key with
  | some row => exact ⟨row, rfl⟩
  | none =>
      unfold updateAtSpec writeSpec at hdone
      rw [hrow] at hdone
      cases hdone

/-- A command that is stored can be removed. -/
theorem Intact.deleteAt_of_found (hstore : store.Intact) {row : AtRow}
    (hrow : store.atRow? key = some row) :
    ∃ resource owned, row.toAt = .ok resource ∧
      (store.tasks.filter fun task => task.ownerUid == some resource.metadata.uid).mapM
        TaskRow.toTask = .ok owned ∧
      store.deleteAt key =
        { answer := .ok ()
          store :=
            { store with
              tasks := store.tasks.filter fun task => task.ownerUid != some resource.metadata.uid
              ats := store.ats.filter fun row => row.uid != resource.metadata.uid }
          events := owned.map (taskEvent .deleted) ++ [atEvent .deleted resource] } := by
  obtain ⟨resource, hread⟩ := hstore.readableAts row (List.mem_of_find?_eq_some hrow)
  have hget : store.getAt key = .ok resource := by
    unfold getAt
    rw [hrow]
    exact hread
  obtain ⟨owned, howned⟩ : ∃ owned,
      (store.tasks.filter fun task => task.ownerUid == some resource.metadata.uid).mapM
        TaskRow.toTask = .ok owned :=
    mapM_of_legible fun task htask => hstore.readableTasks task (List.mem_of_mem_filter htask)
  refine ⟨resource, owned, hread, howned, ?_⟩
  unfold deleteAt
  simp only [hget, bind, Except.bind, howned]
  rfl

theorem Intact.rows_deleteAt (hstore : store.Intact) {row : AtRow}
    (hrow : store.atRow? key = some row) :
    (store.deleteAt key).answer = .ok () ∧
      (store.deleteAt key).store.rows =
        { ats := Function.update store.atRow? key none
          tasks := fun other =>
            (store.taskRow? other).filter fun task => task.ownerUid != some row.uid } := by
  obtain ⟨resource, owned, hread, -, heffect⟩ := hstore.deleteAt_of_found hrow
  have huid : resource.metadata.uid = row.uid := (AtRow.shows_of_toAt hread).uid
  have hget : store.getAt key = .ok resource := by
    unfold getAt
    rw [hrow]
    exact hread
  rw [heffect]
  refine ⟨rfl, ?_⟩
  simp only [rows, Rows.mk.injEq]
  constructor
  · refine Function.eq_update_iff.mpr ⟨?_, fun other hne => ?_⟩
    · rw [hstore.ats.atRow?_remove hget rfl, if_pos rfl]
    · rw [hstore.ats.atRow?_remove hget rfl, if_neg hne]
  · funext other
    rw [hstore.taskRow?_filter rfl, huid]

theorem Intact.listing_ats (hstore : store.Intact) (ns : Option String) :
    ∃ listed, store.listAts ns = .ok listed ∧ Ascending At.key listed ∧
      ∀ resource, resource ∈ listed ↔
        store.getAt resource.key = .ok resource ∧ ns.all (· == resource.key.ns) = true := by
  have hkey : ∀ row resource, AtRow.toAt row = .ok resource → resource.key = row.key :=
    fun row resource hread => (AtRow.shows_of_toAt hread).key
  obtain ⟨listed, hlisted, hascends, hmem⟩ :=
    listing_read hkey hstore.ats.keyed hstore.readableAts ns
  refine ⟨listed, hlisted, hascends, fun resource => (hmem resource).trans (and_congr_left' ?_)⟩
  constructor
  · rintro ⟨row, hrow, hread⟩
    unfold getAt
    rw [hkey row resource hread, hstore.ats.atRow?_of_mem hrow]
    exact hread
  · intro hget
    obtain ⟨row, hrow, hread⟩ := toAt_of_getAt hget
    exact ⟨row, List.mem_of_find?_eq_some hrow, hread⟩

theorem Intact.listing_tasks (hstore : store.Intact) (ns : Option String) :
    ∃ listed, store.listTasks ns = .ok listed ∧ Ascending Task.key listed ∧
      ∀ task, task ∈ listed ↔
        store.getTask task.key = .ok task ∧ ns.all (· == task.key.ns) = true := by
  have hkey : ∀ row task, TaskRow.toTask row = .ok task → task.key = row.key :=
    fun row task hread => (TaskRow.shows_of_toTask hread).key
  obtain ⟨listed, hlisted, hascends, hmem⟩ :=
    listing_read hkey hstore.taskKeys hstore.readableTasks ns
  refine ⟨listed, hlisted, hascends, fun task => (hmem task).trans (and_congr_left' ?_)⟩
  constructor
  · rintro ⟨row, hrow, hread⟩
    unfold getTask
    rw [hkey row task hread, hstore.taskRow?_of_mem hrow]
    exact hread
  · intro hget
    obtain ⟨row, hrow, hread⟩ := toTask_of_getTask hget
    exact ⟨row, List.mem_of_find?_eq_some hrow, hread⟩

theorem Intact.versionedMap (hstore : store.Intact) : store.VersionedMap where
  keys := ⟨hstore.ats.keyed, hstore.taskKeys⟩
  uids := ⟨hstore.ats.distinct, hstore.taskUids⟩
  createAt := by
    intro now resource
    cases htaken : store.atRow? resource.key with
    | some row => simp [createAt_of_taken now resource htaken, refuse, Fault.isAlreadyExists]
    | none =>
        rw [createAt_of_free now resource htaken]
        refine ⟨by simp, fun _ => ⟨uidText (store.issued + 1), ?_, rfl, rfl, ?_⟩⟩
        · exact fun row hrow => ne_next_uid (hstore.ats.issued row hrow)
        · have hfree : store.atRow? (resource.row (uidText (store.issued + 1)) now).key = none :=
            htaken
          exact rows_addAt (by rfl) (by rfl) hfree
  createTask := by
    intro now task
    cases htaken : store.taskRow? task.key with
    | some row => simp [createTask_of_taken now task htaken, refuse, Fault.isAlreadyExists]
    | none =>
        rw [createTask_of_free now task htaken]
        refine ⟨by simp, fun _ => ⟨uidText (store.issued + 1), ?_, rfl, rfl, ?_⟩⟩
        · exact fun row hrow => ne_next_uid (hstore.taskIssued row hrow)
        · have hfree : store.taskRow? (task.row (uidText (store.issued + 1)) now).key = none :=
            htaken
          exact rows_addTask (by rfl) (by rfl) hfree
  updateAtStatus := by
    intro resource updated hdone
    have hchange := store.updateAtStatus_change resource
    generalize store.updateAtStatus resource = effect at *
    cases hchange with
    | refused _ hanswer =>
        rw [hdone] at hanswer
        cases hanswer
    | read _ hreads => cases hreads
    | moveAt hrow _ _ hwritten =>
        exact ⟨_, hrow, hwritten ▸ rows_changeAt (by exact fun _ => rfl) hrow⟩
  updateAtSpec := by
    intro key spec updated hdone
    obtain ⟨row, hrow⟩ := atRow?_of_updateAtSpec hdone
    have hchange := store.updateAtSpec_change key spec
    generalize store.updateAtSpec key spec = effect at *
    cases hchange with
    | refused _ hanswer =>
        rw [hdone] at hanswer
        cases hanswer
    | read _ hreads => cases hreads
    | editAt _ hwritten =>
        exact ⟨row, hrow, hwritten ▸ rows_changeAt (by exact fun _ => rfl) hrow⟩
  updateTaskStatus := by
    intro key status updated hdone
    have hchange := store.updateTaskStatus_change key status
    generalize store.updateTaskStatus key status = effect at *
    cases hchange with
    | refused _ hanswer =>
        rw [hdone] at hanswer
        cases hanswer
    | read _ hreads => cases hreads
    | moveTask hrow _ hwritten =>
        exact ⟨_, hrow, hwritten ▸ rows_changeTask (by exact fun _ => rfl) hrow⟩
  deleteAt := fun key row hrow => hstore.rows_deleteAt hrow
  listAts := hstore.listing_ats
  listTasks := hstore.listing_tasks
  refused := fun now call fault hrefused => store.refused_quiet now call hrefused

end Store

end OneShot
