import OneShot.Proofs.Assoc
import OneShot.Proofs.Json.Strings
import OneShot.Proofs.Store.Changes

/-!
# Rows of new objects

Labels and arguments are stored as JSON text, from which they are read back.
So the row of a new command, or of a new task, always stands for an object: a
creation under a free key does not fail.
-/

namespace OneShot

open Calendar

namespace Column

/-- The arguments that are stored are those that are read. -/
theorem readStrings?_writeStrings (values : List String) :
    readStrings? (writeStrings values) = some values := by
  have hshown : (values.map Json.str).map Json.shown = values := by
    rw [List.map_map]
    exact List.map_id' values
  rw [readStrings?, writeStrings, Json.read?_write_strings, Option.map_some]
  exact congrArg some hshown

/-- The labels that are stored are those that are read, in the order of their
names. -/
theorem readLabels?_writeLabels (labels : List (String × String)) :
    readLabels? (writeLabels labels) = some (Assoc.ofList (sortedLabels labels)) := by
  have hmembers : Assoc.ofList ((sortedLabels labels).map Json.ofMember) =
      (Assoc.ofList (sortedLabels labels)).map Json.ofMember :=
    Assoc.ofList_map Json.str (sortedLabels labels)
  have hshown : ((Assoc.ofList (sortedLabels labels)).map Json.ofMember).map
      (fun member => (member.1, member.2.shown)) = Assoc.ofList (sortedLabels labels) := by
    rw [List.map_map]
    exact List.map_id' _
  have hread : readLabels? (writeLabels labels) =
      some ((Assoc.ofList ((sortedLabels labels).map Json.ofMember)).map
        fun member => (member.1, member.2.shown)) := by
    rw [readLabels?, writeLabels]
    exact congrArg (Option.map _) (Json.read?_write_members (sortedLabels labels))
  rw [hread, hmembers, hshown]

end Column

/-- The row of a new command. -/
def At.row (resource : At) (uid : String) (now : DateTime) : AtRow :=
  { uid := uid
    ns := resource.metadata.ns
    name := resource.metadata.name
    version := 1
    created := now
    labels := Column.writeLabels resource.metadata.labels
    schedule := resource.spec.schedule
    command := resource.spec.command
    phase := resource.phase }

/-- A command as it is read from its row. -/
def At.stored (resource : At) (uid : String) (now : DateTime) : At :=
  { resource with
    metadata :=
      { resource.metadata with
        uid := uid
        resourceVersion := Text.intText 1
        created := some now
        labels := Assoc.ofList (Column.sortedLabels resource.metadata.labels)
        owners := [] } }

theorem At.toAt_row (resource : At) (uid : String) (now : DateTime) :
    (resource.row uid now).toAt = .ok (resource.stored uid now) := by
  have hlabels : readLabels (resource.row uid now).labels =
      .ok (Assoc.ofList (Column.sortedLabels resource.metadata.labels)) := by
    unfold readLabels
    rw [show (resource.row uid now).labels = Column.writeLabels resource.metadata.labels from rfl,
      Column.readLabels?_writeLabels]
  unfold AtRow.toAt
  simp only [hlabels, bind, Except.bind, pure, Except.pure]
  rfl

/-- The row of a new task. -/
def Task.row (task : Task) (uid : String) (now : DateTime) : TaskRow :=
  { uid := uid
    ns := task.metadata.ns
    name := task.metadata.name
    version := 1
    created := now
    labels := Column.writeLabels task.metadata.labels
    ownerApiVersion := task.metadata.storedOwner?.map (·.apiVersion)
    ownerKind := task.metadata.storedOwner?.map (·.kind)
    ownerName := task.metadata.storedOwner?.map (·.name)
    ownerUid := task.metadata.storedOwner?.map (·.uid)
    ownerController := task.metadata.storedOwner?.any (·.controller)
    ownerBlocksDeletion := task.metadata.storedOwner?.any (·.blockOwnerDeletion)
    containerName := task.container.name
    image := task.container.image
    command := Column.writeStrings task.container.command
    restartPolicy := task.restartPolicy.text
    phase := task.status.phase.text
    reason := task.status.reason
    message := task.status.message }

/-- A task as it is read from its row: the store has given it a uid, a version
and a time, and has kept one owner. -/
def Task.stored (task : Task) (uid : String) (now : DateTime) : Task :=
  { task with
    metadata :=
      { task.metadata with
        uid := uid
        resourceVersion := Text.intText 1
        created := some now
        labels := Assoc.ofList (Column.sortedLabels task.metadata.labels)
        owners := task.metadata.storedOwner?.toList } }

theorem TaskPhase.ofText?_text (phase : TaskPhase) : ofText? phase.text = some phase := by
  cases phase <;> decide

theorem RestartPolicy.ofText?_text (policy : RestartPolicy) :
    ofText? policy.text = some policy := by
  cases policy <;> decide

theorem Task.toTask_row (task : Task) (uid : String) (now : DateTime) :
    (task.row uid now).toTask = .ok (task.stored uid now) := by
  have howner : (task.row uid now).owner? = task.metadata.storedOwner? := by
    unfold TaskRow.owner? Task.row
    cases task.metadata.storedOwner? <;> rfl
  have hlabels : readLabels (task.row uid now).labels =
      .ok (Assoc.ofList (Column.sortedLabels task.metadata.labels)) := by
    unfold readLabels
    rw [show (task.row uid now).labels = Column.writeLabels task.metadata.labels from rfl,
      Column.readLabels?_writeLabels]
  have hcommand : Column.readStrings? (task.row uid now).command =
      some task.container.command :=
    Column.readStrings?_writeStrings task.container.command
  have hpolicy : RestartPolicy.ofText? (task.row uid now).restartPolicy =
      some task.restartPolicy :=
    RestartPolicy.ofText?_text task.restartPolicy
  have hphase : TaskPhase.ofText? (task.row uid now).phase = some task.status.phase :=
    TaskPhase.ofText?_text task.status.phase
  unfold TaskRow.toTask
  simp only [hlabels, hcommand, hpolicy, hphase, howner, bind, Except.bind, pure, Except.pure,
    Option.getD_some]
  rfl

namespace Store

/-- A creation under a free key gets through. -/
theorem createAt_of_free {store : Store} (now : DateTime) (resource : At)
    (hfree : store.atRow? resource.key = none) :
    store.createAt now resource =
      { answer := .ok (resource.stored (uidText (store.issued + 1)) now)
        store :=
          { store with
            ats := store.ats ++ [resource.row (uidText (store.issued + 1)) now]
            issued := store.issued + 1 }
        events := [atEvent .added (resource.stored (uidText (store.issued + 1)) now)] } := by
  have hread : getAt
      { store with
        ats := store.ats ++ [resource.row (uidText (store.issued + 1)) now]
        issued := store.issued + 1 } resource.key =
        .ok (resource.stored (uidText (store.issued + 1)) now) := by
    unfold getAt
    rw [atRow?_append_self rfl hfree rfl]
    exact resource.toAt_row _ now
  unfold createAt insertAt
  rw [show store.atRow? resource.metadata.key = none from hfree]
  simp only [Option.isSome_none, Bool.false_eq_true, if_false, issueUid, At.values]
  exact congrArg (commit _ _ · _) hread

theorem createAt_of_taken {store : Store} (now : DateTime) (resource : At) {row : AtRow}
    (htaken : store.atRow? resource.key = some row) :
    store.createAt now resource = store.refuse (.alreadyExists .at resource.key) := by
  unfold createAt insertAt
  rw [show store.atRow? resource.metadata.key = some row from htaken]
  rfl

/-- A creation under a free key gets through. -/
theorem createTask_of_free {store : Store} (now : DateTime) (task : Task)
    (hfree : store.taskRow? task.key = none) :
    store.createTask now task =
      { answer := .ok (task.stored (uidText (store.issued + 1)) now)
        store :=
          { store with
            tasks := store.tasks ++ [task.row (uidText (store.issued + 1)) now]
            issued := store.issued + 1 }
        events := [taskEvent .added (task.stored (uidText (store.issued + 1)) now)] } := by
  have hread : getTask
      { store with
        tasks := store.tasks ++ [task.row (uidText (store.issued + 1)) now]
        issued := store.issued + 1 } task.key =
        .ok (task.stored (uidText (store.issued + 1)) now) := by
    unfold getTask
    rw [taskRow?_append_self rfl hfree rfl]
    exact task.toTask_row _ now
  unfold createTask insertTask
  rw [hfree]
  simp only [Option.isSome_none, Bool.false_eq_true, if_false, issueUid, Task.values]
  exact congrArg (commit _ _ · _) hread

theorem createTask_of_taken {store : Store} (now : DateTime) (task : Task) {row : TaskRow}
    (htaken : store.taskRow? task.key = some row) :
    store.createTask now task = store.refuse (.alreadyExists .task task.key) := by
  unfold createTask insertTask
  rw [htaken]
  rfl

end Store

end OneShot
