import OneShot.Client
import OneShot.Store.Row

/-!
# The store

Two tables of versioned rows.  Every operation is a transaction of its own: it
either changes the tables and tells of the changes by events, or it reports a
fault and leaves the tables as they are.  The status of a scheduled command is
written on the condition that its version is still the one that was read.
-/

namespace OneShot

open Calendar

/-- The tables, and how many uids were given out. -/
structure Store where
  ats : List AtRow := []
  tasks : List TaskRow := []
  issued : Nat := 0
  deriving Repr, DecidableEq

/-- What an operation leaves behind. -/
structure Effect (α : Type) where
  answer : Except Fault α
  store : Store
  events : List ChangeEvent := []

namespace Store

/-! ## Looking up -/

def atRow? (store : Store) (key : ObjectKey) : Option AtRow :=
  store.ats.find? fun row => row.key = key

def taskRow? (store : Store) (key : ObjectKey) : Option TaskRow :=
  store.tasks.find? fun row => row.key = key

def getAt (store : Store) (key : ObjectKey) : Except Fault At :=
  match store.atRow? key with
  | some row => row.toAt
  | none => .error (.notFound .at key)

def getTask (store : Store) (key : ObjectKey) : Except Fault Task :=
  match store.taskRow? key with
  | some row => row.toTask
  | none => .error (.notFound .task key)

/-- Put a row into a list that ascends by key. -/
def insertByKey {ρ : Type} (key : ρ → ObjectKey) (row : ρ) : List ρ → List ρ
  | [] => [row]
  | head :: rest =>
      if (key row).before (key head) then row :: head :: rest
      else head :: insertByKey key row rest

/-- The rows of a namespace, or of all of them, in the order of their keys. -/
def listing {ρ : Type} (key : ρ → ObjectKey) (ns : Option String) (rows : List ρ) : List ρ :=
  (rows.filter fun row => ns.all (· == (key row).ns)).foldl
    (fun sorted row => insertByKey key row sorted) []

def listAts (store : Store) (ns : Option String) : Except Fault (List At) :=
  (listing AtRow.key ns store.ats).mapM AtRow.toAt

def listTasks (store : Store) (ns : Option String) : Except Fault (List Task) :=
  (listing TaskRow.key ns store.tasks).mapM TaskRow.toTask

/-! ## Events -/

/-- The event of a change of a scheduled command. -/
def atEvent (type : EventType) (resource : At) : ChangeEvent :=
  { kind := .at, type := type, key := resource.key }

/-- The event of a change of a task; it names the controller. -/
def taskEvent (type : EventType) (task : Task) : ChangeEvent :=
  { kind := .task, type := type, key := task.key, owner := task.metadata.controllerOwner? }

/-! ## Transactions -/

/-- A read leaves the store as it is. -/
def reading {α : Type} (store : Store) (answer : Except Fault α) : Effect α :=
  { answer, store }

/-- Commit the changed tables if the object can be read back from them. -/
def commit {α : Type} (before after : Store) (answer : Except Fault α)
    (events : α → List ChangeEvent) : Effect α :=
  match answer with
  | .ok value => { answer := .ok value, store := after, events := events value }
  | .error fault => { answer := .error fault, store := { before with issued := after.issued } }

/-- A transaction that fails before it changes anything. -/
def refuse {α : Type} (store : Store) (fault : Fault) : Effect α :=
  { answer := .error fault, store }

def uidText (number : Nat) : String :=
  "uid-" ++ Text.natText number

def issueUid (store : Store) : String × Store :=
  (uidText (store.issued + 1), { store with issued := store.issued + 1 })

/-! ## Scheduled commands -/

/-- Create a scheduled command from its metadata and the values of its columns.
A missing value is refused by the table. -/
def insertAt (store : Store) (now : DateTime) (metadata : Metadata) (values : AtValues) :
    Effect At :=
  if (store.atRow? metadata.key).isSome then
    store.refuse (.alreadyExists .at metadata.key)
  else
    let (uid, store) := store.issueUid
    match values.schedule, values.command, values.phase with
    | some schedule, some command, some phase =>
        let row : AtRow :=
          { uid := uid
            ns := metadata.ns
            name := metadata.name
            version := 1
            created := now
            labels := Column.writeLabels metadata.labels
            schedule := schedule
            command := command
            phase := phase }
        let after := { store with ats := store.ats ++ [row] }
        store.commit after (after.getAt metadata.key) fun created => [atEvent .added created]
    | _, _, _ => store.refuse (.transient .database)

def createAt (store : Store) (now : DateTime) (resource : At) : Effect At :=
  store.insertAt now resource.metadata resource.values

def changeAt (store : Store) (key : ObjectKey) (change : AtRow → AtRow) : Store :=
  { store with ats := store.ats.map fun row => if row.key = key then change row else row }

/-- Write the phase of a scheduled command if its version is still the one
that was read. -/
def writeStatus (store : Store) (metadata : Metadata) (phase : Option String) : Effect At :=
  match Decimal.readInteger? metadata.resourceVersion with
  | none => store.refuse (.conflict (.unusable metadata.resourceVersion))
  | some observed =>
      if observed < -versionBound || versionBound ≤ observed then
        store.refuse (.other .outOfRange)
      else
        match store.atRow? metadata.key with
        | none => store.refuse (.notFound .at metadata.key)
        | some row =>
            if row.version ≠ observed then
              store.refuse (.conflict (.stale metadata.key observed))
            else
              match phase with
              | none => store.refuse (.transient .database)
              | some phase =>
                  let after := store.changeAt metadata.key fun row =>
                    { row with phase, version := row.version + 1 }
                  store.commit after (after.getAt metadata.key) fun updated =>
                    [atEvent .modified updated]

/-- Write the status of a scheduled command that was read before. -/
def updateAtStatus (store : Store) (resource : At) : Effect At :=
  store.writeStatus resource.metadata (some resource.phase)

/-- Write the schedule and the command of a row, whatever its version. -/
def writeSpec (store : Store) (key : ObjectKey) (schedule command : Option String) : Effect At :=
  match store.atRow? key with
  | none => store.refuse (.notFound .at key)
  | some _ =>
      match schedule, command with
      | some schedule, some command =>
          let after := store.changeAt key fun row =>
            { row with schedule, command, version := row.version + 1 }
          store.commit after (after.getAt key) fun updated => [atEvent .modified updated]
      | _, _ => store.refuse (.transient .database)

/-- Write the schedule and the command of a scheduled command. -/
def updateAtSpec (store : Store) (key : ObjectKey) (spec : AtSpec) : Effect At :=
  store.writeSpec key (some spec.schedule) (some spec.command)

/-- Delete a scheduled command and the tasks that it owns. -/
def deleteAt (store : Store) (key : ObjectKey) : Effect Unit :=
  let removed : Except Fault (At × List Task) := do
    let resource ← store.getAt key
    let owned ← (store.tasks.filter fun row =>
      row.ownerUid == some resource.metadata.uid).mapM TaskRow.toTask
    return (resource, owned)
  match removed with
  | .error fault => store.refuse fault
  | .ok (resource, owned) =>
      { answer := .ok ()
        store :=
          { store with
            tasks := store.tasks.filter fun row =>
              row.ownerUid != some resource.metadata.uid
            ats := store.ats.filter fun row => row.uid != resource.metadata.uid }
        events := owned.map (taskEvent .deleted) ++ [atEvent .deleted resource] }

/-! ## Tasks -/

/-- Create a task from the values of its columns.  A missing value is refused
by the table. -/
def insertTask (store : Store) (now : DateTime) (task : Task) (values : TaskValues) :
    Effect Task :=
  if (store.taskRow? task.key).isSome then
    store.refuse (.alreadyExists .task task.key)
  else
    let (uid, store) := store.issueUid
    let owner := task.metadata.storedOwner?
    match values.containerName, values.image, values.command with
    | some containerName, some image, some command =>
        let row : TaskRow :=
          { uid := uid
            ns := task.metadata.ns
            name := task.metadata.name
            version := 1
            created := now
            labels := Column.writeLabels task.metadata.labels
            ownerApiVersion := owner.map (·.apiVersion)
            ownerKind := owner.map (·.kind)
            ownerName := owner.map (·.name)
            ownerUid := owner.map (·.uid)
            ownerController := owner.any (·.controller)
            ownerBlocksDeletion := owner.any (·.blockOwnerDeletion)
            containerName := containerName
            image := image
            command := Column.writeStrings command
            restartPolicy := task.restartPolicy.text
            phase := task.status.phase.text
            reason := task.status.reason
            message := task.status.message }
        let after := { store with tasks := store.tasks ++ [row] }
        store.commit after (after.getTask task.key) fun created => [taskEvent .added created]
    | _, _, _ => store.refuse (.transient .database)

def createTask (store : Store) (now : DateTime) (task : Task) : Effect Task :=
  store.insertTask now task task.values

def changeTask (store : Store) (key : ObjectKey) (change : TaskRow → TaskRow) : Store :=
  { store with tasks := store.tasks.map fun row => if row.key = key then change row else row }

/-- Write the status of a task, whatever its version. -/
def updateTaskStatus (store : Store) (key : ObjectKey) (status : TaskStatus) : Effect Task :=
  match store.taskRow? key with
  | none => store.refuse (.notFound .task key)
  | some _ =>
      let after := store.changeTask key fun row =>
        { row with
          phase := status.phase.text
          reason := status.reason
          message := status.message
          version := row.version + 1 }
      store.commit after (after.getTask key) fun updated => [taskEvent .modified updated]

/-! ## The store as a client -/

def serve (store : Store) (now : DateTime) : (call : Call) → Effect call.Reply
  | .getAt key => store.reading (store.getAt key)
  | .listAts ns => store.reading (store.listAts ns)
  | .updateAtStatus resource => store.updateAtStatus resource
  | .getTask key => store.reading (store.getTask key)
  | .createTask task => store.createTask now task
  | .createAt resource => store.createAt now resource
  | .updateAtSpec key spec => store.updateAtSpec key spec
  | .deleteAt key => store.deleteAt key
  | .listTasks ns => store.reading (store.listTasks ns)
  | .updateTaskStatus key status => store.updateTaskStatus key status

end Store

end OneShot
