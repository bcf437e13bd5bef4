import OneShot.Reconcile.Pass
import OneShot.Simulation.Bench

/-!
# A client in memory

The shelf keeps whole objects and compares versions as texts.  It answers the
calls that passes make, on a bench, and notes the writes.
-/

namespace OneShot.Simulation

open Calendar

/-- A write as it was noted. -/
inductive Write where
  | status (updated : At)
  | task (asked : Task)

/-- Objects in memory. -/
structure Shelf where
  bench : Bench
  ats : List (ObjectKey × At) := []
  tasks : List (ObjectKey × Task) := []
  writes : List Write := []

namespace Shelf

instance : Clock Shelf Float where
  read shelf :=
    let (now, clock) := shelf.bench.clock.reading
    (now, { shelf with bench := { shelf.bench with clock } })
  sleep duration shelf :=
    { shelf with bench := { shelf.bench with clock := shelf.bench.clock.sleep duration } }
  ownMoves shelf := shelf.bench.clock.readings.length

def nextVersion (version : String) : Except Fault String :=
  match Decimal.readInteger? version with
  | some number => .ok (Text.intText (number + 1))
  | none =>
      .error (.other (.value
        ("invalid literal for int() with base 10: " ++ Text.quoted version)))

/-- Write the status of an object if the versions agree. -/
def updateStatus (shelf : Shelf) (resource : At) : Except Fault At × Shelf :=
  match Assoc.get? shelf.ats resource.key with
  | none => (.error (.notFound .at resource.key), shelf)
  | some current =>
      if current.metadata.resourceVersion ≠ resource.metadata.resourceVersion then
        (.error (.conflict (.newer resource.key)), shelf)
      else
        match nextVersion current.metadata.resourceVersion with
        | .error fault => (.error fault, shelf)
        | .ok version =>
            let updated : At :=
              { current with
                metadata := { current.metadata with resourceVersion := version }
                phase := resource.phase }
            (.ok updated,
              { shelf with
                ats := Assoc.put shelf.ats resource.key updated
                writes := shelf.writes ++ [.status updated] })

/-- Create a task unless its key is taken. -/
def create (shelf : Shelf) (task : Task) : Except Fault Task × Shelf :=
  match Assoc.get? shelf.tasks task.key with
  | some _ => (.error (.alreadyExists .task task.key), shelf)
  | none =>
      let created : Task :=
        { task with
          metadata := { task.metadata with uid := "task-uid", resourceVersion := "1" } }
      (.ok created,
        { shelf with
          tasks := Assoc.put shelf.tasks task.key created
          writes := shelf.writes ++ [.task task] })

/-- The object of a key, or that it is missing. -/
def find {α : Type} (kind : ResourceKind) (objects : List (ObjectKey × α)) (key : ObjectKey) :
    Except Fault α :=
  match Assoc.get? objects key with
  | some found => .ok found
  | none => .error (.notFound kind key)

/-- Answer a call; calls that passes do not make are unknown to the shelf. -/
def serve (shelf : Shelf) : (call : Call) → Except Fault call.Reply × Shelf
  | .getAt key => (find .at shelf.ats key, shelf)
  | .getTask key => (find .task shelf.tasks key, shelf)
  | .updateAtStatus resource => shelf.updateStatus resource
  | .createTask task => shelf.create task
  | .listAts _ | .createAt _ | .updateAtSpec _ _ | .deleteAt _ | .listTasks _
  | .updateTaskStatus _ _ => (.error (.resource "unknown call"), shelf)

/-- The shelf as a client on its bench. -/
def client : Client Shelf Float := fun call patience shelf =>
  match shelf.bench.meet call patience with
  | (some fault, bench) => (.error fault, { shelf with bench })
  | (none, bench) => { shelf with bench }.serve call

/-- Make a pass over a key, with a time limit if one is given. -/
def pass (shelf : Shelf) (key : ObjectKey) (limit : Option Float) :
    Except Fault Pass.Result × Shelf :=
  let (deadline, shelf) := Deadline.after limit shelf
  Pass.run client (fun shelf => shelf.bench.clock.now) deadline key shelf

/-- Forget the writes and calls noted so far. -/
def clearNotes (shelf : Shelf) : Shelf :=
  { shelf with writes := [], bench := { shelf.bench with notes := [] } }

end Shelf

end OneShot.Simulation
