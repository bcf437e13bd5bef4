import OneShot.Calendar.Stamp
import OneShot.Json.Access
import OneShot.Json.Reader
import OneShot.Json.Writer
import OneShot.Store.Basic

/-!
# Snapshots of the store

The tables as JSON, so that they can be kept between two runs of a program.
Reading takes what writing gives; a snapshot with anything missing is refused
as a whole.
-/

namespace OneShot.Snapshot

open Calendar

def textOrNull : Option String → Json
  | some value => .str value
  | none => .null

def text? (value : Json) (name : String) : Option String :=
  (value.get? name).bind Json.text?

/-- A member that is a text or null. -/
def textOrNull? (value : Json) (name : String) : Option (Option String) :=
  match value.get? name with
  | some .null => some none
  | some (.str text) => some (some text)
  | _ => none

def flag? (value : Json) (name : String) : Option Bool :=
  match value.get? name with
  | some (.bool flag) => some flag
  | _ => none

def integer? (value : Json) (name : String) : Option Int :=
  match value.get? name with
  | some (.int integer) => some integer
  | _ => none

def moment? (value : Json) (name : String) : Option DateTime :=
  (text? value name).bind Stamp.read?

/-- A row of the table of scheduled commands as JSON. -/
def ofAtRow (row : AtRow) : Json :=
  .obj
    [("uid", .str row.uid), ("namespace", .str row.ns), ("name", .str row.name),
     ("version", .int row.version), ("created", .str (Stamp.text row.created)),
     ("labels", .str row.labels), ("schedule", .str row.schedule),
     ("command", .str row.command), ("phase", .str row.phase)]

/-- Read a row of the table of scheduled commands. -/
def atRow? (value : Json) : Option AtRow := do
  return {
    uid := ← text? value "uid"
    ns := ← text? value "namespace"
    name := ← text? value "name"
    version := ← integer? value "version"
    created := ← moment? value "created"
    labels := ← text? value "labels"
    schedule := ← text? value "schedule"
    command := ← text? value "command"
    phase := ← text? value "phase" }

/-- A row of the table of tasks as JSON. -/
def ofTaskRow (row : TaskRow) : Json :=
  .obj
    [("uid", .str row.uid), ("namespace", .str row.ns), ("name", .str row.name),
     ("version", .int row.version), ("created", .str (Stamp.text row.created)),
     ("labels", .str row.labels), ("ownerApiVersion", textOrNull row.ownerApiVersion),
     ("ownerKind", textOrNull row.ownerKind), ("ownerName", textOrNull row.ownerName),
     ("ownerUid", textOrNull row.ownerUid), ("ownerController", .bool row.ownerController),
     ("ownerBlocksDeletion", .bool row.ownerBlocksDeletion),
     ("containerName", .str row.containerName), ("image", .str row.image),
     ("command", .str row.command), ("restartPolicy", .str row.restartPolicy),
     ("phase", .str row.phase), ("reason", textOrNull row.reason),
     ("message", textOrNull row.message)]

/-- Read a row of the table of tasks. -/
def taskRow? (value : Json) : Option TaskRow := do
  return {
    uid := ← text? value "uid"
    ns := ← text? value "namespace"
    name := ← text? value "name"
    version := ← integer? value "version"
    created := ← moment? value "created"
    labels := ← text? value "labels"
    ownerApiVersion := ← textOrNull? value "ownerApiVersion"
    ownerKind := ← textOrNull? value "ownerKind"
    ownerName := ← textOrNull? value "ownerName"
    ownerUid := ← textOrNull? value "ownerUid"
    ownerController := ← flag? value "ownerController"
    ownerBlocksDeletion := ← flag? value "ownerBlocksDeletion"
    containerName := ← text? value "containerName"
    image := ← text? value "image"
    command := ← text? value "command"
    restartPolicy := ← text? value "restartPolicy"
    phase := ← text? value "phase"
    reason := ← textOrNull? value "reason"
    message := ← textOrNull? value "message" }

def write (store : Store) : String :=
  (Json.obj
    [("ats", .arr (store.ats.map ofAtRow)), ("tasks", .arr (store.tasks.map ofTaskRow)),
     ("issued", .int store.issued)]).write .spaced

def read? (text : String) : Option Store := do
  let value ← Json.read? text
  return {
    ats := ← (value.member "ats").items.mapM atRow?
    tasks := ← (value.member "tasks").items.mapM taskRow?
    issued := (← integer? value "issued").toNat }

end OneShot.Snapshot
