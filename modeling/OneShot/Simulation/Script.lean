import OneShot.Files.Tree
import OneShot.Json.Access
import OneShot.Resource.Object
import OneShot.Runner.Run
import OneShot.Settings.Controller
import OneShot.Simulation.Handlers
import OneShot.Simulation.VirtualClock
import OneShot.Store.Row

/-!
# Scripts

A simulation is described by JSON.  Resources are flat objects in it, and what
is left out of them has a usual value; a moment is a list of its fields, and a
key is a pair.
-/

namespace OneShot.Script

open Calendar

/-- A moment: year, month, day, hour, minute, second, microsecond and offset. -/
def moment? : Json → Option DateTime
  | .arr [year, month, day, hour, minute, second, microsecond, offset] =>
      some
        { date := ⟨year.integer.toNat, month.integer.toNat, day.integer.toNat⟩
          hour := hour.integer.toNat
          minute := minute.integer.toNat
          second := second.integer.toNat
          microsecond := microsecond.integer.toNat
          offset := offset.integer? }
  | _ => none

/-- The moment at which a simulation begins unless it says otherwise. -/
def usualMoment : DateTime :=
  { date := ⟨2026, 10, 19⟩
    hour := 12
    minute := 0
    second := 0
    microsecond := 0
    offset := some 0 }

def momentOr (value : Json) (name : String) : DateTime :=
  (moment? (value.member name)).getD usualMoment

def key : Json → ObjectKey
  | .arr [ns, name] => ⟨ns.text, name.text⟩
  | _ => ⟨"", ""⟩

def owner (value : Json) : OwnerReference :=
  { apiVersion := value.textOr "api_version" atApiVersion
    kind := value.textOr "kind" "At"
    name := value.textOr "name" ""
    uid := value.textOr "uid" ""
    controller := value.flagOr "controller" false
    blockOwnerDeletion := value.flagOr "block" false }

def metadata (value : Json) : Metadata :=
  { name := value.textOr "name" ""
    ns := value.textOr "namespace" ObjectKey.defaultNamespace
    uid := value.textOr "uid" ""
    resourceVersion := value.textOr "rv" ""
    created := moment? (value.member "created")
    labels := (value.member "labels").members.map fun label => (label.1, label.2.text)
    owners := (value.member "owners").items.map owner }

/-- A member that is a string or null, or the usual value if it is left out. -/
def textUnless (value : Json) (name usual : String) : Option String :=
  if value.has name then (value.member name).text? else some usual

/-- The values of a scheduled command; null stands for a missing one. -/
def atValues (value : Json) : AtValues :=
  ⟨textUnless value "schedule" "2026-10-19T12:00:00Z", textUnless value "command" "echo hello",
    textUnless value "phase" ""⟩

def atOf (value : Json) : At :=
  let values := atValues value
  { metadata := metadata value
    spec := ⟨values.schedule.getD "", values.command.getD ""⟩
    phase := values.phase.getD "" }

def status (value : Json) : TaskStatus :=
  { phase := (TaskPhase.ofText? (value.textOr "phase" "Pending")).getD .unknown
    reason := (value.member "reason").text?
    message := (value.member "message").text? }

/-- The arguments of a container, unless they are null. -/
def arguments (container : Json) : Option (List String) :=
  match container.get? "command" with
  | none => some ["echo", "hello"]
  | some .null => none
  | some value => some (value.items.map Json.text)

/-- The values of a task; null stands for a missing one. -/
def taskValues (value : Json) : TaskValues :=
  let container := value.member "container"
  ⟨textUnless container "name" "busybox", textUnless container "image" "busybox",
    arguments container⟩

def taskOf (value : Json) : Task :=
  let values := taskValues value
  { metadata := metadata value
    container :=
      ⟨values.containerName.getD "", values.image.getD "", values.command.getD []⟩
    restartPolicy :=
      (RestartPolicy.ofText? (value.textOr "restart_policy" "OnFailure")).getD .onFailure
    status := status value }

def clock (value : Json) : Simulation.VirtualClock :=
  { monotonic := value.numberOr "clock" 1000.0
    wall := (momentOr value "now").instant
    readings := (value.member "readings").items.map fun reading => reading.number?.getD 0.0 }

/-! ## Processes and handlers -/

def quantity? : Json → Option Decimal.Quantity
  | .int value => some (.whole value)
  | .float value => some (.real value)
  | _ => none

/-- How a process ends: with a status and what it said, or not begun at all for
a reason that has a text, or a number and a text, and perhaps the name of a
file. -/
def processEnd (value : Json) : Run.ProcessEnd :=
  match (value.get? "oserror").map Json.items with
  | none => .exited (value.integerOr "exit" 0) (value.member "stderr").text?
  | some [] => .notStarted ""
  | some [only] => .notStarted only.shown
  | some [number, text] => .notStarted ("[Errno " ++ number.shown ++ "] " ++ text.shown)
  | some (number :: text :: file :: _) =>
      .notStarted ("[Errno " ++ number.shown ++ "] " ++ text.shown ++ ": " ++ file.shownInside)

def handler (value : Json) : Simulation.HandlerScript :=
  { subscribes := (value.member "subscribe").text?
    unsubscribes := (value.member "unsubscribe").integer?.map Int.toNat
    republishes := (value.member "republish").present?.map key }

/-! ## Surroundings -/

/-- The folder that a simulation has to itself. -/
def scratch : List String := ["<tmp>"]

def environment (value : Json) : Environment :=
  value.members.map fun entry => (entry.1, entry.2.text)

/-- The place of a name below the folder of a simulation. -/
def placeOf (name : String) : List String :=
  scratch ++ (Files.Path.ofText name).names

/-- Write the files that a script lists, by name or with their texts. -/
def writeFiles (value : Json) (tree : Files.Tree) : Files.Tree :=
  let named := value.items.map fun name => (name.text, "")
  (named ++ environment value).foldl
    (fun tree entry => tree.addFile (placeOf entry.1) (Text.utf8Bytes entry.2)) tree

def surroundings (value : Json) : Files.Surroundings :=
  let folders := (value.member "dirs").items.foldl
    (fun (tree : Files.Tree) name => tree.addFolders (placeOf name.text))
    (({} : Files.Tree).addFolders scratch)
  { env := environment (value.member "env")
    files := writeFiles (value.member "files") folders
    folder := ⟨"/", scratch⟩ }

/-- A member that is a number or null, or the usual value if it is left out. -/
def numberUnless (value : Json) (name : String) (usual : Option Float) : Option Float :=
  if value.has name then (value.member name).number? else usual

def controllerSettings (value : Json) : ControllerSettings :=
  { workers := value.integerOr "workers" 1
    backoffBase := value.numberOr "backoff_base_seconds" 1.0
    backoffLimit := value.numberOr "backoff_max_seconds" 300.0
    timeout := numberUnless value "reconcile_timeout_seconds" (some 30.0)
    conflictDelay := value.numberOr "conflict_requeue_seconds" 0.0
    maxRetries := (value.member "max_retries").integer?
    resync := (value.member "resync_seconds").number?
    maxAttempts := value.integerOr "task_max_attempts" 3 }

/-! ## Columns changed by others -/

/-- The text that a column is overwritten with. -/
def columnText : Json → String
  | .str text => text
  | value => value.write .spaced

/-- A truth value, or a number that stands for one. -/
def flag : Json → Bool
  | .bool value => value
  | value => value.integer ≠ 0

/-- Overwrite a column of a row by its name. -/
def overwrite (row : TaskRow) (column : String × Json) : TaskRow :=
  let value := column.2
  match column.1 with
  | "namespace" => { row with ns := value.text }
  | "name" => { row with name := value.text }
  | "resource_version" => { row with version := value.integer }
  | "labels" => { row with labels := columnText value }
  | "owner_api_version" => { row with ownerApiVersion := value.text? }
  | "owner_kind" => { row with ownerKind := value.text? }
  | "owner_name" => { row with ownerName := value.text? }
  | "owner_uid" => { row with ownerUid := value.text? }
  | "owner_controller" => { row with ownerController := flag value }
  | "owner_block_deletion" => { row with ownerBlocksDeletion := flag value }
  | "container_name" => { row with containerName := value.text }
  | "image" => { row with image := value.text }
  | "command" => { row with command := columnText value }
  | "restart_policy" => { row with restartPolicy := value.text }
  | "phase" => { row with phase := value.text }
  | "reason" => { row with reason := value.text? }
  | "message" => { row with message := value.text? }
  | _ => row

end OneShot.Script
