import OneShot.Fault
import OneShot.Store.Column
import OneShot.Text.Digit

/-!
# Rows

The rows of the two tables, and the objects they stand for.  Columns that hold
texts are kept as texts: a row that another writer has changed may not stand
for an object any more, and then reading it fails.

The column of a version holds whole numbers of 64 bits.  The number after the
last of them is stored as a floating-point number, to which one can be added
for ever without a change: every version from the bound on stands for it.
-/

namespace OneShot

open Calendar

/-- A row of the table of scheduled commands. -/
structure AtRow where
  uid : String
  ns : String
  name : String
  version : Int
  created : DateTime
  labels : String
  schedule : String
  command : String
  phase : String
  deriving Repr, DecidableEq

/-- A row of the table of tasks. -/
structure TaskRow where
  uid : String
  ns : String
  name : String
  version : Int
  created : DateTime
  labels : String
  ownerApiVersion : Option String
  ownerKind : Option String
  ownerName : Option String
  ownerUid : Option String
  ownerController : Bool
  ownerBlocksDeletion : Bool
  containerName : String
  image : String
  command : String
  restartPolicy : String
  phase : String
  reason : Option String
  message : Option String
  deriving Repr, DecidableEq

def AtRow.key (row : AtRow) : ObjectKey := ⟨row.ns, row.name⟩

def TaskRow.key (row : TaskRow) : ObjectKey := ⟨row.ns, row.name⟩

/-- The number after the last whole number that a column holds. -/
def Store.versionBound : Int := 9223372036854775808

/-- The text of a version; that of a floating-point number is no numeral. -/
def versionText (version : Int) : String :=
  if version < Store.versionBound then Text.intText version else "9.223372036854776e+18"

/-- Why a text is not read as JSON. -/
def unreadableCause (text : String) : OtherCause :=
  match Json.read Json.usualRoom text with
  | .error .tooDeep => .tooDeep
  | _ => .notJson

def readLabels (text : String) : Except Fault (List (String × String)) :=
  match Column.readLabels? text with
  | some labels => .ok labels
  | none => .error (.other (unreadableCause text))

def AtRow.toAt (row : AtRow) : Except Fault At := do
  let labels ← readLabels row.labels
  return {
    metadata :=
      { name := row.name
        ns := row.ns
        uid := row.uid
        resourceVersion := versionText row.version
        created := some row.created
        labels := labels }
    spec := ⟨row.schedule, row.command⟩
    phase := row.phase }

/-- The owner of a row: there is one if its uid is stored. -/
def TaskRow.owner? (row : TaskRow) : Option OwnerReference :=
  row.ownerUid.map fun uid =>
    { apiVersion := row.ownerApiVersion.getD ""
      kind := row.ownerKind.getD ""
      name := row.ownerName.getD ""
      uid := uid
      controller := row.ownerController
      blockOwnerDeletion := row.ownerBlocksDeletion }

/-- The task of a row.  A phase that is not known is read as such. -/
def TaskRow.toTask (row : TaskRow) : Except Fault Task := do
  let labels ← readLabels row.labels
  let command ←
    match Column.readStrings? row.command with
    | some command => .ok command
    | none => .error (.other (unreadableCause row.command))
  let policy ←
    match RestartPolicy.ofText? row.restartPolicy with
    | some policy => .ok policy
    | none => .error (.other (.notOneOf row.restartPolicy "RestartPolicy"))
  return {
    metadata :=
      { name := row.name
        ns := row.ns
        uid := row.uid
        resourceVersion := versionText row.version
        created := some row.created
        labels := labels
        owners := row.owner?.toList }
    container := ⟨row.containerName, row.image, command⟩
    restartPolicy := policy
    status := ⟨(TaskPhase.ofText? row.phase).getD .unknown, row.reason, row.message⟩ }

/-! ## Values to be stored -/

/-- The values of a scheduled command that its columns must have. -/
structure AtValues where
  schedule : Option String
  command : Option String
  phase : Option String
  deriving Repr, DecidableEq

def At.values (resource : At) : AtValues :=
  ⟨some resource.spec.schedule, some resource.spec.command, some resource.phase⟩

/-- The values of a task that its columns must have. -/
structure TaskValues where
  containerName : Option String
  image : Option String
  command : Option (List String)
  deriving Repr, DecidableEq

def Task.values (task : Task) : TaskValues :=
  ⟨some task.container.name, some task.container.image, some task.container.command⟩

/-- The owner that is stored with a task: the controller, else the first. -/
def Metadata.storedOwner? (metadata : Metadata) : Option OwnerReference :=
  match metadata.controllerOwner? with
  | some owner => some owner
  | none => metadata.owners.head?

end OneShot
