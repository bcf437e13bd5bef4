import OneShot.Resource.Key
import OneShot.Resource.Phase
import OneShot.Calendar.DateTime

/-!
# Scheduled commands and their tasks

An `At` asks for a command to be run once a moment has passed.  A `Task` is
one run of a command, owned by the `At` it was made for.
-/

namespace OneShot

open Calendar

/-- The two kinds of objects. -/
inductive ResourceKind where
  | at
  | task
  deriving Repr, DecidableEq

namespace ResourceKind

def text : ResourceKind → String
  | .at => "At"
  | .task => "Task"

def ofText? (name : String) : Option ResourceKind :=
  [ResourceKind.at, .task].find? fun kind => kind.text == name

end ResourceKind

/-- The API group and version of scheduled commands. -/
def atApiVersion : String := "cnat.programming-kubernetes.info/v1alpha1"

/-- A pointer from an object to one that it belongs to. -/
structure OwnerReference where
  apiVersion : String
  kind : String
  name : String
  uid : String
  controller : Bool := false
  blockOwnerDeletion : Bool := false
  deriving Repr, DecidableEq, Inhabited

/-- Identity and ownership, common to all objects. -/
structure Metadata where
  name : String
  ns : String := ObjectKey.defaultNamespace
  uid : String := ""
  resourceVersion : String := ""
  created : Option DateTime := none
  labels : List (String × String) := []
  owners : List OwnerReference := []
  deriving Repr, DecidableEq

def Metadata.key (metadata : Metadata) : ObjectKey :=
  ⟨metadata.ns, metadata.name⟩

/-- The owner that manages an object: the first one marked as controller. -/
def Metadata.controllerOwner? (metadata : Metadata) : Option OwnerReference :=
  metadata.owners.find? (·.controller)

/-- What is to be run, and when. -/
structure AtSpec where
  schedule : String
  command : String
  deriving Repr, DecidableEq

/-- A scheduled command.  The phase is kept as text so that phases of other
writers survive. -/
structure At where
  metadata : Metadata
  spec : AtSpec
  phase : String := ""
  deriving Repr, DecidableEq

def At.key (resource : At) : ObjectKey := resource.metadata.key

/-- What a task runs. -/
structure Container where
  name : String
  image : String
  command : List String
  deriving Repr, DecidableEq

/-- How far a task has come. -/
structure TaskStatus where
  phase : TaskPhase := .pending
  reason : Option String := none
  message : Option String := none
  deriving Repr, DecidableEq

/-- One run of a command. -/
structure Task where
  metadata : Metadata
  container : Container
  restartPolicy : RestartPolicy := .onFailure
  status : TaskStatus := {}
  deriving Repr, DecidableEq

def Task.key (task : Task) : ObjectKey := task.metadata.key

/-- What happened to an object. -/
inductive EventType where
  | added
  | modified
  | deleted
  deriving Repr, DecidableEq

namespace EventType

def text : EventType → String
  | added => "ADDED"
  | modified => "MODIFIED"
  | deleted => "DELETED"

def ofText? (name : String) : Option EventType :=
  [added, modified, deleted].find? fun type => type.text == name

end EventType

/-- A committed change. -/
structure ChangeEvent where
  kind : ResourceKind
  type : EventType
  key : ObjectKey
  owner : Option OwnerReference := none
  deriving Repr, DecidableEq

/-- The scheduled commands that a change concerns: the one that changed, or
the one that owns the task that changed. -/
def ChangeEvent.affected (event : ChangeEvent) : List ObjectKey :=
  match event.kind, event.owner with
  | .at, _ => [event.key]
  | .task, some owner =>
      if owner.kind == ResourceKind.at.text then [⟨event.key.ns, owner.name⟩]
      else []
  | .task, none => []

end OneShot
