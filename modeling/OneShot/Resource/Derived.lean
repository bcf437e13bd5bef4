import OneShot.Resource.Object
import OneShot.Text.Pieces

/-!
# The task of a scheduled command

Equal commands give equal tasks.  The task has a name made from the name of
its owner, and the owner is its controller, so that it goes when the owner
goes.
-/

namespace OneShot

/-- The arguments of a command line: single spaces separate, so that two
spaces in a row enclose an empty argument. -/
def splitCommand (command : String) : List String :=
  (Text.piecesAt ' ' command.toList).map String.ofList

namespace At

/-- The key of the task made for a scheduled command. -/
def taskKey (resource : At) : ObjectKey :=
  ⟨resource.metadata.ns, resource.metadata.name ++ "-pod"⟩

/-- The reference from the task to the scheduled command. -/
def ownerReference (resource : At) : OwnerReference :=
  { apiVersion := atApiVersion
    kind := ResourceKind.at.text
    name := resource.metadata.name
    uid := resource.metadata.uid
    controller := true
    blockOwnerDeletion := true }

def newTask (resource : At) : Task :=
  { metadata :=
      { name := resource.taskKey.name
        ns := resource.taskKey.ns
        labels := [("app", resource.metadata.name)]
        owners := [resource.ownerReference] }
    container :=
      { name := "busybox"
        image := "busybox"
        command := splitCommand resource.spec.command }
    restartPolicy := .onFailure }

end At

end OneShot
