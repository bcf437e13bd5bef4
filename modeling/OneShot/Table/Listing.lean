import OneShot.Resource.Object
import OneShot.Table.Age
import OneShot.Table.Layout

/-!
# Listings

Scheduled commands and tasks as tables.  A listing of all namespaces has a
first column for the namespace.
-/

namespace OneShot.Table

open Calendar

/-- The first column of a listing of all namespaces. -/
def withNamespace (everywhere : Bool) (ns : String) (cells : List String) : List String :=
  if everywhere then ns :: cells else cells

/-- The cells of a scheduled command; none if its age has no meaning. -/
def atCells? (everywhere : Bool) (now : DateTime) (resource : At) : Option (List String) :=
  (Age.shown? resource.metadata.created now).map fun age =>
    withNamespace everywhere resource.metadata.ns
      [resource.metadata.name, resource.spec.schedule, resource.spec.command, resource.phase, age]

/-- The cells of a task; none if its age has no meaning. -/
def taskCells? (everywhere : Bool) (now : DateTime) (task : Task) : Option (List String) :=
  (Age.shown? task.metadata.created now).map fun age =>
    withNamespace everywhere task.metadata.ns
      [task.metadata.name, (task.metadata.controllerOwner?.map (·.name)).getD "<none>",
        task.status.phase.text, task.status.reason.getD "", age]

/-- The lines of a listing of scheduled commands. -/
def atListing? (everywhere : Bool) (now : DateTime) (ats : List At) : Option (List String) :=
  (ats.mapM (atCells? everywhere now)).map
    (layOut (withNamespace everywhere "NAMESPACE"
      ["NAME", "SCHEDULE", "COMMAND", "PHASE", "AGE"]))

def taskListing? (everywhere : Bool) (now : DateTime) (tasks : List Task) :
    Option (List String) :=
  (tasks.mapM (taskCells? everywhere now)).map
    (layOut (withNamespace everywhere "NAMESPACE" ["NAME", "AT", "PHASE", "REASON", "AGE"]))

end OneShot.Table
