import OneShot.Fault

/-!
# Calls of a resource client

The calls that the controller, the task runner and the command line make, each
with the type of its reply.  A client answers calls and changes the state it
lives in.
-/

namespace OneShot

/-- A call for a resource. -/
inductive Call where
  | getAt (key : ObjectKey)
  | listAts (ns : Option String)
  | updateAtStatus (resource : At)
  | getTask (key : ObjectKey)
  | createTask (task : Task)
  | createAt (resource : At)
  | updateAtSpec (key : ObjectKey) (spec : AtSpec)
  | deleteAt (key : ObjectKey)
  | listTasks (ns : Option String)
  | updateTaskStatus (key : ObjectKey) (status : TaskStatus)
  deriving Repr, DecidableEq

/-- The reply to a call that succeeds. -/
abbrev Call.Reply : Call → Type
  | getAt _ | updateAtStatus _ | createAt _ | updateAtSpec _ _ => At
  | listAts _ => List At
  | getTask _ | createTask _ | updateTaskStatus _ _ => Task
  | listTasks _ => List Task
  | deleteAt _ => Unit

/-- The name under which a call is recorded. -/
def Call.name : Call → String
  | getAt _ => "get_at"
  | listAts _ => "list_ats"
  | updateAtStatus _ => "update_at_status"
  | getTask _ => "get_task"
  | createTask _ => "create_task"
  | createAt _ => "create_at"
  | updateAtSpec _ _ => "update_at_spec"
  | deleteAt _ => "delete_at"
  | listTasks _ => "list_tasks"
  | updateTaskStatus _ _ => "update_task_status"

/-- How much time a caller gives to a call. -/
inductive Patience (τ : Type) where
  /-- The caller says nothing about time. -/
  | unstated
  /-- At most this long, or as long as it takes. -/
  | stated (limit : Option τ)

/-- A client answers calls in a state. -/
abbrev Client (σ τ : Type) :=
  (call : Call) → Patience τ → σ → Except Fault call.Reply × σ

end OneShot
