import OneShot.Resource.Object

/-!
# The pool of jobs

The task runner keeps one job for a key at a time: a key is *active* from the
moment its job is accepted until the job has ended.  Accepted jobs are begun in
their order.
-/

namespace OneShot

/-- The jobs of a task runner. -/
structure JobPool where
  /-- Keys with a job that has not ended. -/
  active : List ObjectKey := []
  /-- Jobs that are accepted and not begun, the oldest first. -/
  jobs : List ObjectKey := []
  stopped : Bool := false
  deriving Repr, DecidableEq

namespace JobPool

/-- Whether a job for a key would be accepted. -/
def accepts (pool : JobPool) (key : ObjectKey) : Bool :=
  !pool.stopped && !pool.active.contains key

def submit (pool : JobPool) (key : ObjectKey) : JobPool :=
  if pool.accepts key then
    { pool with active := key :: pool.active, jobs := pool.jobs ++ [key] }
  else pool

def begin? (pool : JobPool) : Option (ObjectKey × JobPool) :=
  match pool.jobs with
  | [] => none
  | key :: rest => some (key, { pool with jobs := rest })

def release (pool : JobPool) (key : ObjectKey) : JobPool :=
  { pool with active := pool.active.filter (· ≠ key) }

/-- Stop: jobs that are not begun are cancelled, and none is accepted. -/
def stop (pool : JobPool) : JobPool :=
  { active := pool.active.filter fun key => !pool.jobs.contains key
    jobs := []
    stopped := true }

/-- A change is followed by a job if it adds a task. -/
def handle (pool : JobPool) (event : ChangeEvent) : JobPool :=
  match event.kind, event.type with
  | .task, .added => pool.submit event.key
  | _, _ => pool

/-- Ask for jobs for the tasks that wait. -/
def submitPending (pool : JobPool) (tasks : List Task) : JobPool :=
  tasks.foldl
    (fun pool task => if task.status.phase = .pending then pool.submit task.key else pool) pool

end JobPool

end OneShot
