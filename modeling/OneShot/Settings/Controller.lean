import OneShot.Settings.Environment

/-!
# Settings of the controller

The knobs of the work queue, the workers and the task runner.  They are read
from the environment one after the other and then checked together, so the
first variable that cannot be read is reported before any value is judged.
-/

namespace OneShot

open OneShot.Decimal

/-- How the controller and the task runner behave. -/
structure ControllerSettings where
  workers : Int := 1
  /-- The delay after a first failure, and the longest one, in seconds. -/
  backoffBase : Float := 1.0
  backoffLimit : Float := 300.0
  /-- The time for one pass; unbounded if none. -/
  timeout : Option Float := some 30.0
  /-- The delay after a conflict. -/
  conflictDelay : Float := 0.0
  /-- The failures in a row after which a key is dropped; never if none. -/
  maxRetries : Option Int := none
  /-- The time between listings of everything; never again if none. -/
  resync : Option Float := none
  /-- The number of times that a failing task is run. -/
  maxAttempts : Int := 3

namespace ControllerSettings

def check (settings : ControllerSettings) : Except SettingsFault ControllerSettings :=
  if settings.workers < 1 then .error (.tooFewWorkers settings.workers)
  else if settings.backoffBase ≤ 0 then .error .backoffBaseNotPositive
  else if settings.backoffLimit < settings.backoffBase then .error .backoffLimitBelowBase
  else if settings.resync.any fun period => period ≤ 0 then .error .resyncNotPositive
  else if settings.maxAttempts < 1 then .error .tooFewAttempts
  else .ok settings

/-- No time at all stands for no bound. -/
def boundOf (seconds : Float) : Option Float :=
  if seconds == 0 then none else some seconds

def ofEnvironment (env : Environment) : Except SettingsFault ControllerSettings := do
  let standard : ControllerSettings := {}
  let workers ← env.integer? "CNAT_WORKERS" (some (.whole 1))
  let base ← env.number? "CNAT_BACKOFF_BASE_SECONDS"
  let limit ← env.number? "CNAT_BACKOFF_MAX_SECONDS"
  let attempts ← env.integer? "CNAT_TASK_MAX_ATTEMPTS" (some (.whole 1))
  let timeout ← env.number? "CNAT_RECONCILE_TIMEOUT_SECONDS" (some (.real 0.0))
  let conflict ← env.number? "CNAT_CONFLICT_REQUEUE_SECONDS" (some (.real 0.0))
  let retries ← env.integer? "CNAT_MAX_RETRIES" (some (.whole 0))
  let resync ← env.number? "CNAT_RESYNC_SECONDS"
  check
    { workers := workers.getD standard.workers
      backoffBase := base.getD standard.backoffBase
      backoffLimit := limit.getD standard.backoffLimit
      timeout := (timeout.map boundOf).getD standard.timeout
      conflictDelay := conflict.getD standard.conflictDelay
      maxRetries := retries
      resync
      maxAttempts := attempts.getD standard.maxAttempts }

end ControllerSettings

end OneShot
