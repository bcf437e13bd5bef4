import OneShot.Queue.WorkQueue
import OneShot.Queue.Deadline

/-!
# Dispatching

A worker takes a key, makes a pass over it, settles what came of the pass with
the queue, and only then gives the key back.
-/

namespace OneShot

variable {κ τ ω : Type} [DecidableEq κ]
variable [Add τ] [Sub τ] [OfNat τ 0] [BEq τ] [LT τ] [DecidableLT τ] [LE τ] [DecidableLE τ]

/-- How workers treat the keys they take. -/
structure DispatchPolicy (τ : Type) where
  /-- Time for one pass, unbounded if none. -/
  timeout : Option τ := none
  /-- Delay after a conflict. -/
  conflictDelay : τ
  /-- Failures in a row after which a key is dropped; never if none. -/
  maxRetries : Option Nat := none

/-- What came of a pass. -/
inductive PassOutcome (τ : Type) where
  /-- The pass went through; it may ask for another one after a delay. -/
  | finished (followUp : Option τ)
  /-- The pass worked on a stale copy. -/
  | conflict
  /-- The pass failed in any other way. -/
  | failed

namespace WorkQueue

/-- Settle the outcome of a pass over a key.  Conflicts are retried without
counting a failure; other failures are counted and backed off, up to the
limit; success forgets the failures. -/
def settle [Clock ω τ] (queue : WorkQueue κ τ) (policy : DispatchPolicy τ) (key : κ)
    (outcome : PassOutcome τ) (state : ω) : WorkQueue κ τ × ω :=
  match outcome with
  | .conflict => queue.addAfter key policy.conflictDelay state
  | .failed =>
      let dropped :=
        match policy.maxRetries with
        | some limit => decide (limit ≤ queue.numRequeues key)
        | none => false
      if dropped then (queue.forget key, state) else queue.addRateLimited key state
  | .finished none => (queue.forget key, state)
  | .finished (some delay) => (queue.forget key).addAfter key delay state

/-- Whether a worker handled a key. -/
inductive Handled where
  | yes
  | no
  /-- The worker would sleep for ever. -/
  | never
  deriving DecidableEq

/-- Take one key, make a pass over it, settle the outcome, and give the key
back.  The pass may put keys on the queue. -/
def processNext [Clock ω τ] (policy : DispatchPolicy τ)
    (pass : κ → Deadline τ → WorkQueue κ τ × ω → PassOutcome τ × WorkQueue κ τ × ω)
    (timeout : Option τ) (queue : WorkQueue κ τ) (state : ω) :
    Handled × WorkQueue κ τ × ω :=
  match queue.get timeout state with
  | (.nothing, queue, state) => (.no, queue, state)
  | (.never, queue, state) => (.never, queue, state)
  | (.delivered key, queue, state) =>
      let (deadline, state) := Deadline.after policy.timeout state
      let (outcome, queue, state) := pass key deadline (queue, state)
      let (queue, state) := queue.settle policy key outcome state
      (.yes, queue.done key, state)

end WorkQueue

end OneShot
