import OneShot.Proofs.Queue.Delays
import OneShot.Proofs.Queue.Exclusion
import OneShot.Proofs.Queue.Settling

/-!
# Verdicts on passes

What comes of a pass over a key is settled by a verdict: the key succeeded, ran
into a conflict, failed, or failed once too often and was dropped.  The verdict
decides what becomes of the count of failures that the queue has of the key,
and the outcome of the pass decides after how long the key has to come back.
-/

namespace OneShot

variable {κ τ ω : Type} [DecidableEq κ]

/-! ## Verdicts -/

/-- How a pass over a key was settled. -/
inductive Verdict where
  | succeeded
  | conflicted
  | failed
  /-- The pass failed once too often. -/
  | dropped
  deriving DecidableEq

/-- Whether a verdict puts an end to a row of failures. -/
def Verdict.closes : Verdict → Bool
  | succeeded | dropped => true
  | conflicted | failed => false

/-- The count of failures after a verdict. -/
def Verdict.count : Verdict → Nat → Nat
  | succeeded, _ | dropped, _ => 0
  | conflicted, earlier => earlier
  | failed, earlier => earlier + 1

/-- The failures of a key since it last succeeded or was dropped. -/
def streak (key : κ) (verdicts : List (κ × Verdict)) : Nat :=
  ((verdicts.filter fun entry => entry.1 = key).takeWhile fun entry => !entry.2.closes).countP
    fun entry => entry.2 = .failed

@[simp] theorem streak_nil (key : κ) : streak key [] = 0 := rfl

theorem streak_cons (other key : κ) (verdict : Verdict) (verdicts : List (κ × Verdict)) :
    streak other ((key, verdict) :: verdicts) =
      if other = key then verdict.count (streak key verdicts) else streak other verdicts := by
  by_cases hsame : other = key
  · subst hsame
    cases verdict <;> simp [streak, Verdict.count, Verdict.closes]
  · simp [streak, hsame, Ne.symm hsame]

/-- What a verdict on a key does to the counts of failures. -/
def Verdict.enter [Add τ] [LT τ] [DecidableLT τ] (limiter : Backoff κ τ) (key : κ) :
    Verdict → Backoff κ τ
  | succeeded | dropped => limiter.forget key
  | conflicted => limiter
  | failed => (limiter.fail key).2

section Limiters

variable [Add τ] [LT τ] [DecidableLT τ] (limiter : Backoff κ τ) (key other : κ)

theorem Verdict.count_enter (verdict : Verdict) :
    (verdict.enter limiter key).count other =
      if other = key then verdict.count (limiter.count key) else limiter.count other := by
  cases verdict with
  | succeeded => exact limiter.count_forget key other
  | dropped => exact limiter.count_forget key other
  | conflicted =>
      simp only [enter, count]
      split
      next hsame => rw [hsame]
      next => rfl
  | failed => exact limiter.count_fail key other

theorem Verdict.delay_enter (verdict : Verdict) :
    (verdict.enter limiter key).delay = limiter.delay := by
  cases verdict <;> rfl

end Limiters

/-! ## What becomes of counts and keys -/

namespace WorkQueue

section Limiters

variable {queue after : WorkQueue κ τ} (key : κ)

@[simp] theorem markDirty_limiter : (queue.markDirty key).limiter = queue.limiter := by
  unfold markDirty
  split <;> rfl

@[simp] theorem add_limiter : (queue.add key).limiter = queue.limiter := by
  unfold add
  split
  next => rfl
  next => simp

theorem Taking.limiter {taken : Option κ} (htaking : queue.Taking taken after) :
    after.limiter = queue.limiter := by
  cases htaking with
  | nothing => rfl
  | delivered hdeliver =>
      obtain ⟨rest, -, rfl⟩ := deliver?_eq_some hdeliver
      rfl

theorem Taking.shuttingDown {taken : Option κ} (htaking : queue.Taking taken after) :
    after.shuttingDown = queue.shuttingDown := by
  cases htaking with
  | nothing => rfl
  | delivered hdeliver => exact shuttingDown_of_deliver? hdeliver

@[simp] theorem keep_limiter [BEq τ] (entry : Appointment κ τ) :
    (queue.keep entry).limiter = queue.limiter := by
  unfold keep
  split
  next =>
    split
    next =>
      simp only
      split <;> simp
    next => rfl
  next => rfl

variable [LE τ] [DecidableLE τ]

@[simp] theorem promote_limiter [BEq τ] (now : τ) :
    (queue.promote now).limiter = queue.limiter :=
  promoteFrom_keeps (P := fun after => after.limiter = queue.limiter)
    (fun _ entry h => (keep_limiter entry).trans h) (fun _ _ h => h) now _ rfl

variable [LT τ] [DecidableLT τ]

@[simp] theorem appoint_limiter (moment : τ) :
    (queue.appoint key moment).limiter = queue.limiter := by
  rcases appoint_cases key moment queue with ⟨-, -, -, h⟩ | ⟨-, h⟩ <;> rw [h]

variable [Add τ] [OfNat τ 0] [Clock ω τ]

@[simp] theorem addAfter_limiter (delay : τ) (clock : ω) :
    (queue.addAfter key delay clock).1.limiter = queue.limiter := by
  rcases addAfter_cases queue key delay clock with ⟨-, h⟩ | ⟨-, h⟩ | ⟨-, -, h⟩
  · rw [h, add_limiter]
  · rw [h]
  · rw [h, appoint_limiter]

end Limiters

/-- The verdict by which the outcome of a pass is settled. -/
def verdict (queue : WorkQueue κ τ) (policy : DispatchPolicy τ) (key : κ) :
    PassOutcome τ → Verdict
  | .finished _ => .succeeded
  | .conflict => .conflicted
  | .failed => if queue.drops policy key then .dropped else .failed

/-- The delay after which an outcome calls for another pass, if it does. -/
def returnDelay [Add τ] [LT τ] [DecidableLT τ] (queue : WorkQueue κ τ)
    (policy : DispatchPolicy τ) (key : κ) : PassOutcome τ → Option τ
  | .finished followUp => followUp
  | .conflict => some policy.conflictDelay
  | .failed =>
      if queue.drops policy key then none else some (queue.limiter.delay (queue.numRequeues key))

section Settling

variable [Clock ω ℚ] (queue : WorkQueue κ ℚ) (policy : DispatchPolicy ℚ) (key : κ)

theorem settle_failed (clock : ω) :
    queue.settle policy key .failed clock =
      if queue.drops policy key then (queue.forget key, clock)
      else queue.addRateLimited key clock := rfl

theorem settle_limiter (outcome : PassOutcome ℚ) (clock : ω) :
    (queue.settle policy key outcome clock).1.limiter =
      (queue.verdict policy key outcome).enter queue.limiter key := by
  cases outcome with
  | conflict => exact addAfter_limiter key policy.conflictDelay clock
  | failed =>
      rw [settle_failed, verdict]
      cases queue.drops policy key with
      | true => rfl
      | false => exact addAfter_limiter key (queue.limiter.fail key).1 clock
  | finished followUp =>
      cases followUp with
      | none => rfl
      | some delay => exact addAfter_limiter key delay clock

theorem numRequeues_settle (outcome : PassOutcome ℚ) (clock : ω) (other : κ) :
    (queue.settle policy key outcome clock).1.numRequeues other =
      if other = key then (queue.verdict policy key outcome).count (queue.numRequeues key)
      else queue.numRequeues other := by
  rw [numRequeues, settle_limiter, Verdict.count_enter]
  rfl

variable {queue}

theorem addAfter_pledged (hopen : queue.shuttingDown = false) (delay : ℚ) (clock : ω) :
    (queue.addAfter key delay clock).1.Pledged (· ≤ (Clock.read clock).1 + delay) key := by
  rcases addAfter_cases queue key delay clock with ⟨-, h⟩ | ⟨hshut, -⟩ | ⟨-, -, h⟩
  · rw [h]
    exact Or.inl (mem_dirty_add hopen key)
  · rw [hopen] at hshut
    cases hshut
  · rw [h]
    exact appoint_pledged queue key le_rfl fun _ hle => hle

/-- A key whose outcome calls for another pass is pledged to come back in time. -/
theorem settle_pledged (hopen : queue.shuttingDown = false) {outcome : PassOutcome ℚ} {delay : ℚ}
    (hdelay : queue.returnDelay policy key outcome = some delay) (clock : ω) :
    (queue.settle policy key outcome clock).1.Pledged (· ≤ (Clock.read clock).1 + delay) key := by
  cases outcome with
  | conflict =>
      cases hdelay
      exact addAfter_pledged key hopen policy.conflictDelay clock
  | failed =>
      rw [returnDelay] at hdelay
      rw [settle_failed]
      split at hdelay
      next => cases hdelay
      next hkept =>
        cases hdelay
        rw [if_neg hkept]
        have hsame : ({ queue with limiter := (queue.limiter.fail key).2 } :
            WorkQueue κ ℚ).shuttingDown = false := hopen
        exact addAfter_pledged key hsame (queue.limiter.fail key).1 clock
  | finished followUp =>
      cases hdelay
      have hsame : (queue.forget key).shuttingDown = false := hopen
      exact addAfter_pledged key hsame delay clock

theorem settle_shuttingDown (outcome : PassOutcome ℚ) (clock : ω) :
    (queue.settle policy key outcome clock).1.shuttingDown = queue.shuttingDown :=
  (settle_keeps key clock queue policy outcome).shuttingDown

/-- A failure is one too many if the failures before it are as many as there may
be. -/
theorem drops_iff (hlimit : ∀ limit, policy.maxRetries = some limit →
      queue.numRequeues key ≤ limit) :
    queue.drops policy key = true ↔ policy.maxRetries = some (queue.numRequeues key) := by
  unfold drops
  cases hretries : policy.maxRetries with
  | none => simp
  | some limit =>
      have hle := hlimit limit hretries
      simp only [decide_eq_true_eq, Option.some.injEq]
      omega

end Settling

end WorkQueue

namespace History

variable [Add τ] [OfNat τ 0] [LT τ] [DecidableLT τ] [LE τ] [DecidableLE τ] [Clock ω τ]

/-- Requests in a row, on the queue and its clock. -/
theorem foldl_request (requests : List (QueueRequest κ τ ω)) (history : History κ τ ω) :
    ((requests.foldl History.request history).queue,
        (requests.foldl History.request history).clock) =
      requests.foldl (fun after request => request.apply after.1 after.2)
        (history.queue, history.clock) := by
  induction requests generalizing history with
  | nil => rfl
  | cons request rest ih => exact ih (history.request request)

end History

end OneShot
