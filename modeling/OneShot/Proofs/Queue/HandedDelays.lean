import OneShot.Proofs.Queue.Verdicts

/-!
# Delays that are handed over

Settling the outcome of a pass asks for the key again after a delay, or not at all.  Whatever
happens to a queue, the delays of its limiter stay those by which it was set up; so the delays that
are handed over come from the settings and from the passes alone.
-/

namespace OneShot

variable {ι κ τ ω : Type} [DecidableEq ι] [DecidableEq κ]
variable [Add τ] [OfNat τ 0] [LT τ] [DecidableLT τ] [LE τ] [DecidableLE τ] [Clock ω τ]

namespace WorkQueue

/-- A key that has to come back is asked for after its delay, with nothing changed but the count of
its failures. -/
theorem settle_of_returnDelay {queue : WorkQueue κ τ} {policy : DispatchPolicy τ} {key : κ}
    {outcome : PassOutcome τ} {delay : τ}
    (hdelay : queue.returnDelay policy key outcome = some delay) (clock : ω) :
    queue.settle policy key outcome clock =
      { queue with limiter := (queue.verdict policy key outcome).enter queue.limiter key }.addAfter
        key delay clock := by
  cases outcome with
  | conflict =>
      cases hdelay
      rfl
  | finished followUp =>
      cases hdelay
      rfl
  | failed =>
      rw [returnDelay] at hdelay
      split at hdelay
      next => cases hdelay
      next hkept =>
        cases hdelay
        rw [verdict, if_neg hkept]
        exact if_neg hkept

theorem settle_of_returnDelay_none {queue : WorkQueue κ τ} {policy : DispatchPolicy τ} {key : κ}
    {outcome : PassOutcome τ} (hdelay : queue.returnDelay policy key outcome = none) (clock : ω) :
    queue.settle policy key outcome clock = (queue.forget key, clock) := by
  cases outcome with
  | conflict => cases hdelay
  | finished followUp =>
      cases hdelay
      rfl
  | failed =>
      rw [returnDelay] at hdelay
      split at hdelay
      next hdropped => exact if_pos hdropped
      next => cases hdelay

theorem apply_limiter_delay (queue : WorkQueue κ τ) (request : QueueRequest κ τ ω) (clock : ω) :
    (request.apply queue clock).1.limiter.delay = queue.limiter.delay := by
  cases request with
  | add key => exact congrArg Backoff.delay (add_limiter key)
  | addAfter key delay => exact congrArg Backoff.delay (addAfter_limiter key delay clock)
  | addRateLimited key =>
      have hlimiter : (queue.addRateLimited key clock).1.limiter = (queue.limiter.fail key).2 :=
        addAfter_limiter key (queue.limiter.fail key).1 clock
      have hdelay := congrArg Backoff.delay hlimiter
      exact hdelay
  | forget | tick => rfl
  | shutDown drain timeout =>
      simp only [QueueRequest.apply, shutDown]
      split
      next => rfl
      next => cases timeout <;> rfl

end WorkQueue

namespace History

theorem delay_of_requests (requests : List (QueueRequest κ τ ω)) (history : History κ τ ω) :
    (requests.foldl History.request history).queue.limiter.delay = history.queue.limiter.delay := by
  induction requests generalizing history with
  | nil => rfl
  | cons request rest ih =>
      exact (ih _).trans (WorkQueue.apply_limiter_delay history.queue request history.clock)

variable [Sub τ] [BEq τ]

omit [Add τ] in
theorem limiter_of_look (history : History κ τ ω) (deadline : Option τ) :
    (history.look deadline).2.queue.limiter = history.queue.limiter := by
  obtain ⟨found, hfound, htaking⟩ := WorkQueue.look_taking
    (P := fun found => found.limiter = history.queue.limiter)
    (fun _ now _ h => (WorkQueue.promote_limiter now).trans h) rfl
    (rfl : history.queue.look deadline history.clock = _)
  exact htaking.limiter.trans hfound

theorem limiter_of_get (history : History κ τ ω) (timeout : Option τ) :
    (history.get timeout).2.queue.limiter = history.queue.limiter := by
  obtain ⟨found, hfound, htaking⟩ := WorkQueue.get_taking
    (P := fun found => found.limiter = history.queue.limiter)
    (fun _ now _ h => (WorkQueue.promote_limiter now).trans h) rfl
    (rfl : history.queue.get timeout history.clock = _)
  exact htaking.limiter.trans hfound

end History

namespace Crew

variable [Sub τ] [BEq τ] {policy : DispatchPolicy τ} {crew next : Crew ι κ τ ω}
  {limiter : Backoff κ τ} {clock : ω} {moves : List (CrewMove ι κ τ ω)}

theorem delay_of_step {move : CrewMove ι κ τ ω} (hstep : crew.step? policy move = some next) :
    next.history.queue.limiter.delay = crew.history.queue.limiter.delay := by
  cases move with
  | request request =>
      cases hstep
      exact WorkQueue.apply_limiter_delay crew.history.queue request crew.history.clock
  | look worker deadline =>
      simp only [step?] at hstep
      split at hstep
      next => cases hstep
      next =>
        cases hstep
        exact congrArg Backoff.delay (crew.history.limiter_of_look deadline)
  | get worker timeout =>
      simp only [step?] at hstep
      split at hstep
      next => cases hstep
      next =>
        cases hstep
        exact congrArg Backoff.delay (crew.history.limiter_of_get timeout)
  | settle worker outcome =>
      obtain ⟨key, -, rfl⟩ := Option.map_eq_some_iff.mp hstep
      exact History.delay_of_requests _ crew.history
  | giveBack worker =>
      obtain ⟨key, -, rfl⟩ := Option.map_eq_some_iff.mp hstep
      rfl

/-- The delays of the limiter are always those of the start. -/
theorem limiter_delay_of_play
    (hplay : play (step? policy) (start limiter clock) moves = some crew) :
    crew.history.queue.limiter.delay = limiter.delay :=
  play_keeps (P := fun crew => crew.history.queue.limiter.delay = limiter.delay)
    (fun _ _ _ hbefore hstep => (delay_of_step hstep).trans hbefore) rfl hplay

end Crew

end OneShot
