import OneShot.Proofs.Queue.Consistency
import OneShot.Proofs.Runs

/-!
# Histories of the work queue

Any number of callers use one queue.  Each of its sections under the lock is
one operation, and the clock moves between them as it likes.  A history keeps
the queue, its clock, and two notes that the queue itself does not have: which
keys were asked for, and which were handed out.
-/

namespace OneShot

/-- A clock that only moves by hand and by sleeping. -/
structure HandClock (τ : Type) where
  present : τ
  deriving Repr, DecidableEq

instance {τ : Type} [Add τ] : Clock (HandClock τ) τ where
  read clock := (clock.present, clock)
  sleep duration clock := ⟨(duration.map (clock.present + ·)).getD clock.present⟩
  ownMoves _ := 0

variable {κ τ ω : Type} [DecidableEq κ]

/-- What callers do with a queue apart from taking keys and giving them back. -/
inductive QueueRequest (κ τ ω : Type) where
  | add (key : κ)
  | addAfter (key : κ) (delay : τ)
  | addRateLimited (key : κ)
  | forget (key : κ)
  | shutDown (drain : Bool) (timeout : Option τ)
  /-- The clock moves. -/
  | tick (clock : ω)

/-- What happens to a queue. -/
inductive Operation (κ τ ω : Type) where
  | request (request : QueueRequest κ τ ω)
  /-- One look of a worker that is inside `get`; it may then sleep, and others
  move before it looks again. -/
  | look (deadline : Option τ)
  /-- A whole `get` during whose sleeps nobody else moves. -/
  | get (timeout : Option τ)
  | done (key : κ)

/-- A queue with its clock and the notes on it, the latest first. -/
structure History (κ τ ω : Type) where
  queue : WorkQueue κ τ
  clock : ω
  asked : List κ := []
  handed : List κ := []

namespace QueueRequest

def key? : QueueRequest κ τ ω → Option κ
  | add key | addAfter key _ | addRateLimited key => some key
  | forget _ | shutDown _ _ | tick _ => none

section Carrying

variable [Add τ] [OfNat τ 0] [LT τ] [DecidableLT τ] [LE τ] [DecidableLE τ] [Clock ω τ]

def apply (queue : WorkQueue κ τ) (clock : ω) : QueueRequest κ τ ω → WorkQueue κ τ × ω
  | add key => (queue.add key, clock)
  | addAfter key delay => queue.addAfter key delay clock
  | addRateLimited key => queue.addRateLimited key clock
  | forget key => (queue.forget key, clock)
  | shutDown drain timeout => (queue.shutDown drain timeout clock).2
  | tick later => (queue, later)

end Carrying

end QueueRequest

namespace WorkQueue

section Delays

variable [Add τ] [OfNat τ 0] [LT τ] [DecidableLT τ] [LE τ] [DecidableLE τ] [Clock ω τ]

theorem addAfter_cases (queue : WorkQueue κ τ) (key : κ) (delay : τ) (clock : ω) :
    (delay ≤ 0 ∧ (queue.addAfter key delay clock).1 = queue.add key) ∨
      (queue.shuttingDown = true ∧ (queue.addAfter key delay clock).1 = queue) ∨
      (¬ delay ≤ 0 ∧ queue.shuttingDown = false ∧
        (queue.addAfter key delay clock).1 =
          queue.appoint key ((Clock.read clock).1 + delay)) := by
  unfold addAfter
  by_cases hnow : delay ≤ 0
  · exact Or.inl ⟨hnow, by simp [hnow]⟩
  · by_cases hshut : queue.shuttingDown = true
    · exact Or.inr (Or.inl ⟨hshut, by simp [hnow, hshut]⟩)
    · exact Or.inr (Or.inr ⟨hnow, by simpa using hshut, by simp [hnow, hshut]⟩)

/-- All that a request can do to the queue: at most one key is added or
appointed, and nothing else happens to the lists of keys. -/
theorem apply_cases (queue : WorkQueue κ τ) (clock : ω) (request : QueueRequest κ τ ω) :
    ∃ limiter,
      (∃ shut, (queue.shuttingDown = true → shut = true) ∧
          (request.apply queue clock).1 = { queue with limiter, shuttingDown := shut }) ∨
        (∃ key, request.key? = some key ∧
          (request.apply queue clock).1 = ({ queue with limiter } : WorkQueue κ τ).add key) ∨
        (∃ key moment, request.key? = some key ∧ queue.shuttingDown = false ∧
          (request.apply queue clock).1 =
            ({ queue with limiter } : WorkQueue κ τ).appoint key moment) := by
  cases request with
  | add key => exact ⟨queue.limiter, Or.inr (Or.inl ⟨key, rfl, rfl⟩)⟩
  | addAfter key delay =>
      refine ⟨queue.limiter, ?_⟩
      rcases addAfter_cases queue key delay clock with ⟨-, h⟩ | ⟨hshut, h⟩ | ⟨-, hopen, h⟩
      · exact Or.inr (Or.inl ⟨key, rfl, h⟩)
      · exact Or.inl ⟨queue.shuttingDown, id, h⟩
      · exact Or.inr (Or.inr ⟨key, _, rfl, hopen, h⟩)
  | addRateLimited key =>
      refine ⟨(queue.limiter.fail key).2, ?_⟩
      rcases addAfter_cases { queue with limiter := (queue.limiter.fail key).2 } key
        (queue.limiter.fail key).1 clock with ⟨-, h⟩ | ⟨hshut, h⟩ | ⟨-, hopen, h⟩
      · exact Or.inr (Or.inl ⟨key, rfl, h⟩)
      · exact Or.inl ⟨queue.shuttingDown, id, h⟩
      · exact Or.inr (Or.inr ⟨key, _, rfl, hopen, h⟩)
  | forget key => exact ⟨queue.limiter.forget key, Or.inl ⟨queue.shuttingDown, id, rfl⟩⟩
  | shutDown drain timeout =>
      refine ⟨queue.limiter, Or.inl ⟨true, fun _ => rfl, ?_⟩⟩
      simp only [QueueRequest.apply, shutDown]
      split
      next => rfl
      next => cases timeout <;> rfl
  | tick later => exact ⟨queue.limiter, Or.inl ⟨queue.shuttingDown, id, rfl⟩⟩

variable {queue : WorkQueue κ τ} (clock : ω) (request : QueueRequest κ τ ω)

@[simp] theorem apply_inFlight : (request.apply queue clock).1.inFlight = queue.inFlight := by
  obtain ⟨limiter, ⟨shut, -, h⟩ | ⟨key, -, h⟩ | ⟨key, moment, -, -, h⟩⟩ :=
    apply_cases queue clock request
  · rw [h]
  · rw [h, add_inFlight]
  · rw [h, appoint_inFlight]

theorem Consistent.afterRequest (hgood : queue.Consistent) :
    (request.apply queue clock).1.Consistent := by
  obtain ⟨limiter, ⟨shut, -, h⟩ | ⟨key, -, h⟩ | ⟨key, moment, -, -, h⟩⟩ :=
    apply_cases queue clock request
  all_goals
    have hsame : ({ queue with limiter } : WorkQueue κ τ).Consistent := hgood.of_eq rfl rfl rfl
  · rw [h]
    exact hgood.of_eq rfl rfl rfl
  · rw [h]
    exact hsame.afterAdd key
  · rw [h]
    exact hsame.afterAppoint key moment

/-- A request raises the account of the key that it asks for by one at most,
and no other account. -/
theorem owed_apply_le (queue : WorkQueue κ τ) (clock : ω) (request : QueueRequest κ τ ω) (key : κ) :
    (request.apply queue clock).1.owed key ≤
      queue.owed key + request.key?.toList.count key := by
  obtain ⟨limiter, ⟨shut, -, h⟩ | ⟨asked, hasked, h⟩ | ⟨asked, moment, hasked, -, h⟩⟩ :=
    apply_cases queue clock request
  · have hsame : (request.apply queue clock).1.owed key = queue.owed key := by
      rw [h]; exact owed_of_eq rfl rfl key
    omega
  · have hsame : ({ queue with limiter } : WorkQueue κ τ).owed key = queue.owed key :=
      owed_of_eq rfl rfl key
    rw [h, hasked, count_toList_some, ← hsame]
    exact owed_add_le asked key
  · have hsame : ({ queue with limiter } : WorkQueue κ τ).owed key = queue.owed key :=
      owed_of_eq rfl rfl key
    rw [h, hasked, count_toList_some, ← hsame]
    exact owed_appoint_le asked key moment

end Delays

end WorkQueue

namespace History

/-- The history of a queue that nobody has used. -/
def start (limiter : Backoff κ τ) (clock : ω) : History κ τ ω :=
  { queue := { limiter }, clock }

/-- Note the key that was handed out, if one was. -/
def hand (history : History κ τ ω) (taken : Option κ) (after : WorkQueue κ τ × ω) :
    History κ τ ω :=
  { history with
    queue := after.1
    clock := after.2
    handed := taken.toList ++ history.handed }

def giveBack (history : History κ τ ω) (key : κ) : History κ τ ω :=
  { history with queue := history.queue.done key }

/-- The queue is consistent, and no key was handed out more often than it was
asked for; what is still owed is kept back for the deliveries to come. -/
structure Sound (history : History κ τ ω) : Prop where
  consistent : history.queue.Consistent
  paid : ∀ key, history.handed.count key + history.queue.owed key ≤ history.asked.count key

theorem start_sound (limiter : Backoff κ τ) (clock : ω) : (start limiter clock).Sound :=
  ⟨WorkQueue.consistent_empty limiter, fun key => by
    simp [start, WorkQueue.owed_empty limiter key]⟩

theorem Sound.afterHand {history : History κ τ ω} (hsound : history.Sound)
    {found after : WorkQueue κ τ} {taken : Option κ} {clock : ω}
    (hfound : found.Consistent) (howed : ∀ key, found.owed key ≤ history.queue.owed key)
    (htaking : found.Taking taken after) : (history.hand taken (after, clock)).Sound := by
  refine ⟨htaking.consistent hfound, fun key => ?_⟩
  have hpaid := hsound.paid key
  have hbefore := howed key
  have hafter := htaking.owed hfound key
  simp only [hand, List.count_append]
  omega

theorem Sound.afterGiveBack {history : History κ τ ω} (hsound : history.Sound) {key : κ}
    (hflying : key ∈ history.queue.inFlight) : (history.giveBack key).Sound :=
  ⟨hsound.consistent.afterDone hflying, hsound.paid⟩

/-- What a promotion keeps for the taking that follows it. -/
structure Ready (history : History κ τ ω) (found : WorkQueue κ τ) : Prop where
  consistent : found.Consistent
  owed_le : ∀ key, found.owed key ≤ history.queue.owed key
  inFlight : found.inFlight = history.queue.inFlight

theorem Sound.ready {history : History κ τ ω} (hsound : history.Sound) :
    history.Ready history.queue :=
  ⟨hsound.consistent, fun _ => le_rfl, rfl⟩

section Promotions

variable [BEq τ] [LE τ] [DecidableLE τ]

theorem Ready.afterPromote {history : History κ τ ω} {queue : WorkQueue κ τ}
    (h : history.Ready queue) (now : τ) : history.Ready (queue.promote now) :=
  ⟨h.consistent.afterPromote now,
    fun key => (WorkQueue.owed_promote_le key now).trans (h.owed_le key),
    (WorkQueue.promote_inFlight now).trans h.inFlight⟩

end Promotions

section Requests

variable [Add τ] [OfNat τ 0] [LT τ] [DecidableLT τ] [LE τ] [DecidableLE τ] [Clock ω τ]

/-- Carry out a request and note the key that it asks for. -/
def request (history : History κ τ ω) (request : QueueRequest κ τ ω) : History κ τ ω :=
  let after := request.apply history.queue history.clock
  { history with
    queue := after.1
    clock := after.2
    asked := request.key?.toList ++ history.asked }

theorem Sound.afterRequest {history : History κ τ ω} (hsound : history.Sound)
    (request : QueueRequest κ τ ω) : (history.request request).Sound := by
  refine ⟨hsound.consistent.afterRequest history.clock request, fun key => ?_⟩
  have howed := WorkQueue.owed_apply_le history.queue history.clock request key
  have hpaid := hsound.paid key
  simp only [History.request, List.count_append]
  omega

end Requests

section Steps

variable [Sub τ] [OfNat τ 0] [BEq τ] [LT τ] [DecidableLT τ] [LE τ] [DecidableLE τ]
variable [Clock ω τ]

/-- A worker looks for a key: the key, and what follows. -/
def look (history : History κ τ ω) (deadline : Option τ) : Option κ × History κ τ ω :=
  let (finding, after) := history.queue.look deadline history.clock
  (finding.key?, history.hand finding.key? after)

theorem Sound.look_taking {history : History κ τ ω} (hsound : history.Sound)
    (deadline : Option τ) :
    ∃ found, history.Ready found ∧
      found.Taking (history.look deadline).1 (history.look deadline).2.queue :=
  WorkQueue.look_taking (fun _ now _ h => h.afterPromote now) hsound.ready
    (rfl : history.queue.look deadline history.clock = _)

theorem Sound.afterLook {history : History κ τ ω} (hsound : history.Sound)
    (deadline : Option τ) : (history.look deadline).2.Sound := by
  obtain ⟨found, hready, htaking⟩ := hsound.look_taking deadline
  exact hsound.afterHand hready.consistent hready.owed_le htaking

variable [Add τ]

/-- A worker gets a key: the key, and what follows. -/
def get (history : History κ τ ω) (timeout : Option τ) : Option κ × History κ τ ω :=
  let (receipt, after) := history.queue.get timeout history.clock
  (receipt.key?, history.hand receipt.key? after)

/-- What follows an operation.  Only a key in flight can be done. -/
def step? (history : History κ τ ω) : Operation κ τ ω → Option (History κ τ ω)
  | .request request => some (history.request request)
  | .look deadline => some (history.look deadline).2
  | .get timeout => some (history.get timeout).2
  | .done key => if key ∈ history.queue.inFlight then some (history.giveBack key) else none

theorem Sound.get_taking {history : History κ τ ω} (hsound : history.Sound)
    (timeout : Option τ) :
    ∃ found, history.Ready found ∧
      found.Taking (history.get timeout).1 (history.get timeout).2.queue :=
  WorkQueue.get_taking (fun _ now _ h => h.afterPromote now) hsound.ready
    (rfl : history.queue.get timeout history.clock = _)

theorem Sound.afterGet {history : History κ τ ω} (hsound : history.Sound)
    (timeout : Option τ) : (history.get timeout).2.Sound := by
  obtain ⟨found, hready, htaking⟩ := hsound.get_taking timeout
  exact hsound.afterHand hready.consistent hready.owed_le htaking

theorem Sound.afterStep {history next : History κ τ ω} (hsound : history.Sound)
    (operation : Operation κ τ ω) (hstep : history.step? operation = some next) :
    next.Sound := by
  cases operation with
  | request request =>
      cases hstep
      exact hsound.afterRequest request
  | look deadline =>
      cases hstep
      exact hsound.afterLook deadline
  | get timeout =>
      cases hstep
      exact hsound.afterGet timeout
  | done key =>
      simp only [step?] at hstep
      split at hstep
      next hflying =>
        cases hstep
        exact hsound.afterGiveBack hflying
      next => cases hstep

theorem play_sound {limiter : Backoff κ τ} {clock : ω} {operations : List (Operation κ τ ω)}
    {history : History κ τ ω}
    (hplay : play step? (start limiter clock) operations = some history) : history.Sound :=
  play_keeps (fun _ operation _ h hstep => h.afterStep operation hstep)
    (start_sound limiter clock) hplay

end Steps

end History

end OneShot
