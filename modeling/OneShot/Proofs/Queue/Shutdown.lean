import OneShot.Proofs.Queue.History

/-!
# Shutting down

A shutdown is final: from then on nobody is given a key, and nothing that is asked for is taken
on.  The keys in flight are still given back, and what is dirty, waiting or on the agenda stays
where it is.  A shutdown that waits for the keys in flight looks for them when it begins and each
time it is woken; in between, others move.  It succeeds only when all that was handed out has been
given back.
-/

namespace OneShot

variable {ι κ τ ω : Type} [DecidableEq κ]

/-! ## What can still happen -/

namespace WorkQueue

def isDrained (queue : WorkQueue κ τ) : Bool :=
  queue.inFlight.isEmpty

section Shut

variable [Add τ] [OfNat τ 0] [LT τ] [DecidableLT τ] [LE τ] [DecidableLE τ] [Clock ω τ]
variable {queue : WorkQueue κ τ}

/-- A request to a queue that shuts down counts failures at most. -/
theorem apply_of_shut (hshut : queue.shuttingDown = true) (clock : ω)
    (request : QueueRequest κ τ ω) :
    ∃ limiter, (request.apply queue clock).1 = { queue with limiter } := by
  obtain ⟨limiter, ⟨shut, hstays, h⟩ | ⟨key, -, h⟩ | ⟨_, _, -, hopen, -⟩⟩ :=
    apply_cases queue clock request
  · refine ⟨limiter, ?_⟩
    rw [h, hstays hshut, ← hshut]
  · refine ⟨limiter, ?_⟩
    rw [h, add, if_pos hshut]
  · rw [hshut] at hopen
    cases hopen

omit [DecidableEq κ] [Add τ] [OfNat τ 0] [LT τ] [DecidableLT τ] [LE τ] [DecidableLE τ] in
theorem shutDown_queue (queue : WorkQueue κ τ) (drain : Bool) (timeout : Option τ) (clock : ω) :
    (queue.shutDown drain timeout clock).2.1 = { queue with shuttingDown := true } := by
  cases timeout with
  | none =>
      simp only [shutDown]
      split <;> rfl
  | some duration =>
      simp only [shutDown]
      split <;> rfl

omit [DecidableEq κ] [Add τ] [OfNat τ 0] [LT τ] [DecidableLT τ] [LE τ] [DecidableLE τ] in
/-- With nobody else about, a shutdown that waits succeeds only at once. -/
theorem shutDown_yes_iff (queue : WorkQueue κ τ) (timeout : Option τ) (clock : ω) :
    (queue.shutDown true timeout clock).1 = .yes ↔ queue.isDrained = true := by
  by_cases hflying : queue.inFlight = []
  · simp [shutDown, isDrained, hflying]
  · cases timeout with
    | none => simp [shutDown, isDrained, hflying]
    | some duration => simp [shutDown, isDrained, hflying]

variable [Sub τ] [BEq τ]

omit [Add τ] in
theorem look_of_shut (hshut : queue.shuttingDown = true) (deadline : Option τ) (clock : ω) :
    queue.look deadline clock = (.nothing, queue, clock) := by
  rw [look, if_pos hshut]

theorem get_of_shut (hshut : queue.shuttingDown = true) (timeout : Option τ) (clock : ω) :
    ∃ later, queue.get timeout clock = (.nothing, queue, later) := by
  have hfirst : ∀ deadline turns (later : ω),
      getWithin deadline (turns + 1) queue later = (.nothing, queue, later) := by
    intro deadline turns later
    rw [getWithin, look_of_shut hshut]
  cases timeout with
  | none => exact ⟨clock, hfirst none _ clock⟩
  | some duration => exact ⟨(Clock.read clock).2, hfirst (some _) _ _⟩

end Shut

end WorkQueue

namespace History

section Steps

variable [Add τ] [Sub τ] [OfNat τ 0] [BEq τ] [LT τ] [DecidableLT τ] [LE τ] [DecidableLE τ]
variable [Clock ω τ]

/-- All that an operation can do once the queue shuts down: leave everything but the count of
failures, the clock and the notes of what was asked for, or give a key back. -/
theorem step?_of_shut {history next : History κ τ ω} {operation : Operation κ τ ω}
    (hshut : history.queue.shuttingDown = true)
    (hstep : history.step? operation = some next) :
    (∃ limiter clock asked,
        next = { history with queue := { history.queue with limiter }, clock, asked }) ∨
      ∃ key ∈ history.queue.inFlight, next = history.giveBack key := by
  cases operation with
  | request request =>
      cases hstep
      obtain ⟨limiter, hqueue⟩ := WorkQueue.apply_of_shut hshut history.clock request
      refine Or.inl ⟨limiter, (request.apply history.queue history.clock).2,
        request.key?.toList ++ history.asked, ?_⟩
      rw [History.request, hqueue]
  | look deadline =>
      cases hstep
      refine Or.inl ⟨history.queue.limiter, history.clock, history.asked, ?_⟩
      rw [look, WorkQueue.look_of_shut hshut]
      rfl
  | get timeout =>
      cases hstep
      obtain ⟨later, hget⟩ := WorkQueue.get_of_shut hshut timeout history.clock
      refine Or.inl ⟨history.queue.limiter, later, history.asked, ?_⟩
      rw [get, hget]
      rfl
  | done key =>
      simp only [step?] at hstep
      split at hstep
      next hflying =>
        cases hstep
        exact Or.inr ⟨key, hflying, rfl⟩
      next => cases hstep

end Steps

/-- What has become of a queue that shuts down: nothing was handed out or taken on since, and no
key was lost track of. -/
structure WindsDown (before after : History κ τ ω) : Prop where
  shuttingDown : after.queue.shuttingDown = true
  inFlight : after.queue.inFlight ⊆ before.queue.inFlight
  dirty : after.queue.dirty = before.queue.dirty
  ready : before.queue.ready <+: after.queue.ready
  waiting : after.queue.waiting = before.queue.waiting
  agenda : after.queue.agenda = before.queue.agenda
  handed : after.handed = before.handed

omit [DecidableEq κ] in
theorem windsDown_refl {history : History κ τ ω} (hshut : history.queue.shuttingDown = true) :
    history.WindsDown history :=
  ⟨hshut, List.Subset.refl _, rfl, List.prefix_rfl, rfl, rfl, rfl⟩

theorem WindsDown.afterGiveBack {before history : History κ τ ω}
    (h : before.WindsDown history) (key : κ) : before.WindsDown (history.giveBack key) where
  shuttingDown := h.shuttingDown
  inFlight := List.Subset.trans List.erase_subset h.inFlight
  dirty := h.dirty
  ready := by
    refine h.ready.trans ?_
    simp only [giveBack, WorkQueue.done]
    split
    · exact List.prefix_append _ _
    · exact List.prefix_rfl
  waiting := h.waiting
  agenda := h.agenda
  handed := h.handed

theorem WindsDown.afterStep [Add τ] [Sub τ] [OfNat τ 0] [BEq τ] [LT τ] [DecidableLT τ] [LE τ]
    [DecidableLE τ] [Clock ω τ] {before history next : History κ τ ω}
    (h : before.WindsDown history) (operation : Operation κ τ ω)
    (hstep : history.step? operation = some next) : before.WindsDown next := by
  rcases step?_of_shut h.shuttingDown hstep with ⟨limiter, clock, asked, rfl⟩ | ⟨key, -, rfl⟩
  · exact ⟨h.shuttingDown, h.inFlight, h.dirty, h.ready, h.waiting, h.agenda, h.handed⟩
  · exact h.afterGiveBack key

end History

/-! ## Shutdowns that wait -/

/-- Where a caller is in a shutdown that waits for the keys in flight. -/
inductive DrainStage where
  | away
  | asleep
  | ended (success : Bool)
  deriving DecidableEq

/-- What a caller goes on to when it has looked for keys in flight: it is over if there are none,
or if no time is left to it. -/
def WorkQueue.drainStage (queue : WorkQueue κ τ) (late : Bool) : DrainStage :=
  if queue.isDrained then .ended true
  else if late then .ended false
  else .asleep

omit [DecidableEq κ] in
theorem WorkQueue.drainStage_eq_ended_iff {queue : WorkQueue κ τ} {late : Bool} :
    queue.drainStage late = .ended true ↔ queue.isDrained = true := by
  unfold drainStage
  cases queue.isDrained with
  | true => simp
  | false => cases late <;> simp

/-- A queue with callers that shut it down, and a note of the keys that were given back. -/
structure Closing (ι κ τ ω : Type) where
  history : History κ τ ω
  returned : List κ := []
  drains : ι → DrainStage := fun _ => .away

inductive ClosingMove (ι κ τ ω : Type) where
  | operate (operation : Operation κ τ ω)
  /-- A caller shuts the queue down, and will wait. -/
  | close (caller : ι)
  /-- A caller that waits is woken, for whatever reason. -/
  | wake (caller : ι) (late : Bool)

def ClosingMove.caller? : ClosingMove ι κ τ ω → Option ι
  | .operate _ => none
  | .close caller | .wake caller _ => some caller

def Operation.returned : Operation κ τ ω → List κ
  | .done key => [key]
  | .request _ | .look _ | .get _ => []

namespace Closing

def start (limiter : Backoff κ τ) (clock : ω) : Closing ι κ τ ω :=
  { history := .start limiter clock }

/-- The keys in flight are those that were handed out and not yet given back. -/
structure Balanced (closing : Closing ι κ τ ω) : Prop where
  sound : closing.history.Sound
  balance : ∀ key, closing.history.handed.count key =
    closing.returned.count key + if key ∈ closing.history.queue.inFlight then 1 else 0

theorem start_balanced (limiter : Backoff κ τ) (clock : ω) :
    (start limiter clock : Closing ι κ τ ω).Balanced :=
  ⟨History.start_sound limiter clock, fun key => by simp [start, History.start]⟩

theorem Balanced.afterTaking {closing : Closing ι κ τ ω} (hgood : closing.Balanced)
    {found : WorkQueue κ τ} {taken : Option κ} {after : WorkQueue κ τ × ω}
    (hready : closing.history.Ready found) (htaking : found.Taking taken after.1)
    (hsound : (closing.history.hand taken after).Sound) :
    Balanced { closing with history := closing.history.hand taken after } := by
  refine ⟨hsound, fun key => ?_⟩
  have hbalance := hgood.balance key
  have hflying := htaking.mem_inFlight key
  simp only [History.hand, List.count_append, hbalance, hflying, hready.inFlight]
  cases taken with
  | none => simp
  | some other =>
      rw [WorkQueue.count_toList_some]
      by_cases heq : key = other
      · subst heq
        -- what is handed out was not in flight, so that both sides grow by one
        have hfree := htaking.not_inFlight hready.consistent rfl
        rw [hready.inFlight] at hfree
        rw [if_pos rfl, if_neg hfree, if_pos (Or.inl rfl)]
        omega
      · simp [heq, Ne.symm heq]

theorem Balanced.afterGiveBack {closing : Closing ι κ τ ω} (hgood : closing.Balanced) {key : κ}
    (hflying : key ∈ closing.history.queue.inFlight) :
    Balanced
      { closing with
        history := closing.history.giveBack key
        returned := key :: closing.returned } := by
  refine ⟨hgood.sound.afterGiveBack hflying, fun other => ?_⟩
  have hbalance := hgood.balance other
  have hleft : other ∈ (closing.history.queue.done key).inFlight ↔
      other ≠ key ∧ other ∈ closing.history.queue.inFlight :=
    WorkQueue.mem_inFlight_done hgood.sound.consistent other
  simp only [History.giveBack, List.count_cons, hleft, hbalance]
  by_cases heq : other = key
  · subst heq
    simp [hflying]
  · simp [heq, Ne.symm heq]

theorem Balanced.returned_eq {closing : Closing ι κ τ ω} (hgood : closing.Balanced)
    (hdrained : closing.history.queue.isDrained = true) (key : κ) :
    closing.returned.count key = closing.history.handed.count key := by
  have hbalance := hgood.balance key
  rw [List.isEmpty_iff.mp hdrained] at hbalance
  simpa using hbalance.symm

section Steps

variable [Add τ] [OfNat τ 0] [LT τ] [DecidableLT τ] [LE τ] [DecidableLE τ] [Clock ω τ]

theorem Balanced.afterRequest {closing : Closing ι κ τ ω} (hgood : closing.Balanced)
    (request : QueueRequest κ τ ω) (drains : ι → DrainStage) :
    Balanced { closing with history := closing.history.request request, drains } := by
  refine ⟨hgood.sound.afterRequest request, fun key => ?_⟩
  have hbalance := hgood.balance key
  simpa only [History.request, WorkQueue.apply_inFlight] using hbalance

variable [Sub τ] [BEq τ]

theorem Balanced.afterOperation {closing : Closing ι κ τ ω} (hgood : closing.Balanced)
    {operation : Operation κ τ ω} {history : History κ τ ω}
    (hhistory : closing.history.step? operation = some history) :
    Balanced { closing with history, returned := operation.returned ++ closing.returned } := by
  have hsound := hgood.sound.afterStep operation hhistory
  cases operation with
  | request request =>
      cases hhistory
      exact hgood.afterRequest request closing.drains
  | look deadline =>
      cases hhistory
      obtain ⟨found, hready, htaking⟩ := hgood.sound.look_taking deadline
      exact hgood.afterTaking hready htaking hsound
  | get timeout =>
      cases hhistory
      obtain ⟨found, hready, htaking⟩ := hgood.sound.get_taking timeout
      exact hgood.afterTaking hready htaking hsound
  | done key =>
      simp only [History.step?] at hhistory
      split at hhistory
      next hflying =>
        cases hhistory
        exact hgood.afterGiveBack hflying
      next => cases hhistory

variable [DecidableEq ι]

/-- What follows a move.  A caller sleeps in one shutdown at a time, and only one that sleeps is
woken. -/
def step? (closing : Closing ι κ τ ω) : ClosingMove ι κ τ ω → Option (Closing ι κ τ ω)
  | .operate operation =>
      (closing.history.step? operation).map fun history =>
        { closing with history, returned := operation.returned ++ closing.returned }
  | .close caller =>
      if closing.drains caller = .asleep then none
      else
        some
          { closing with
            history := closing.history.request (.shutDown false none)
            drains :=
              Function.update closing.drains caller (closing.history.queue.drainStage false) }
  | .wake caller late =>
      if closing.drains caller = .asleep then
        some
          { closing with
            drains :=
              Function.update closing.drains caller (closing.history.queue.drainStage late) }
      else none

/-- All that a move can do: it is an operation, or a caller looks for keys in flight, after shutting
the queue down or on being woken. -/
theorem step?_cases {closing next : Closing ι κ τ ω} {move : ClosingMove ι κ τ ω}
    (hstep : closing.step? move = some next) :
    (∃ operation history, move = .operate operation ∧
        closing.history.step? operation = some history ∧
        next = { closing with history, returned := operation.returned ++ closing.returned }) ∨
      ∃ caller late history, move.caller? = some caller ∧
        (history = closing.history ∨
          history = closing.history.request (.shutDown false none)) ∧
        next =
          { closing with
            history
            drains :=
              Function.update closing.drains caller (closing.history.queue.drainStage late) } := by
  cases move with
  | operate operation =>
      obtain ⟨history, hhistory, rfl⟩ := Option.map_eq_some_iff.mp hstep
      exact Or.inl ⟨operation, history, rfl, hhistory, rfl⟩
  | close caller =>
      simp only [step?] at hstep
      split at hstep
      next => cases hstep
      next =>
        cases hstep
        exact Or.inr ⟨caller, false, _, rfl, Or.inr rfl, rfl⟩
  | wake caller late =>
      simp only [step?] at hstep
      split at hstep
      next =>
        cases hstep
        exact Or.inr ⟨caller, late, _, rfl, Or.inl rfl, rfl⟩
      next => cases hstep

theorem Balanced.afterStep {closing next : Closing ι κ τ ω} (hgood : closing.Balanced)
    (move : ClosingMove ι κ τ ω) (hstep : closing.step? move = some next) : next.Balanced := by
  rcases step?_cases hstep with
    ⟨operation, history, -, hhistory, rfl⟩ | ⟨caller, late, _, -, rfl | rfl, rfl⟩
  · exact hgood.afterOperation hhistory
  · exact ⟨hgood.sound, hgood.balance⟩
  · exact hgood.afterRequest (.shutDown false none) _

theorem play_balanced {limiter : Backoff κ τ} {clock : ω} {moves : List (ClosingMove ι κ τ ω)}
    {closing : Closing ι κ τ ω}
    (hplay : play step? (start limiter clock) moves = some closing) : closing.Balanced :=
  play_keeps (fun _ move _ h hstep => h.afterStep move hstep) (start_balanced limiter clock) hplay

theorem windsDown_step {before : History κ τ ω} {closing next : Closing ι κ τ ω}
    (h : before.WindsDown closing.history) (move : ClosingMove ι κ τ ω)
    (hstep : closing.step? move = some next) : before.WindsDown next.history := by
  rcases step?_cases hstep with
    ⟨operation, history, -, hhistory, rfl⟩ | ⟨caller, late, _, -, rfl | rfl, rfl⟩
  · exact h.afterStep operation hhistory
  · exact h
  · exact h.afterStep (.request (.shutDown false none)) rfl

theorem isDrained_of_ended {closing next : Closing ι κ τ ω} {move : ClosingMove ι κ τ ω}
    {caller : ι} (hstep : closing.step? move = some next) (hcaller : move.caller? = some caller)
    (hended : next.drains caller = .ended true) : next.history.queue.isDrained = true := by
  rcases step?_cases hstep with
    ⟨operation, history, rfl, -⟩ | ⟨other, late, history, hother, hhistory, rfl⟩
  · cases hcaller
  · rw [hcaller, Option.some.injEq] at hother
    subst hother
    have hstage : closing.history.queue.drainStage late = .ended true := by
      simpa only [Function.update_self] using hended
    have hdrained := WorkQueue.drainStage_eq_ended_iff.mp hstage
    rcases hhistory with rfl | rfl
    · exact hdrained
    · exact hdrained

/-- In every interleaving of any number of workers and of callers that shut the queue down, a
shutdown is final, whatever happens afterwards: each look and each `get` ends with nothing and
leaves the queue as it is; a request changes neither the ready, dirty and waiting keys nor the
agenda; no key is handed out, no more keys are in flight, and what was dirty, ready, waiting or on
the agenda still is.  A shutdown that waits is honest: when it succeeds, nothing is in flight and
each key has been given back as often as it was handed out. -/
theorem shutdown_final_and_honest (limiter : Backoff κ τ) (clock : ω)
    {moves : List (ClosingMove ι κ τ ω)} {closing : Closing ι κ τ ω}
    (hplay : play step? (start limiter clock) moves = some closing) :
    (∀ drain timeout,
      (closing.history.queue.shutDown drain timeout closing.history.clock).2.1 =
        { closing.history.queue with shuttingDown := true }) ∧
    (closing.history.queue.shuttingDown = true →
      ∀ rest later, play step? closing rest = some later →
        closing.history.WindsDown later.history ∧
        (∀ deadline, later.history.queue.look deadline later.history.clock =
          (.nothing, later.history.queue, later.history.clock)) ∧
        (∀ timeout, ∃ after, later.history.queue.get timeout later.history.clock =
          (.nothing, later.history.queue, after)) ∧
        ∀ request : QueueRequest κ τ ω, ∃ limiter,
          (request.apply later.history.queue later.history.clock).1 =
            { later.history.queue with limiter }) ∧
    (∀ move next caller, closing.step? move = some next → move.caller? = some caller →
      next.drains caller = .ended true →
        next.history.queue.inFlight = [] ∧
          ∀ key, next.returned.count key = next.history.handed.count key) ∧
    ∀ timeout, (closing.history.queue.shutDown true timeout closing.history.clock).1 = .yes →
      closing.history.queue.inFlight = [] ∧
        ∀ key, closing.returned.count key = closing.history.handed.count key := by
  have hgood := play_balanced hplay
  refine ⟨?_, ?_, ?_, ?_⟩
  · exact fun drain timeout => closing.history.queue.shutDown_queue drain timeout _
  · intro hshut rest later hrest
    have hdown : closing.history.WindsDown later.history :=
      play_keeps (P := fun later => closing.history.WindsDown later.history)
        (fun _ move _ h hstep => windsDown_step h move hstep) (History.windsDown_refl hshut) hrest
    have hstill := hdown.shuttingDown
    exact ⟨hdown, fun deadline => WorkQueue.look_of_shut hstill deadline _,
      fun timeout => WorkQueue.get_of_shut hstill timeout _,
      fun request => WorkQueue.apply_of_shut hstill _ request⟩
  · intro move next caller hstep hcaller hended
    have hdrained := isDrained_of_ended hstep hcaller hended
    exact ⟨List.isEmpty_iff.mp hdrained, (hgood.afterStep move hstep).returned_eq hdrained⟩
  · intro timeout hyes
    have hdrained := (WorkQueue.shutDown_yes_iff _ timeout _).mp hyes
    exact ⟨List.isEmpty_iff.mp hdrained, hgood.returned_eq hdrained⟩

/-- A key is in flight, and has been asked for again, when the queue is shut down; another waits.
The caller that waits is woken too early, and again when the key has been given back. -/
theorem shutdown_final_and_honest_of_key_in_flight :
    let limiter : Backoff Nat Int := { base := 1, maximum := 300 }
    let before : List (ClosingMove Bool Nat Int (HandClock Int)) :=
      [.operate (.request (.add 7)), .operate (.look none), .operate (.request (.add 7)),
        .operate (.request (.addAfter 8 5)), .close true]
    let rest : List (ClosingMove Bool Nat Int (HandClock Int)) :=
      [.operate (.request (.add 9)), .wake true false, .operate (.request (.tick ⟨6⟩)),
        .operate (.look none), .operate (.done 7)]
    ∃ closing later next, play step? (start limiter ⟨0⟩) before = some closing ∧
      closing.drains true = .asleep ∧ play step? closing rest = some later ∧
      closing.history.WindsDown later.history ∧
      later.history.queue.look none later.history.clock =
        (.nothing, later.history.queue, later.history.clock) ∧
      later.step? (.wake true false) = some next ∧ next.drains true = .ended true ∧
      next.returned.count 7 = next.history.handed.count 7 := by
  intro limiter before rest
  obtain ⟨closing, hclosing⟩ : ∃ closing : Closing Bool Nat Int (HandClock Int),
      play step? (start limiter ⟨0⟩) before = some closing := ⟨_, rfl⟩
  obtain ⟨later, hlater⟩ : ∃ later, play step? closing rest = some later := by
    cases hclosing
    exact ⟨_, rfl⟩
  obtain ⟨next, hnext⟩ : ∃ next, later.step? (.wake true false) = some next := by
    cases hclosing
    cases hlater
    exact ⟨_, rfl⟩
  have hasleep : closing.drains true = .asleep := by
    cases hclosing
    decide +kernel
  have hshut : closing.history.queue.shuttingDown = true := by
    cases hclosing
    decide +kernel
  have hended : next.drains true = .ended true := by
    cases hclosing
    cases hlater
    cases hnext
    decide +kernel
  obtain ⟨-, hfinal, -⟩ := shutdown_final_and_honest limiter (⟨0⟩ : HandClock Int) hclosing
  obtain ⟨hdown, hlook, -⟩ := hfinal hshut rest later hlater
  have hall : play step? (start limiter ⟨0⟩) (before ++ rest) = some later := by
    rw [play_append, hclosing, Option.bind_some, hlater]
  obtain ⟨-, -, hhonest, -⟩ := shutdown_final_and_honest limiter (⟨0⟩ : HandClock Int) hall
  exact ⟨closing, later, next, hclosing, hasleep, hlater, hdown, hlook none, hnext, hended,
    (hhonest _ next true hnext rfl hended).2 7⟩

end Steps

end Closing

end OneShot
