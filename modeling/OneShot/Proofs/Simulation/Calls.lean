import OneShot.Proofs.Queue.Exclusion
import OneShot.Proofs.Controller.Posts
import OneShot.Simulation.World

/-!
# Calls in a world

A call over the bench is an attempt on the store: the bench lets time pass and
may answer with a fault instead.  Asking a clock, telling listeners of a change
and settling the outcome of a pass leave the store as it is.
-/

namespace OneShot

open Calendar

/-! ## Looks and the clock -/

namespace WorkQueue

section Clocks

variable {κ τ ω : Type} [DecidableEq κ] [OfNat τ 0] [LT τ] [DecidableLT τ] [LE τ] [DecidableLE τ]
variable [Clock ω τ] {P : ω → Prop}

section Settling

variable [Add τ]

/-- Settling does no more to the state of its clock than to read it. -/
theorem settle_clock (hread : ∀ clock, P clock → P (Clock.read clock).2)
    (queue : WorkQueue κ τ) (policy : DispatchPolicy τ) (key : κ) (outcome : PassOutcome τ)
    {clock : ω} (hclock : P clock) : P (queue.settle policy key outcome clock).2 := by
  have hafter : ∀ (queue : WorkQueue κ τ) (delay : τ), P (queue.addAfter key delay clock).2 := by
    intro queue delay
    unfold addAfter
    split
    next => exact hclock
    next =>
      split
      next => exact hclock
      next => exact hread clock hclock
  rw [settle_eq_settlement]
  unfold settlement
  cases outcome with
  | conflict => exact hafter queue policy.conflictDelay
  | failed =>
      cases queue.drops policy key with
      | true => exact hclock
      | false => exact hafter { queue with limiter := _ } _
  | finished followUp =>
      cases followUp with
      | none => exact hclock
      | some delay => exact hafter (queue.forget key) delay

end Settling

variable [Sub τ] [BEq τ]

/-- A look does no more to the state of its clock than to read it. -/
theorem look_clock (hread : ∀ clock, P clock → P (Clock.read clock).2)
    {queue after : WorkQueue κ τ} {deadline : Option τ} {clock later : ω}
    {finding : Finding κ τ} (hclock : P clock)
    (hlook : queue.look deadline clock = (finding, after, later)) : P later := by
  have hfirst := hread clock hclock
  have hsecond := hread _ hfirst
  have hthird := hread _ hsecond
  have hkept : P (queue.look deadline clock).2.2 := by
    unfold look
    split
    next => exact hclock
    next =>
      simp only
      split
      next => exact hfirst
      next =>
        split
        next => exact hsecond
        next =>
          split
          next => exact hsecond
          next => exact hthird
  rwa [hlook] at hkept

/-- A `get` does no more to the state of its clock than to read it and to sleep
on it. -/
theorem get_clock [Add τ] (hread : ∀ clock, P clock → P (Clock.read clock).2)
    (hsleep : ∀ duration clock, P clock → P (Clock.sleep duration clock))
    {queue after : WorkQueue κ τ} {timeout : Option τ} {clock later : ω} {receipt : Receipt κ}
    (hclock : P clock) (hget : queue.get timeout clock = (receipt, after, later)) : P later := by
  have hwithin : ∀ (deadline : Option τ) (turns : Nat) (clock : ω), P clock →
      getWithin deadline turns queue clock = (receipt, after, later) → P later := by
    intro deadline turns clock hstart hget
    refine getWithin_keeps (P := fun (_ : WorkQueue κ τ) clock => P clock)
      (Q := fun _ _ clock => P clock) (fun _ _ h => h) ?_ hstart hget
    intro queue clock finding after later hclock hlook
    have hlater := look_clock hread hclock hlook
    cases finding with
    | delivered key => exact hlater
    | nothing => exact hlater
    | asleep duration => exact hsleep duration later hlater
  unfold get at hget
  cases timeout with
  | none => exact hwithin none _ clock hclock hget
  | some duration => exact hwithin _ _ _ (hread clock hclock) hget

end Clocks

end WorkQueue

namespace Simulation.World

/-! ## Telling changes -/

section Telling

variable {P : World → Prop} {world : World}

theorem broadcast_keeps {event : ChangeEvent}
    (htell : ∀ listener world, P world → P (tell listener event world))
    (handlers : List Listener) (hstart : P world) :
    P (handlers.foldl (fun world handler => tell handler event world) world) := by
  induction handlers generalizing world with
  | nil => exact hstart
  | cons handler rest ih => exact ih (htell handler world hstart)

theorem publish_keeps (htell : ∀ listener event world, P world → P (tell listener event world))
    (events : List ChangeEvent) (hstart : P world) : P (world.publish events) := by
  unfold publish
  induction events generalizing world with
  | nil => exact hstart
  | cons event rest ih =>
      have hfirst := broadcast_keeps (fun listener world => htell listener event world)
        world.broadcast.handlers hstart
      exact ih hfirst

end Telling

/-- Who listens to a world and how its workers behave stays the same. -/
structure Frame (world other : World) : Prop where
  broadcast : other.broadcast = world.broadcast
  terms : other.terms = world.terms

theorem Frame.refl (world : World) : world.Frame world := ⟨rfl, rfl⟩

theorem Frame.trans {world other last : World} (h : world.Frame other) (h' : other.Frame last) :
    world.Frame last :=
  ⟨h'.broadcast.trans h.broadcast, h'.terms.trans h.terms⟩

/-- Whatever the listeners do, the store and the moment on the wall stay. -/
structure Alike (world other : World) : Prop extends Frame world other where
  store : other.store = world.store
  now : other.now = world.now

theorem tell_alike (listener : Listener) (event : ChangeEvent) {world other : World}
    (halike : world.Alike other) : world.Alike (tell listener event other) := by
  obtain ⟨⟨hbroadcast, hterms⟩, hstore, hnow⟩ := halike
  cases listener <;> exact ⟨⟨hbroadcast, hterms⟩, hstore, hnow⟩

theorem publish_alike (world : World) (events : List ChangeEvent) :
    world.Alike (world.publish events) :=
  publish_keeps (P := world.Alike) (fun listener event _ h => tell_alike listener event h) events
    ⟨.refl world, rfl, rfl⟩

section Transacting

variable {α : Type} (world : World) (transaction : Store → DateTime → Effect α)

@[simp] theorem transact_store :
    (world.transact transaction).2.store = (transaction world.store world.now).store :=
  (publish_alike { world with store := _ } _).store

@[simp] theorem transact_now : (world.transact transaction).2.now = world.now :=
  (publish_alike { world with store := _ } _).now

theorem transact_frame : world.Frame (world.transact transaction).2 :=
  ⟨(publish_alike { world with store := _ } _).broadcast,
    (publish_alike { world with store := _ } _).terms⟩

end Transacting

/-! ## Calls over the bench -/

/-- A call over the bench is an attempt on the store some time later. -/
theorem benched_attempt (call : Call) (patience : Patience Float) (world : World) :
    ∃ (mishap : Mishap) (met : World), world.Frame met ∧ met.store = world.store ∧
      met.queue = world.queue ∧
        benched call patience world =
          met.transact fun store now => store.attempt now call mishap := by
  unfold benched
  split
  next fault bench hmeet => exact ⟨.unsent fault, { world with bench }, ⟨rfl, rfl⟩, rfl, rfl, rfl⟩
  next bench hmeet => exact ⟨.nothing, { world with bench }, ⟨rfl, rfl⟩, rfl, rfl, rfl⟩

theorem benched_frame (call : Call) (patience : Patience Float) (world : World) :
    world.Frame (benched call patience world).2 := by
  obtain ⟨mishap, met, hframe, -, -, hreply⟩ := benched_attempt call patience world
  rw [hreply]
  exact hframe.trans (transact_frame met _)

theorem benched_listAts {ns : Option String} {patience : Patience Float} {world later : World}
    {ats : List At} (hlisted : benched (.listAts ns) patience world = (.ok ats, later)) :
    world.store.listAts ns = .ok ats ∧ world.Frame later ∧ later.store = world.store ∧
      later.queue = world.queue := by
  obtain ⟨mishap, met, hframe, hstore, hqueue, hreply⟩ :=
    benched_attempt (.listAts ns) patience world
  rw [hreply] at hlisted
  have hanswer : (met.store.attempt met.now (.listAts ns) mishap).answer = .ok ats :=
    congrArg Prod.fst hlisted
  obtain ⟨rfl, hserved⟩ := met.store.attempt_eq_ok met.now (.listAts ns) mishap hanswer
  obtain rfl : met = later := congrArg Prod.snd hlisted
  refine ⟨?_, hframe, hstore, hqueue⟩
  rw [← hstore]
  exact hserved

/-! ## Time -/

theorem remaining_frame {deadline : Deadline Float} {world later : World}
    {left : Except Expired (Option Float)} (hleft : deadline.remaining world = (left, later)) :
    world.Frame later ∧ later.store = world.store ∧ later.queue = world.queue := by
  unfold Deadline.remaining at hleft
  split at hleft
  next =>
    cases hleft
    exact ⟨.refl world, rfl, rfl⟩
  next =>
    cases hleft
    exact ⟨⟨rfl, rfl⟩, rfl, rfl⟩

theorem deadline_frame {timeout : Option Float} {world later : World} {deadline : Deadline Float}
    (hafter : Deadline.after timeout world = (deadline, later)) :
    world.Frame later ∧ later.store = world.store := by
  unfold Deadline.after at hafter
  split at hafter
  next =>
    cases hafter
    exact ⟨.refl world, rfl⟩
  next =>
    cases hafter
    exact ⟨⟨rfl, rfl⟩, rfl⟩

theorem get_frame {queue after : WorkQueue ObjectKey Float} {timeout : Option Float}
    {world later : World} {receipt : WorkQueue.Receipt ObjectKey}
    (hget : queue.get timeout world = (receipt, after, later)) :
    world.Frame later ∧ later.store = world.store :=
  WorkQueue.get_clock (P := fun other : World => world.Frame other ∧ other.store = world.store)
    (fun _ h => ⟨⟨h.1.broadcast, h.1.terms⟩, h.2⟩) (fun _ _ h => ⟨⟨h.1.broadcast, h.1.terms⟩, h.2⟩)
    ⟨.refl world, rfl⟩ hget

theorem settle_frame {queue settled : WorkQueue ObjectKey Float} {policy : DispatchPolicy Float}
    {key : ObjectKey} {outcome : PassOutcome Float} {world later : World}
    (hsettle : queue.settle policy key outcome world = (settled, later)) :
    world.Frame later ∧ later.store = world.store := by
  have hkept := WorkQueue.settle_clock
    (P := fun other : World => world.Frame other ∧ other.store = world.store)
    (fun _ h => ⟨⟨h.1.broadcast, h.1.terms⟩, h.2⟩) queue policy key outcome ⟨.refl world, rfl⟩
  rwa [hsettle] at hkept

/-! ## The move of a worker -/

theorem run_frame {key : ObjectKey} {deadline : Deadline Float} {world later : World}
    {answer : Except Fault Pass.Result}
    (hrun : Pass.run benched now deadline key world = (answer, later)) : world.Frame later := by
  have hkept : world.Frame (Pass.run benched now deadline key world).2 := by
    refine Pass.runFrom_keeps (P := fun _ other => world.Frame other)
      (Q := fun _ other => world.Frame other) ?_ ?_ (.refl world)
    · intro stage state expired later hframe hleft
      exact hframe.trans (remaining_frame hleft).1
    · intro stage state limit later hframe hleft
      have hcalled := (hframe.trans (remaining_frame hleft).1).trans
        (benched_frame stage.call (.stated limit) later)
      simp only
      cases stage.next (benched stage.call (.stated limit) later).2.now
          (benched stage.call (.stated limit) later).1 with
      | goOn following => exact hcalled
      | finished result => exact hcalled
      | failed fault => exact hcalled
  rwa [hrun] at hkept

/-- What the move of a worker can come to: nothing but time spent, or a key
taken, passed over, settled and given back. -/
inductive Worked (world : World) (timeout : Option Float) : World → Prop where
  | nothing {receipt : WorkQueue.Receipt ObjectKey} {queue : WorkQueue ObjectKey Float}
      {later : World} (hget : world.queue.get timeout world = (receipt, queue, later))
      (hnone : receipt.key? = none) : Worked world timeout { later with queue }
  | passed {key : ObjectKey} {queue settled : WorkQueue ObjectKey Float}
      {deadline : Deadline Float} {answer : Except Fault Pass.Result}
      {later begun ended last : World}
      (hget : world.queue.get timeout world = (.delivered key, queue, later))
      (hafter : Deadline.after world.terms.policy.timeout later = (deadline, begun))
      (hrun : Pass.run benched now deadline key { begun with queue } = (answer, ended))
      (hsettle : ended.queue.settle world.terms.policy key (Pass.outcome secondsOfMicros answer)
        ended = (settled, last)) :
      Worked world timeout { last with queue := settled.done key }

theorem processNext_worked (world : World) (timeout : Option Float) :
    world.Worked timeout (world.processNext timeout).2 := by
  unfold processNext WorkQueue.processNext
  cases hget : world.queue.get timeout world with
  | mk receipt rest =>
      obtain ⟨queue, later⟩ := rest
      cases receipt with
      | nothing => exact .nothing hget rfl
      | never => exact .nothing hget rfl
      | delivered key =>
          refine .passed hget rfl rfl ?_
          rw [Pass.outcome_eq]
          rfl

theorem Worked.frame {world after : World} {timeout : Option Float}
    (hworked : world.Worked timeout after) : world.Frame after := by
  cases hworked with
  | nothing hget => exact ⟨(get_frame hget).1.broadcast, (get_frame hget).1.terms⟩
  | @passed key queue settled deadline answer later begun ended last hget hafter hrun hsettle =>
      have hbegun := (get_frame hget).1.trans (deadline_frame hafter).1
      have hended : begun.Frame ended := ⟨(run_frame hrun).broadcast, (run_frame hrun).terms⟩
      have hlast := (hbegun.trans hended).trans (settle_frame hsettle).1
      exact ⟨hlast.broadcast, hlast.terms⟩

end Simulation.World

end OneShot
