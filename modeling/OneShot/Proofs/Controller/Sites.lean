import OneShot.Proofs.Queue.Resting
import OneShot.Proofs.Reconcile.StateMachine
import OneShot.Proofs.Simulation.Calls
import Mathlib.Data.NNRat.Defs
import Mathlib.Data.Rat.Floor

/-!
# Two clocks

A controller reads two clocks.  One counts seconds and decides when the queue
hands out a key; the other hangs on the wall and decides whether a schedule has
come.  They run together, and time may pass whenever one of them is looked at
and while a call is answered.
-/

namespace OneShot

open Calendar Simulation

/-- A client in memory, and the two clocks beside it. -/
structure Site where
  shelf : Shelf
  /-- The microseconds on the wall when the other clock shows zero. -/
  origin : ℚ
  present : ℚ
  /-- The time that will pass at each of the coming looks and calls. -/
  lapses : Nat → ℚ≥0
  /-- The calls that were made, each with the moment of its answer. -/
  calls : List (Call × ℚ) := []
  /-- What the last pass came to. -/
  answer : Option (Except Fault Pass.Result) := none

namespace Site

def lapse (site : Site) : Site :=
  { site with
    present := site.present + site.lapses 0
    lapses := fun index => site.lapses (index + 1) }

/-- A sleeper wakes up whenever it is woken. -/
instance : Clock Site ℚ where
  read site := (site.lapse.present, site.lapse)
  sleep _ site := site.lapse
  ownMoves _ := 0

/-- What the clock on the wall shows at a moment of the other, in whole
microseconds. -/
def shownAt (origin moment : ℚ) : Int :=
  ⌊origin + moment * 1000000⌋

def wall (site : Site) : DateTime :=
  .ofInstant (shownAt site.origin site.present)

def answered (site : Site) (call : Call) : Site :=
  let later := { site with shelf := (site.shelf.serve call).2 }.lapse
  { later with calls := site.calls ++ [(call, later.present)] }

def client : Client Site ℚ := fun call _ site =>
  ((site.shelf.serve call).1, site.answered call)

/-- Nothing but time has passed. -/
structure Passed (site later : Site) : Prop where
  present : site.present ≤ later.present
  shelf : later.shelf = site.shelf
  origin : later.origin = site.origin
  calls : later.calls = site.calls
  answer : later.answer = site.answer

theorem passed_refl (site : Site) : site.Passed site := ⟨le_rfl, rfl, rfl, rfl, rfl⟩

variable {site later last : Site}

theorem Passed.trans (h : site.Passed later) (h' : later.Passed last) : site.Passed last where
  present := h.present.trans h'.present
  shelf := h'.shelf.trans h.shelf
  origin := h'.origin.trans h.origin
  calls := h'.calls.trans h.calls
  answer := h'.answer.trans h.answer

theorem passed_lapse (site : Site) : site.Passed site.lapse := by
  refine ⟨?_, rfl, rfl, rfl, rfl⟩
  have hlapse : (0 : ℚ) ≤ site.lapses 0 := (site.lapses 0).2
  simp only [lapse]
  linarith

theorem Passed.lapse (h : site.Passed later) : site.Passed later.lapse :=
  h.trans later.passed_lapse

/-! ## Looks for a key -/

section Looking

variable {queue after : WorkQueue ObjectKey ℚ} {key : ObjectKey} {moment : ℚ}

/-- A look reads the clock before anything else. -/
theorem look_passed {deadline : Option ℚ} {finding : WorkQueue.Finding ObjectKey ℚ}
    (hopen : queue.shuttingDown = false)
    (hlook : queue.look deadline site = (finding, after, later)) : site.lapse.Passed later := by
  unfold WorkQueue.look at hlook
  simp only [hopen, Bool.false_eq_true, if_false, Clock.read] at hlook
  split at hlook
  next =>
    cases hlook
    exact passed_refl _
  next =>
    split at hlook
    next =>
      cases hlook
      exact (passed_refl _).lapse
    next =>
      split at hlook
      next =>
        cases hlook
        exact (passed_refl _).lapse
      next =>
        cases hlook
        exact (passed_refl _).lapse.lapse

/-- What a worker that asks for a key leaves of one that rests until a moment:
the key still rests, or it is given to the worker and the moment has come. -/
structure Respects (site : Site) (key : ObjectKey) (moment : ℚ) (given : Option ObjectKey)
    (after : WorkQueue ObjectKey ℚ) (later : Site) : Prop where
  passed : site.Passed later
  spared : given ≠ some key → after.Rests key moment later.present
  given : given = some key → after.InHand key ∧ moment ≤ later.present

theorem Passed.respects {given : Option ObjectKey} (hpassed : site.Passed later)
    (hrespects : later.Respects key moment given after last) :
    site.Respects key moment given after last :=
  ⟨hpassed.trans hrespects.passed, hrespects.spared, hrespects.given⟩

theorem look_rests {deadline : Option ℚ} {finding : WorkQueue.Finding ObjectKey ℚ}
    (hrests : queue.Rests key moment site.present)
    (hlook : queue.look deadline site = (finding, after, later)) :
    site.Respects key moment finding.key? after later := by
  have hpassed := look_passed hrests.isOpen hlook
  have hfound : (queue.promote site.lapse.present).Rests key moment site.lapse.present :=
    (hrests.mono site.passed_lapse.present).afterPromote
  rcases WorkQueue.look_cases hlook with
    ⟨hshut, -, -⟩ | ⟨-, ⟨found, rfl, hdeliver⟩ | ⟨hnone, rfl, -⟩⟩
  · rw [hrests.isOpen] at hshut
    cases hshut
  · refine ⟨site.passed_lapse.trans hpassed, ?_, ?_⟩
    · intro hspared
      have hspares := WorkQueue.Taking.spares hfound.consistent hfound.scheduled
        (.delivered hdeliver) hspared
      exact (hfound.spared hspares).mono hpassed.present
    · intro hgiven
      obtain rfl : found = key := Option.some.inj hgiven
      obtain ⟨hhand, hcome⟩ := hfound.handedOut hdeliver
      exact ⟨hhand, hcome.trans hpassed.present⟩
  · refine ⟨site.passed_lapse.trans hpassed, fun _ => hfound.mono hpassed.present, ?_⟩
    intro hgiven
    cases finding with
    | delivered found => exact absurd rfl (hnone found)
    | nothing => cases hgiven
    | asleep duration => cases hgiven

theorem getWithin_rests {deadline : Option ℚ} {turns : Nat}
    {receipt : WorkQueue.Receipt ObjectKey} (hrests : queue.Rests key moment site.present)
    (hget : WorkQueue.getWithin deadline turns queue site = (receipt, after, later)) :
    site.Respects key moment receipt.key? after later := by
  refine WorkQueue.getWithin_keeps
    (P := fun queue now => site.Passed now ∧ queue.Rests key moment now.present)
    (Q := fun receipt after later => site.Respects key moment receipt.key? after later)
    ?_ ?_ ⟨site.passed_refl, hrests⟩ hget
  · rintro queue now ⟨hnow, hstill⟩
    exact ⟨hnow, fun _ => hstill, fun hgiven => nomatch hgiven⟩
  · rintro queue now finding seen next ⟨hnow, hstill⟩ hlook
    have hrespects := hnow.respects (look_rests hstill hlook)
    cases finding with
    | delivered found => exact hrespects
    | nothing => exact hrespects
    | asleep duration =>
        have hseen := hrespects.spared (by simp [WorkQueue.Finding.key?])
        exact ⟨hrespects.passed.lapse, hseen.mono next.passed_lapse.present⟩

/-- A key that rests is given to nobody before its moment. -/
theorem get_rests {timeout : Option ℚ} {receipt : WorkQueue.Receipt ObjectKey}
    (hrests : queue.Rests key moment site.present)
    (hget : queue.get timeout site = (receipt, after, later)) :
    site.Respects key moment receipt.key? after later := by
  unfold WorkQueue.get at hget
  cases timeout with
  | none => exact getWithin_rests hrests hget
  | some duration =>
      have hlapsed := hrests.mono site.passed_lapse.present
      exact site.passed_lapse.respects (getWithin_rests hlapsed hget)

/-- From the moment of a resting key on, nobody looks in vain. -/
theorem look_delivers {deadline : Option ℚ} {finding : WorkQueue.Finding ObjectKey ℚ}
    (hrests : queue.Rests key moment site.present) (hcome : moment ≤ site.present)
    (hlook : queue.look deadline site = (finding, after, later)) :
    ∃ found, finding = .delivered found := by
  rcases WorkQueue.look_cases hlook with
    ⟨hshut, -, -⟩ | ⟨-, ⟨found, hfound, -⟩ | ⟨-, rfl, hnone⟩⟩
  · rw [hrests.isOpen] at hshut
    cases hshut
  · exact ⟨found, hfound⟩
  · have hlapsed := hrests.mono site.passed_lapse.present
    have hready : key ∈ (queue.promote site.lapse.present).ready :=
      hlapsed.ready_promote (hcome.trans site.passed_lapse.present)
    exact absurd hready (hnone ▸ List.not_mem_nil)

theorem getWithin_delivers {deadline : Option ℚ} {turns : Nat}
    {receipt : WorkQueue.Receipt ObjectKey} (hrests : queue.Rests key moment site.present)
    (hcome : moment ≤ site.present)
    (hget : WorkQueue.getWithin deadline (turns + 1) queue site = (receipt, after, later)) :
    ∃ found, receipt = .delivered found := by
  rcases hlook : queue.look deadline site with ⟨finding, seen, next⟩
  obtain ⟨found, rfl⟩ := look_delivers hrests hcome hlook
  simp only [WorkQueue.getWithin, hlook] at hget
  cases hget
  exact ⟨found, rfl⟩

theorem get_delivers {timeout : Option ℚ} {receipt : WorkQueue.Receipt ObjectKey}
    (hrests : queue.Rests key moment site.present) (hcome : moment ≤ site.present)
    (hget : queue.get timeout site = (receipt, after, later)) :
    ∃ found, receipt = .delivered found := by
  unfold WorkQueue.get at hget
  cases timeout with
  | none => exact getWithin_delivers hrests hcome hget
  | some duration =>
      have hlapsed := site.passed_lapse.present
      exact getWithin_delivers (hrests.mono hlapsed) (hcome.trans hlapsed) hget

end Looking

/-! ## Requests -/

section Requests

variable {queue after : WorkQueue ObjectKey ℚ} {key : ObjectKey}

theorem addAfter_passed (queue : WorkQueue ObjectKey ℚ) (key : ObjectKey) (delay : ℚ)
    (site : Site) : site.Passed (queue.addAfter key delay site).2 := by
  unfold WorkQueue.addAfter
  split
  next => exact site.passed_refl
  next =>
    split
    next => exact site.passed_refl
    next => exact site.passed_lapse

theorem apply_passed {request : QueueRequest ObjectKey ℚ Site}
    (hspares : request.spares key = true) (queue : WorkQueue ObjectKey ℚ) (site : Site) :
    site.Passed (request.apply queue site).2 := by
  cases request with
  | add other => exact site.passed_refl
  | forget other => exact site.passed_refl
  | addAfter other delay => exact addAfter_passed queue other delay site
  | addRateLimited other => exact addAfter_passed _ other _ site
  | shutDown drain timeout | tick later => cases hspares

theorem settle_passed {policy : DispatchPolicy ℚ} {outcome : PassOutcome ℚ}
    (hsettle : queue.settle policy key outcome site = (after, later)) : site.Passed later := by
  have hpassed := WorkQueue.settle_clock (P := fun (now : Site) => site.Passed now)
    (fun _ hnow => hnow.lapse) queue policy key outcome site.passed_refl
  rwa [hsettle] at hpassed

/-- Carry out requests one after the other. -/
def applyAll (requests : List (QueueRequest ObjectKey ℚ Site))
    (start : WorkQueue ObjectKey ℚ × Site) : WorkQueue ObjectKey ℚ × Site :=
  requests.foldl (fun state request => request.apply state.1 state.2) start

theorem applyAll_passed {requests : List (QueueRequest ObjectKey ℚ Site)}
    (hspares : ∀ request ∈ requests, request.spares key = true)
    (happly : applyAll requests (queue, site) = (after, later)) : site.Passed later := by
  induction requests generalizing queue site with
  | nil =>
      cases happly
      exact passed_refl _
  | cons request rest ih =>
      have hfirst := apply_passed (hspares request List.mem_cons_self) queue site
      have hrest := ih (fun other hother => hspares other (List.mem_cons_of_mem _ hother)) happly
      exact hfirst.trans hrest

theorem applyAll_inHand {requests : List (QueueRequest ObjectKey ℚ Site)}
    (hspares : ∀ request ∈ requests, request.spares key = true) (hhand : queue.InHand key)
    (happly : applyAll requests (queue, site) = (after, later)) : after.InHand key := by
  induction requests generalizing queue site with
  | nil =>
      cases happly
      exact hhand
  | cons request rest ih =>
      have hfirst := hhand.spared (WorkQueue.spares_apply hhand.consistent hhand.scheduled
        (hspares request List.mem_cons_self) site)
      exact ih (fun other hother => hspares other (List.mem_cons_of_mem _ hother)) hfirst happly

end Requests

/-! ## Passes -/

section Passes

variable {key : ObjectKey} {resource : At} {target : DateTime} {deadline : Deadline ℚ}
  {stage : Pass.Stage} {answer : Except Fault Pass.Result} {ended : Site}

/-- The clock on the wall has not been set to a time before the year one. -/
def Sensible (site : Site) : Prop :=
  0 ≤ site.origin + site.present * 1000000

theorem Sensible.passed (hsensible : site.Sensible) (hpassed : site.Passed later) :
    later.Sensible := by
  unfold Sensible at *
  rw [hpassed.origin]
  have hle := hpassed.present
  linarith

theorem Sensible.answered (hsensible : site.Sensible) (call : Call) :
    (site.answered call).Sensible := by
  have hle : site.present ≤ (site.answered call).present := site.passed_lapse.present
  unfold Sensible at *
  have horigin : (site.answered call).origin = site.origin := rfl
  rw [horigin]
  linarith

theorem Sensible.instant_wall (hsensible : site.Sensible) :
    site.wall.instant = shownAt site.origin site.present := by
  have hnonneg : 0 ≤ shownAt site.origin site.present := Int.floor_nonneg.mpr hsensible
  unfold wall DateTime.instant DateTime.ofInstant
  rw [DateTime.clockReading_ofClockReading hnonneg]
  simp [DateTime.ofClockReading]

theorem remaining_passed {left : Except Expired (Option ℚ)}
    (hleft : deadline.remaining site = (left, later)) : site.Passed later := by
  unfold Deadline.remaining at hleft
  split at hleft
  next =>
    cases hleft
    exact site.passed_refl
  next =>
    cases hleft
    exact site.passed_lapse

theorem after_passed {timeout : Option ℚ}
    (hafter : Deadline.after timeout site = (deadline, later)) : site.Passed later := by
  unfold Deadline.after at hafter
  split at hafter
  next =>
    cases hafter
    exact site.passed_refl
  next =>
    cases hafter
    exact site.passed_lapse

/-- A pass that comes to a good end has had time for the call of its stage. -/
theorem exists_left (hrun : Pass.runFrom client wall deadline stage site = (answer, ended))
    (hok : answer.isOk = true) :
    ∃ limit asked, deadline.remaining site = (.ok limit, asked) ∧ site.Passed asked := by
  cases hleft : deadline.remaining site with
  | mk left asked =>
      cases left with
      | ok limit => exact ⟨limit, asked, rfl, remaining_passed hleft⟩
      | error expired =>
          rw [Pass.runFrom_of_expired hleft] at hrun
          cases hrun
          cases hok

theorem runFrom_keeps_calls (deadline : Deadline ℚ) (stage : Pass.Stage) (site : Site) :
    site.calls <+: (Pass.runFrom client wall deadline stage site).2.calls := by
  refine Pass.runFrom_keeps (P := fun _ (now : Site) => site.calls <+: now.calls)
    (Q := fun _ (now : Site) => site.calls <+: now.calls) ?_ ?_ (List.prefix_refl _)
  · intro stage now expired later hmade hleft
    rw [(remaining_passed hleft).calls]
    exact hmade
  · intro stage now limit later hmade hleft
    have hadded : site.calls <+: (later.answered stage.call).calls := by
      apply List.IsPrefix.trans _ (List.prefix_append _ _)
      rw [(remaining_passed hleft).calls]
      exact hmade
    simp only [client]
    cases stage.next (later.answered stage.call).wall (later.shelf.serve stage.call).1 with
    | goOn following => exact hadded
    | finished result => exact hadded
    | failed fault => exact hadded

theorem runFrom_called (hrun : Pass.runFrom client wall deadline stage site = (answer, ended))
    (hok : answer.isOk = true) : ∃ moment, (stage.call, moment) ∈ ended.calls := by
  obtain ⟨limit, asked, hleft, -⟩ := exists_left hrun hok
  have hmade : (stage.call, (asked.answered stage.call).present) ∈
      (asked.answered stage.call).calls :=
    List.mem_append_right _ (List.mem_singleton.mpr rfl)
  refine ⟨(asked.answered stage.call).present, ?_⟩
  rw [Pass.runFrom_of_left hleft] at hrun
  simp only [client] at hrun
  cases hnext : stage.next (asked.answered stage.call).wall (asked.shelf.serve stage.call).1 with
  | goOn following =>
      rw [hnext] at hrun
      have hkept := runFrom_keeps_calls deadline following (asked.answered stage.call)
      simp only at hrun
      rw [hrun] at hkept
      exact hkept.mem hmade
  | finished result =>
      rw [hnext] at hrun
      cases hrun
      exact hmade
  | failed fault =>
      rw [hnext] at hrun
      cases hrun
      exact hmade

/-- A pass that looks for a task which is not there has the task created. -/
theorem runFrom_creates (hfree : site.shelf.task? resource.taskKey = none)
    (hrun : Pass.runFrom client wall deadline (.findTask resource) site = (answer, ended))
    (hok : answer.isOk = true) :
    ∃ moment, (.createTask resource.newTask, moment) ∈ ended.calls := by
  obtain ⟨limit, asked, hleft, hpassed⟩ := exists_left hrun hok
  have hmissing : (asked.shelf.serve (Pass.Stage.findTask resource).call).1 =
      .error (.notFound .task resource.taskKey) := by
    rw [hpassed.shelf]
    exact congrArg Prod.fst (Shelf.serve_getTask_of_missing hfree)
  rw [Pass.runFrom_of_left hleft] at hrun
  simp only [client, hmissing, Pass.Stage.next, Pass.afterFindTask, Fault.isNotFound, if_true]
    at hrun
  exact runFrom_called hrun hok

/-- What a pass comes to that reads a command which is not started. -/
theorem run_reads (hstored : site.shelf.at? key = some resource)
    (hunstarted : Pass.Unstarted resource)
    (hparse : Schedule.parse resource.spec.schedule = .ok target) (hsensible : site.Sensible)
    (hrun : Pass.run client wall deadline key site = (answer, ended)) (hok : answer.isOk = true) :
    ∃ asked, site.Passed asked ∧
      let read := asked.answered (.getAt key)
      let shown := shownAt read.origin read.present
      if shown < target.instant then
        answer = .ok { requeueAfter := some (target.instant - shown) } ∧ ended = read
      else Pass.runFrom client wall deadline (.findTask resource) read = (answer, ended) := by
  obtain ⟨limit, asked, hleft, hpassed⟩ := exists_left hrun hok
  refine ⟨asked, hpassed, ?_⟩
  intro read shown
  have hserved : (asked.shelf.serve (Pass.Stage.read key).call).1 = .ok resource := by
    rw [hpassed.shelf]
    exact congrArg Prod.fst (Shelf.serve_getAt hstored)
  have hnext : (Pass.Stage.read key).next read.wall
      (asked.shelf.serve (Pass.Stage.read key).call).1 = Pass.waitOrLaunch resource read.wall := by
    rw [hserved]
    exact Pass.afterRead_of_unstarted hunstarted
  have hinstant : read.wall.instant = shown :=
    ((hsensible.passed hpassed).answered (.getAt key)).instant_wall
  rw [Pass.run, Pass.runFrom_of_left hleft] at hrun
  simp only [client] at hrun
  rw [show (asked.answered (Pass.Stage.read key).call) = read from rfl, hnext] at hrun
  have hrange : InRange read.wall.instant := by
    by_contra hout
    rw [Pass.waitOrLaunch_of_not_inRange hout hparse] at hrun
    rw [← (Prod.mk.inj hrun).1] at hok
    cases hok
  rw [Pass.waitOrLaunch_of_parse hrange hparse, hinstant] at hrun
  split
  next hahead =>
    rw [if_pos hahead] at hrun
    obtain ⟨hanswer, hended⟩ := Prod.mk.inj hrun
    exact ⟨hanswer.symm, hended.symm⟩
  next hcome =>
    rw [if_neg hcome] at hrun
    exact hrun

end Passes

end Site

end OneShot
