import OneShot.Proofs.Queue.Promotion
import OneShot.Proofs.Queue.Settling

/-!
# A key at rest

A key for which one moment is agreed on, and nobody asks otherwise, waits for
that moment; once the queue has noticed that the moment has come, the key is
dirty.  So whoever is given the key is given it at that moment or later.
-/

namespace OneShot

variable {κ ω : Type} [DecidableEq κ]

/-- A request that asks nothing for a key and leaves the queue open. -/
def QueueRequest.spares (key : κ) : QueueRequest κ ℚ ω → Bool
  | add other | addAfter other _ | addRateLimited other => key ≠ other
  | forget _ => true
  | shutDown _ _ | tick _ => false

namespace WorkQueue

/-- A key that nobody has in hand and that waits for a moment, or has waited
for it and can now be handed out. -/
structure Rests (queue : WorkQueue κ ℚ) (key : κ) (moment now : ℚ) : Prop where
  consistent : queue.Consistent
  scheduled : queue.Scheduled
  isOpen : queue.shuttingDown = false
  free : key ∉ queue.inFlight
  stands : (Assoc.get? queue.waiting key = some moment ∧ key ∉ queue.dirty) ∨
    (Assoc.get? queue.waiting key = none ∧ key ∈ queue.dirty ∧ moment ≤ now)

/-- A key that a worker has in hand, and for which nothing else is agreed on. -/
structure InHand (queue : WorkQueue κ ℚ) (key : κ) : Prop where
  consistent : queue.Consistent
  scheduled : queue.Scheduled
  isOpen : queue.shuttingDown = false
  clean : key ∉ queue.dirty
  unappointed : Assoc.get? queue.waiting key = none
  flying : key ∈ queue.inFlight

variable {queue after : WorkQueue κ ℚ} {key other : κ} {moment now later : ℚ}

theorem Rests.mono (hrests : queue.Rests key moment now) (hle : now ≤ later) :
    queue.Rests key moment later := by
  obtain ⟨hgood, hscheduled, hopen, hfree, hstands⟩ := hrests
  refine ⟨hgood, hscheduled, hopen, hfree, ?_⟩
  rcases hstands with hwaits | ⟨hnone, hdirty, hcome⟩
  · exact Or.inl hwaits
  · exact Or.inr ⟨hnone, hdirty, hcome.trans hle⟩

/-- Until its moment has come a resting key waits for it. -/
theorem Rests.waits (hrests : queue.Rests key moment now) (hahead : now < moment) :
    Assoc.get? queue.waiting key = some moment ∧ key ∉ queue.dirty := by
  rcases hrests.stands with hwaits | ⟨-, -, hcome⟩
  · exact hwaits
  · exact absurd hcome (not_le.mpr hahead)

theorem Rests.eligible (hrests : queue.Rests key moment now) (hcome : moment ≤ now) :
    queue.Eligible now key := by
  rcases hrests.stands with ⟨hwaiting, -⟩ | ⟨-, hdirty, -⟩
  · exact Or.inr ⟨hrests.free, moment, hwaiting, hcome⟩
  · exact Or.inl ((hrests.consistent.ready_iff key).mpr ⟨hdirty, hrests.free⟩)

theorem Rests.ready_promote (hrests : queue.Rests key moment now) (hcome : moment ≤ now) :
    key ∈ (queue.promote now).ready :=
  (mem_ready_promote hrests.consistent hrests.scheduled hrests.isOpen).mpr (hrests.eligible hcome)

theorem Rests.afterPromote (hrests : queue.Rests key moment now) :
    (queue.promote now).Rests key moment now where
  consistent := hrests.consistent.afterPromote now
  scheduled := hrests.scheduled.afterPromote now
  isOpen := (promote_shuttingDown now).trans hrests.isOpen
  free := by
    rw [promote_inFlight]
    exact hrests.free
  stands := by
    have hwaiting := hrests.scheduled.get?_waiting_promote hrests.isOpen now key
    have hdirty : key ∈ (queue.promote now).dirty ↔ key ∈ queue.dirty ∨ queue.DueBy now key :=
      hrests.scheduled.mem_dirty_promote hrests.isOpen
    rcases hrests.stands with ⟨hagreed, hclean⟩ | ⟨hnone, hmarked, hcome⟩
    · rw [hagreed] at hwaiting
      by_cases hahead : now < moment
      · rw [Option.filter_some_pos (by simpa using hahead)] at hwaiting
        refine Or.inl ⟨hwaiting, ?_⟩
        rw [hdirty]
        rintro (hmarked | ⟨agreed, hother, hcome⟩)
        · exact hclean hmarked
        · obtain rfl := Option.some.inj (hagreed.symm.trans hother)
          exact absurd hcome (not_le.mpr hahead)
      · rw [Option.filter_some_neg (by simpa using hahead)] at hwaiting
        have hcome : moment ≤ now := not_lt.mp hahead
        exact Or.inr ⟨hwaiting, hdirty.mpr (Or.inr ⟨moment, hagreed, hcome⟩), hcome⟩
    · rw [hnone, Option.filter_none] at hwaiting
      exact Or.inr ⟨hwaiting, hdirty.mpr (Or.inl hmarked), hcome⟩

/-- A resting key is handed out at its moment or later. -/
theorem Rests.handedOut (hrests : queue.Rests key moment now)
    (hdeliver : queue.deliver? = some (key, after)) : after.InHand key ∧ moment ≤ now := by
  have hready := mem_ready_of_deliver? hdeliver
  have hmarked := ((hrests.consistent.ready_iff key).mp hready).1
  rcases hrests.stands with ⟨-, hclean⟩ | ⟨hnone, -, hcome⟩
  · exact absurd hmarked hclean
  · refine ⟨?_, hcome⟩
    have hgood := hrests.consistent.afterDeliver hdeliver
    have hscheduled := hrests.scheduled.afterTaking (.delivered hdeliver)
    have hflying := mem_inFlight_of_deliver? hdeliver key
    obtain ⟨rest, -, rfl⟩ := deliver?_eq_some hdeliver
    refine ⟨hgood, hscheduled, hrests.isOpen, ?_, hnone, hflying.mpr (Or.inl rfl)⟩
    simp only [hrests.consistent.dirty_nodup.mem_erase_iff]
    rintro ⟨hne, -⟩
    exact hne rfl

/-- A key that has just been asked for. -/
theorem rests_add (hgood : queue.Consistent) (hscheduled : queue.Scheduled)
    (hopen : queue.shuttingDown = false) (hfree : key ∉ queue.inFlight) (now : ℚ) :
    (queue.add key).Rests key now now where
  consistent := hgood.afterAdd key
  scheduled := hscheduled.afterAdd key
  isOpen := (add_shuttingDown key).trans hopen
  free := by
    rw [add_inFlight]
    exact hfree
  stands := by
    refine Or.inr ⟨?_, ?_, le_rfl⟩
    · simp only [add, hopen, Bool.false_eq_true, if_false, markDirty_waiting, Assoc.get?_erase,
        if_true]
    · simp only [add, hopen, Bool.false_eq_true, if_false, mem_dirty_markDirty, true_or]

/-! ## What is done with other keys -/

/-- What is left of a key by an operation on other keys. -/
structure Spares (key : κ) (queue after : WorkQueue κ ℚ) : Prop where
  consistent : after.Consistent
  scheduled : after.Scheduled
  shuttingDown : after.shuttingDown = queue.shuttingDown
  waiting : Assoc.get? after.waiting key = Assoc.get? queue.waiting key
  dirty : key ∈ after.dirty ↔ key ∈ queue.dirty
  inFlight : key ∈ after.inFlight ↔ key ∈ queue.inFlight

theorem Rests.spared (hrests : queue.Rests key moment now) (hspares : Spares key queue after) :
    after.Rests key moment now where
  consistent := hspares.consistent
  scheduled := hspares.scheduled
  isOpen := hspares.shuttingDown.trans hrests.isOpen
  free := fun hflying => hrests.free (hspares.inFlight.mp hflying)
  stands := by
    rw [hspares.waiting, hspares.dirty]
    exact hrests.stands

theorem InHand.spared (hhand : queue.InHand key) (hspares : Spares key queue after) :
    after.InHand key where
  consistent := hspares.consistent
  scheduled := hspares.scheduled
  isOpen := hspares.shuttingDown.trans hhand.isOpen
  clean := fun hdirty => hhand.clean (hspares.dirty.mp hdirty)
  unappointed := hspares.waiting.trans hhand.unappointed
  flying := hspares.inFlight.mpr hhand.flying

theorem Spares.trans {last : WorkQueue κ ℚ} (h : Spares key queue after)
    (h' : Spares key after last) : Spares key queue last where
  consistent := h'.consistent
  scheduled := h'.scheduled
  shuttingDown := h'.shuttingDown.trans h.shuttingDown
  waiting := h'.waiting.trans h.waiting
  dirty := h'.dirty.trans h.dirty
  inFlight := h'.inFlight.trans h.inFlight

section Sparing

variable (hgood : queue.Consistent) (hscheduled : queue.Scheduled)
include hgood hscheduled

theorem spares_refl (key : κ) : Spares key queue queue :=
  ⟨hgood, hscheduled, rfl, rfl, Iff.rfl, Iff.rfl⟩

theorem Taking.spares {taken : Option κ} (htaking : queue.Taking taken after)
    (hspared : taken ≠ some key) : Spares key queue after := by
  cases htaking with
  | nothing => exact spares_refl hgood hscheduled key
  | @delivered found _ hdeliver =>
      have hne : key ≠ found := fun heq => hspared (congrArg some heq.symm)
      have hflying := mem_inFlight_of_deliver? hdeliver key
      refine ⟨hgood.afterDeliver hdeliver, hscheduled.afterTaking (.delivered hdeliver),
        shuttingDown_of_deliver? hdeliver, ?_, ?_, ?_⟩
      · obtain ⟨rest, -, rfl⟩ := deliver?_eq_some hdeliver
        rfl
      · obtain ⟨rest, -, rfl⟩ := deliver?_eq_some hdeliver
        exact List.mem_erase_of_ne hne
      · rw [hflying]
        exact or_iff_right hne

theorem spares_add (hne : key ≠ other) : Spares key queue (queue.add other) where
  consistent := hgood.afterAdd other
  scheduled := hscheduled.afterAdd other
  shuttingDown := add_shuttingDown other
  waiting := by
    unfold add
    split
    next => rfl
    next => rw [markDirty_waiting, Assoc.get?_erase, if_neg hne]
  dirty := by
    unfold add
    split
    next => exact Iff.rfl
    next =>
      rw [mem_dirty_markDirty]
      simp [hne]
  inFlight := by rw [add_inFlight]

theorem spares_appoint (hne : key ≠ other) (agreed : ℚ) :
    Spares key queue (queue.appoint other agreed) where
  consistent := hgood.afterAppoint other agreed
  scheduled := hscheduled.afterAppoint other agreed
  shuttingDown := appoint_shuttingDown other agreed
  waiting := by
    rcases appoint_cases other agreed queue with ⟨-, -, -, h⟩ | ⟨-, h⟩
    · rw [h]
    · rw [h]
      simp only [Assoc.get?_put, hne, if_false]
  dirty := by rw [appoint_dirty]
  inFlight := by rw [appoint_inFlight]

theorem spares_limiter (key : κ) (limiter : Backoff κ ℚ) :
    Spares key queue { queue with limiter } where
  consistent := hgood.of_eq rfl rfl rfl
  scheduled := hscheduled.of_subset rfl fun _ _ h => h
  shuttingDown := rfl
  waiting := rfl
  dirty := Iff.rfl
  inFlight := Iff.rfl

theorem spares_addAfter [Clock ω ℚ] (hne : key ≠ other) (delay : ℚ) (clock : ω) :
    Spares key queue (queue.addAfter other delay clock).1 := by
  rcases addAfter_cases queue other delay clock with ⟨-, h⟩ | ⟨-, h⟩ | ⟨-, -, h⟩
  · rw [h]
    exact spares_add hgood hscheduled hne
  · rw [h]
    exact spares_refl hgood hscheduled key
  · rw [h]
    exact spares_appoint hgood hscheduled hne _

theorem spares_done (hne : key ≠ other) (hflying : other ∈ queue.inFlight) :
    Spares key queue (queue.done other) where
  consistent := hgood.afterDone hflying
  scheduled := hscheduled.of_subset rfl fun _ _ h => h
  shuttingDown := rfl
  waiting := rfl
  dirty := Iff.rfl
  inFlight := List.mem_erase_of_ne hne

theorem spares_apply [Clock ω ℚ] {request : QueueRequest κ ℚ ω}
    (hspares : request.spares key = true) (clock : ω) :
    Spares key queue (request.apply queue clock).1 := by
  cases request with
  | add other => exact spares_add hgood hscheduled (of_decide_eq_true hspares)
  | addAfter other delay =>
      exact spares_addAfter hgood hscheduled (of_decide_eq_true hspares) delay clock
  | addRateLimited other =>
      have hfailed := spares_limiter hgood hscheduled key (queue.limiter.fail other).2
      have hasked := spares_addAfter hfailed.consistent hfailed.scheduled
        (of_decide_eq_true hspares) (queue.limiter.fail other).1 clock
      exact hfailed.trans hasked
  | forget other => exact spares_limiter hgood hscheduled key _
  | shutDown drain timeout | tick later => cases hspares

end Sparing

/-- A key in hand is given back with a moment agreed on for it. -/
theorem InHand.afterReturn (hhand : queue.InHand key) (moment now : ℚ) :
    (((queue.forget key).appoint key moment).done key).Rests key moment now := by
  have hforgot : (queue.forget key).Consistent := hhand.consistent.of_eq rfl rfl rfl
  have hscheduled : (queue.forget key).Scheduled :=
    hhand.scheduled.of_subset rfl fun _ _ h => h
  have hgood := hforgot.afterAppoint key moment
  have hflying : key ∈ ((queue.forget key).appoint key moment).inFlight := by
    rw [appoint_inFlight]
    exact hhand.flying
  have hwaiting : Assoc.get? ((queue.forget key).appoint key moment).waiting key =
      some moment := by
    rcases appoint_cases key moment (queue.forget key) with ⟨agreed, hagreed, -, -⟩ | ⟨-, h⟩
    · cases hagreed.symm.trans hhand.unappointed
    · rw [h]
      simp only [Assoc.get?_put, if_true]
  constructor
  · exact hgood.afterDone hflying
  · exact (hscheduled.afterAppoint key moment).of_subset rfl fun _ _ h => h
  · exact (appoint_shuttingDown key moment).trans hhand.isOpen
  · rw [mem_inFlight_done hgood]
    rintro ⟨hne, -⟩
    exact hne rfl
  · apply Or.inl
    refine ⟨hwaiting, ?_⟩
    have hsame : ((queue.forget key).appoint key moment).dirty = queue.dirty :=
      appoint_dirty key moment
    rw [show (((queue.forget key).appoint key moment).done key).dirty = queue.dirty from hsame]
    exact hhand.clean

/-- A key in hand whose pass asks for another one rests until then. -/
theorem InHand.afterFollowUp [Clock ω ℚ] (hhand : queue.InHand key) (policy : DispatchPolicy ℚ)
    {delay : ℚ} (hdelay : 0 < delay) {clock last : ω}
    (hsettle : queue.settle policy key (.finished (some delay)) clock = (after, last)) :
    last = (Clock.read clock).2 ∧
      ∀ now, (after.done key).Rests key ((Clock.read clock).1 + delay) now := by
  have hopen : (queue.forget key).shuttingDown = false := hhand.isOpen
  simp only [settle, addAfter, not_le.mpr hdelay, hopen, if_false, Bool.false_eq_true] at hsettle
  cases hsettle
  exact ⟨rfl, fun now => hhand.afterReturn _ now⟩

end WorkQueue

end OneShot
