import OneShot.Queue.WorkQueue
import OneShot.Proofs.Assoc
import Mathlib.Tactic

/-!
# Consistency of the work queue

The ready keys are exactly the dirty keys that are not in flight, and no list
of keys names one twice.  Every section of the queue keeps this, in any order,
as long as only keys in flight are reported done.

Beside it stands the account of a key: what the queue still owes it.  A
request raises the account of its key by one at most, a promotion raises no
account, and a delivery is paid from the account of its key.
-/

namespace OneShot.WorkQueue

variable {κ τ ω : Type} [DecidableEq κ]

/-- The lists of keys fit together. -/
structure Consistent (queue : WorkQueue κ τ) : Prop where
  ready_nodup : queue.ready.Nodup
  dirty_nodup : queue.dirty.Nodup
  inFlight_nodup : queue.inFlight.Nodup
  ready_iff : ∀ key, key ∈ queue.ready ↔ key ∈ queue.dirty ∧ key ∉ queue.inFlight

/-- The deliveries of a key that the queue still owes: one while the key is
dirty and one while it waits. -/
def owed (queue : WorkQueue κ τ) (key : κ) : Nat :=
  (if key ∈ queue.dirty then 1 else 0) +
    (if (Assoc.get? queue.waiting key).isSome then 1 else 0)

omit [DecidableEq κ] in
theorem consistent_empty (limiter : Backoff κ τ) :
    Consistent ({ limiter } : WorkQueue κ τ) := by
  constructor <;> simp

theorem owed_empty (limiter : Backoff κ τ) (key : κ) :
    ({ limiter } : WorkQueue κ τ).owed key = 0 := by
  simp [owed, Assoc.get?]

omit [DecidableEq κ] in
theorem Consistent.not_inFlight_of_ready {queue : WorkQueue κ τ} (hgood : queue.Consistent)
    {key : κ} (hready : key ∈ queue.ready) : key ∉ queue.inFlight :=
  ((hgood.ready_iff key).mp hready).2

omit [DecidableEq κ] in
theorem Consistent.of_eq {queue changed : WorkQueue κ τ} (hgood : queue.Consistent)
    (hready : changed.ready = queue.ready) (hdirty : changed.dirty = queue.dirty)
    (hflying : changed.inFlight = queue.inFlight) : changed.Consistent := by
  constructor
  · rw [hready]; exact hgood.ready_nodup
  · rw [hdirty]; exact hgood.dirty_nodup
  · rw [hflying]; exact hgood.inFlight_nodup
  · rw [hready, hdirty, hflying]; exact hgood.ready_iff

theorem owed_of_eq {queue changed : WorkQueue κ τ} (hdirty : changed.dirty = queue.dirty)
    (hwaiting : changed.waiting = queue.waiting) (key : κ) :
    changed.owed key = queue.owed key := by
  unfold owed
  rw [hdirty, hwaiting]

/-! ## Marking a key dirty -/

section Marking

variable (queue : WorkQueue κ τ) (key other : κ)

@[simp] theorem markDirty_inFlight : (queue.markDirty key).inFlight = queue.inFlight := by
  unfold markDirty; split <;> rfl

@[simp] theorem markDirty_waiting : (queue.markDirty key).waiting = queue.waiting := by
  unfold markDirty; split <;> rfl

@[simp] theorem markDirty_agenda : (queue.markDirty key).agenda = queue.agenda := by
  unfold markDirty; split <;> rfl

@[simp] theorem markDirty_shuttingDown :
    (queue.markDirty key).shuttingDown = queue.shuttingDown := by
  unfold markDirty; split <;> rfl

theorem mem_dirty_markDirty :
    other ∈ (queue.markDirty key).dirty ↔ other = key ∨ other ∈ queue.dirty := by
  unfold markDirty
  split
  next hmem =>
    constructor
    · exact Or.inr
    · rintro (rfl | hother)
      · exact hmem
      · exact hother
  next => simp

variable {queue}

theorem Consistent.afterMarkDirty (hgood : queue.Consistent) :
    (queue.markDirty key).Consistent := by
  unfold markDirty
  split
  next => exact hgood
  next hclean =>
    have hnotReady : key ∉ queue.ready := fun hready =>
      hclean ((hgood.ready_iff key).mp hready).1
    refine ⟨?_, List.nodup_cons.mpr ⟨hclean, hgood.dirty_nodup⟩, hgood.inFlight_nodup, ?_⟩
    · by_cases hflying : key ∈ queue.inFlight
      · simpa [hflying] using hgood.ready_nodup
      · simpa [hflying, List.nodup_append, hgood.ready_nodup] using
          fun other hother => (ne_of_mem_of_not_mem hother hnotReady)
    · intro other
      by_cases heq : other = key
      · subst heq
        by_cases hflying : other ∈ queue.inFlight
        · simp [hflying, hnotReady]
        · simp [hflying]
      · by_cases hflying : key ∈ queue.inFlight
        · simp [hflying, heq, hgood.ready_iff other]
        · simp [hflying, heq, hgood.ready_iff other]

theorem owed_markDirty_self_le :
    (queue.markDirty key).owed key ≤
      1 + (if (Assoc.get? queue.waiting key).isSome then 1 else 0) := by
  simp only [owed, markDirty_waiting]
  split <;> omega

theorem owed_markDirty_of_ne (hne : other ≠ key) :
    (queue.markDirty key).owed other = queue.owed other := by
  simp [owed, mem_dirty_markDirty, hne]

theorem owed_erase_waiting_of_ne (hne : other ≠ key) :
    ({ queue with waiting := Assoc.erase queue.waiting key } : WorkQueue κ τ).owed other =
      queue.owed other := by
  simp [owed, Assoc.get?_erase, hne]

theorem owed_markDirty_erase_le (queue : WorkQueue κ τ) (key : κ) :
    ({ queue with waiting := Assoc.erase queue.waiting key }.markDirty key).owed key ≤ 1 := by
  refine (owed_markDirty_self_le key).trans ?_
  simp [Assoc.get?_erase]

end Marking

/-! ## Requests -/

section Requests

variable {queue : WorkQueue κ τ} (key other : κ)

@[simp] theorem add_inFlight : (queue.add key).inFlight = queue.inFlight := by
  unfold add
  split
  next => rfl
  next => simp

@[simp] theorem add_shuttingDown : (queue.add key).shuttingDown = queue.shuttingDown := by
  unfold add
  split
  next => rfl
  next => simp

theorem Consistent.afterAdd (hgood : queue.Consistent) : (queue.add key).Consistent := by
  unfold add
  split
  next => exact hgood
  next =>
    have herased : Consistent { queue with waiting := Assoc.erase queue.waiting key } :=
      hgood.of_eq rfl rfl rfl
    exact herased.afterMarkDirty key

theorem owed_add_le :
    (queue.add key).owed other ≤ queue.owed other + if other = key then 1 else 0 := by
  unfold add
  split
  next => omega
  next =>
    by_cases heq : other = key
    · subst heq
      have hle := owed_markDirty_erase_le queue other
      simp only [if_true]
      omega
    · rw [owed_markDirty_of_ne _ _ heq, owed_erase_waiting_of_ne _ _ heq]
      omega

variable [LE τ] [DecidableLE τ] [LT τ] [DecidableLT τ] (moment : τ)

/-- An appointment is either superfluous, or the one that counts from now on. -/
theorem appoint_cases (queue : WorkQueue κ τ) :
    (∃ current, Assoc.get? queue.waiting key = some current ∧ current ≤ moment ∧
        queue.appoint key moment = queue) ∨
      ((∀ current, Assoc.get? queue.waiting key = some current → ¬ current ≤ moment) ∧
        queue.appoint key moment = { queue with
          waiting := Assoc.put queue.waiting key moment
          agenda := Appointment.enter ⟨moment, key⟩ queue.agenda }) := by
  unfold appoint
  cases hcurrent : Assoc.get? queue.waiting key with
  | none => exact Or.inr ⟨by simp, by simp⟩
  | some current =>
      by_cases hle : current ≤ moment
      · exact Or.inl ⟨current, rfl, hle, by simp [hle]⟩
      · exact Or.inr ⟨by simpa using hle, by simp [hle]⟩

@[simp] theorem appoint_inFlight : (queue.appoint key moment).inFlight = queue.inFlight := by
  rcases appoint_cases key moment queue with ⟨-, -, -, heq⟩ | ⟨-, heq⟩ <;> rw [heq]

@[simp] theorem appoint_dirty : (queue.appoint key moment).dirty = queue.dirty := by
  rcases appoint_cases key moment queue with ⟨-, -, -, heq⟩ | ⟨-, heq⟩ <;> rw [heq]

@[simp] theorem appoint_ready : (queue.appoint key moment).ready = queue.ready := by
  rcases appoint_cases key moment queue with ⟨-, -, -, heq⟩ | ⟨-, heq⟩ <;> rw [heq]

@[simp] theorem appoint_shuttingDown :
    (queue.appoint key moment).shuttingDown = queue.shuttingDown := by
  rcases appoint_cases key moment queue with ⟨-, -, -, heq⟩ | ⟨-, heq⟩ <;> rw [heq]

theorem Consistent.afterAppoint (hgood : queue.Consistent) :
    (queue.appoint key moment).Consistent :=
  hgood.of_eq (appoint_ready key moment) (appoint_dirty key moment)
    (appoint_inFlight key moment)

theorem owed_appoint_le :
    (queue.appoint key moment).owed other ≤
      queue.owed other + if other = key then 1 else 0 := by
  rcases appoint_cases key moment queue with ⟨-, -, -, heq⟩ | ⟨-, heq⟩
  · rw [heq]
    omega
  · rw [heq]
    by_cases hother : other = key
    · simp only [owed, Assoc.get?_put, hother, if_true, Option.isSome_some]
      omega
    · simp [owed, Assoc.get?_put, hother]

end Requests

/-! ## Promotion -/

section Promotion

variable [BEq τ]

variable {queue : WorkQueue κ τ} (entry : Appointment κ τ) (other : κ)

@[simp] theorem keep_inFlight : (queue.keep entry).inFlight = queue.inFlight := by
  unfold keep
  split
  next =>
    split
    next =>
      simp only
      split <;> simp
    next => rfl
  next => rfl

@[simp] theorem keep_shuttingDown : (queue.keep entry).shuttingDown = queue.shuttingDown := by
  unfold keep
  split
  next =>
    split
    next =>
      simp only
      split <;> simp
    next => rfl
  next => rfl

theorem Consistent.afterKeep (hgood : queue.Consistent) : (queue.keep entry).Consistent := by
  unfold keep
  split
  next =>
    split
    next =>
      simp only
      split
      next => exact hgood.of_eq rfl rfl rfl
      next =>
        have herased : Consistent { queue with waiting := Assoc.erase queue.waiting entry.key } :=
          hgood.of_eq rfl rfl rfl
        exact herased.afterMarkDirty entry.key
    next => exact hgood
  next => exact hgood

theorem owed_keep_le : (queue.keep entry).owed other ≤ queue.owed other := by
  unfold keep
  split
  next moment hwaiting =>
    split
    next =>
      by_cases heq : other = entry.key
      · -- The key stops waiting, which pays for its becoming dirty.
        subst heq
        have hpaid : 1 ≤ queue.owed entry.key := by simp [owed, hwaiting]
        have hle := owed_markDirty_erase_le queue entry.key
        simp only
        split
        next => simp [owed, Assoc.get?_erase]
        next => omega
      · simp only
        split
        next => exact (owed_erase_waiting_of_ne _ _ heq).le
        next => rw [owed_markDirty_of_ne _ _ heq, owed_erase_waiting_of_ne _ _ heq]
    next => exact le_rfl
  next => exact le_rfl

variable [LE τ] [DecidableLE τ]

/-- A property that no entry of the agenda disturbs outlasts a promotion. -/
theorem promoteFrom_keeps {P : WorkQueue κ τ → Prop}
    (hkeep : ∀ queue entry, P queue → P (queue.keep entry))
    (hagenda : ∀ queue agenda, P queue → P { queue with agenda })
    (now : τ) (entries : List (Appointment κ τ)) {queue : WorkQueue κ τ} (h : P queue) :
    P (promoteFrom now entries queue) := by
  induction entries generalizing queue with
  | nil => exact hagenda queue [] h
  | cons entry rest ih =>
      unfold promoteFrom
      split
      next => exact ih (hkeep queue entry h)
      next => exact hagenda queue _ h

variable (now : τ)

@[simp] theorem promote_inFlight : (queue.promote now).inFlight = queue.inFlight :=
  promoteFrom_keeps (P := fun after => after.inFlight = queue.inFlight)
    (fun _ entry h => (keep_inFlight entry).trans h) (fun _ _ h => h) now _ rfl

@[simp] theorem promote_shuttingDown :
    (queue.promote now).shuttingDown = queue.shuttingDown :=
  promoteFrom_keeps (P := fun after => after.shuttingDown = queue.shuttingDown)
    (fun _ entry h => (keep_shuttingDown entry).trans h) (fun _ _ h => h) now _ rfl

theorem Consistent.afterPromote (hgood : queue.Consistent) : (queue.promote now).Consistent :=
  promoteFrom_keeps (fun _ entry h => h.afterKeep entry) (fun _ _ h => h.of_eq rfl rfl rfl)
    now _ hgood

theorem owed_promote_le : (queue.promote now).owed other ≤ queue.owed other :=
  promoteFrom_keeps (P := fun after => after.owed other ≤ queue.owed other)
    (fun _ entry h => (owed_keep_le entry other).trans h) (fun _ _ h => h) now _ le_rfl

end Promotion

/-! ## Delivery -/

section Delivery

variable {queue after : WorkQueue κ τ} {key : κ}

theorem deliver?_eq_some (hdeliver : queue.deliver? = some (key, after)) :
    ∃ rest, queue.ready = key :: rest ∧
      after = { queue with
        ready := rest
        inFlight := queue.inFlight.insert key
        dirty := queue.dirty.erase key } := by
  unfold deliver? at hdeliver
  split at hdeliver
  next => cases hdeliver
  next first rest hready =>
    cases hdeliver
    exact ⟨rest, hready, rfl⟩

theorem deliver?_eq_none_iff : queue.deliver? = none ↔ queue.ready = [] := by
  unfold deliver?
  split
  next hready => simp [hready]
  next hready => simp [hready]

theorem mem_ready_of_deliver? (hdeliver : queue.deliver? = some (key, after)) :
    key ∈ queue.ready := by
  obtain ⟨rest, hready, -⟩ := deliver?_eq_some hdeliver
  simp [hready]

theorem mem_inFlight_of_deliver? (hdeliver : queue.deliver? = some (key, after)) (other : κ) :
    other ∈ after.inFlight ↔ other = key ∨ other ∈ queue.inFlight := by
  obtain ⟨rest, -, rfl⟩ := deliver?_eq_some hdeliver
  simp [List.mem_insert_iff]

theorem shuttingDown_of_deliver? (hdeliver : queue.deliver? = some (key, after)) :
    after.shuttingDown = queue.shuttingDown := by
  obtain ⟨rest, -, rfl⟩ := deliver?_eq_some hdeliver
  rfl

theorem Consistent.afterDeliver (hgood : queue.Consistent)
    (hdeliver : queue.deliver? = some (key, after)) : after.Consistent := by
  obtain ⟨rest, hready, rfl⟩ := deliver?_eq_some hdeliver
  have hnodup : (key :: rest).Nodup := hready ▸ hgood.ready_nodup
  obtain ⟨hnotRest, hrest⟩ := List.nodup_cons.mp hnodup
  refine ⟨hrest, hgood.dirty_nodup.erase key, hgood.inFlight_nodup.insert, ?_⟩
  intro other
  have hother := hgood.ready_iff other
  rw [hready, List.mem_cons] at hother
  simp only [hgood.dirty_nodup.mem_erase_iff, List.mem_insert_iff]
  by_cases heq : other = key
  · subst heq
    simp [hnotRest]
  · simp only [heq, false_or] at hother
    simp [heq, hother]

/-- A delivery is paid from the account of its key. -/
theorem owed_deliver (hgood : queue.Consistent)
    (hdeliver : queue.deliver? = some (key, after)) (other : κ) :
    after.owed other + (if other = key then 1 else 0) = queue.owed other := by
  have hdirty : key ∈ queue.dirty :=
    ((hgood.ready_iff key).mp (mem_ready_of_deliver? hdeliver)).1
  obtain ⟨rest, hready, rfl⟩ := deliver?_eq_some hdeliver
  simp only [owed, hgood.dirty_nodup.mem_erase_iff]
  by_cases heq : other = key
  · subst heq
    simp only [hdirty, ne_eq, not_true_eq_false, false_and, if_true, if_false]
    omega
  · simp [heq]

theorem Consistent.afterDone (hgood : queue.Consistent) (hflying : key ∈ queue.inFlight) :
    (queue.done key).Consistent := by
  have hnotReady : key ∉ queue.ready := fun hready => hgood.not_inFlight_of_ready hready hflying
  refine ⟨?_, hgood.dirty_nodup, hgood.inFlight_nodup.erase key, ?_⟩
  · by_cases hdirty : key ∈ queue.dirty
    · simpa [done, hdirty, List.nodup_append, hgood.ready_nodup] using
        fun other hother => (ne_of_mem_of_not_mem hother hnotReady)
    · simpa [done, hdirty] using hgood.ready_nodup
  · intro other
    simp only [done, hgood.inFlight_nodup.mem_erase_iff]
    by_cases heq : other = key
    · subst heq
      by_cases hdirty : other ∈ queue.dirty
      · simp [hdirty]
      · simp [hdirty, hnotReady]
    · by_cases hdirty : key ∈ queue.dirty
      · simp [hdirty, heq, hgood.ready_iff other]
      · simp [hdirty, heq, hgood.ready_iff other]

theorem mem_inFlight_done (hgood : queue.Consistent) (other : κ) :
    other ∈ (queue.done key).inFlight ↔ other ≠ key ∧ other ∈ queue.inFlight :=
  hgood.inFlight_nodup.mem_erase_iff

end Delivery

/-! ## Looking for a key -/

section Looking

variable [Sub τ] [OfNat τ 0] [BEq τ] [LT τ] [DecidableLT τ] [LE τ] [DecidableLE τ]
variable [Clock ω τ]

/-- All that a look can do: nothing once the queue shuts down, and otherwise
one promotion, followed by the delivery of a key if one is ready. -/
theorem look_cases {queue after : WorkQueue κ τ} {deadline : Option τ} {clock later : ω}
    {finding : Finding κ τ} (hlook : queue.look deadline clock = (finding, after, later)) :
    (queue.shuttingDown = true ∧ finding = .nothing ∧ after = queue) ∨
      (queue.shuttingDown = false ∧
        ((∃ key, finding = .delivered key ∧
            (queue.promote (Clock.read clock).1).deliver? = some (key, after)) ∨
          ((∀ key, finding ≠ .delivered key) ∧
            after = queue.promote (Clock.read clock).1 ∧ after.ready = []))) := by
  unfold look at hlook
  split at hlook
  next hshut =>
    cases hlook
    exact Or.inl ⟨hshut, rfl, rfl⟩
  next hopen =>
    refine Or.inr ⟨by simpa using hopen, ?_⟩
    simp only at hlook
    split at hlook
    next key rest hdeliver =>
      cases hlook
      exact Or.inl ⟨key, rfl, hdeliver⟩
    next hnone =>
      have hready := deliver?_eq_none_iff.mp hnone
      right
      split at hlook
      next =>
        cases hlook
        exact ⟨by simp, rfl, hready⟩
      next =>
        split at hlook
        next =>
          cases hlook
          exact ⟨by simp, rfl, hready⟩
        next =>
          cases hlook
          exact ⟨by simp, rfl, hready⟩

omit [DecidableEq κ] in
def Finding.key? : Finding κ τ → Option κ
  | .delivered key => some key
  | .nothing | .asleep _ => none

def Receipt.key? : Receipt κ → Option κ
  | .delivered key => some key
  | .nothing | .never => none

/-- From a queue as it was found, a key is delivered or nothing is. -/
inductive Taking (found : WorkQueue κ τ) : Option κ → WorkQueue κ τ → Prop where
  | nothing : Taking found none found
  | delivered {key : κ} {after : WorkQueue κ τ} (hdeliver : found.deliver? = some (key, after)) :
      Taking found (some key) after

theorem look_taking {P : WorkQueue κ τ → Prop}
    (hpromote : ∀ queue now, queue.shuttingDown = false → P queue →
      P (queue.promote now))
    {deadline : Option τ} {queue after : WorkQueue κ τ} {clock later : ω}
    {finding : Finding κ τ} (h : P queue)
    (hlook : queue.look deadline clock = (finding, after, later)) :
    ∃ found, P found ∧ Taking found finding.key? after := by
  rcases look_cases hlook with
    ⟨-, rfl, rfl⟩ | ⟨hopen, ⟨key, rfl, hdeliver⟩ | ⟨hnone, rfl, -⟩⟩
  · exact ⟨_, h, .nothing⟩
  · exact ⟨_, hpromote queue _ hopen h, .delivered hdeliver⟩
  · refine ⟨_, hpromote queue (Clock.read clock).1 hopen h, ?_⟩
    cases finding with
    | delivered key => exact absurd rfl (hnone key)
    | nothing => exact .nothing
    | asleep duration => exact .nothing

/-- What each look of a `get` brings to the next look, or to the end, holds at
the end. -/
theorem getWithin_keeps {P : WorkQueue κ τ → ω → Prop}
    {Q : Receipt κ → WorkQueue κ τ → ω → Prop} {deadline : Option τ}
    (hnever : ∀ queue clock, P queue clock → Q .never queue clock)
    (hlook : ∀ queue clock finding after later, P queue clock →
      queue.look deadline clock = (finding, after, later) →
        match finding with
        | .delivered key => Q (.delivered key) after later
        | .nothing => Q .nothing after later
        | .asleep duration => P after (Clock.sleep duration later))
    {turns : Nat} {queue after : WorkQueue κ τ} {clock later : ω} {receipt : Receipt κ}
    (hstart : P queue clock)
    (hget : getWithin deadline turns queue clock = (receipt, after, later)) :
    Q receipt after later := by
  induction turns generalizing queue clock with
  | zero =>
      simp only [getWithin, Prod.mk.injEq] at hget
      obtain ⟨rfl, rfl, rfl⟩ := hget
      exact hnever _ _ hstart
  | succ turns ih =>
      unfold getWithin at hget
      cases hseen : queue.look deadline clock with
      | mk finding rest =>
          obtain ⟨seen, now⟩ := rest
          have hnext := hlook queue clock finding seen now hstart hseen
          rw [hseen] at hget
          cases finding with
          | delivered key =>
              cases hget
              exact hnext
          | nothing =>
              cases hget
              exact hnext
          | asleep duration =>
              cases duration with
              | none =>
                  cases hget
                  exact hnever _ _ hnext
              | some duration => exact ih hnext hget

theorem getWithin_taking {P : WorkQueue κ τ → Prop}
    (hpromote : ∀ queue now, queue.shuttingDown = false → P queue →
      P (queue.promote now))
    {deadline : Option τ} {turns : Nat} {queue after : WorkQueue κ τ} {clock later : ω}
    {receipt : Receipt κ} (h : P queue)
    (hget : getWithin deadline turns queue clock = (receipt, after, later)) :
    ∃ found, P found ∧ Taking found receipt.key? after := by
  refine getWithin_keeps (P := fun queue _ => P queue)
    (Q := fun receipt after _ => ∃ found, P found ∧ Taking found receipt.key? after) ?_ ?_ h hget
  · intro queue clock hqueue
    exact ⟨queue, hqueue, .nothing⟩
  · intro queue clock finding after later hqueue hlook
    have htaking := look_taking hpromote hqueue hlook
    cases finding with
    | delivered key => exact htaking
    | nothing => exact htaking
    | asleep duration =>
        obtain ⟨found, hfound, hnothing⟩ := htaking
        cases hnothing
        exact hfound

theorem get_taking [Add τ] {P : WorkQueue κ τ → Prop}
    (hpromote : ∀ queue now, queue.shuttingDown = false → P queue →
      P (queue.promote now))
    {timeout : Option τ} {queue after : WorkQueue κ τ} {clock later : ω}
    {receipt : Receipt κ} (h : P queue)
    (hget : queue.get timeout clock = (receipt, after, later)) :
    ∃ found, P found ∧ Taking found receipt.key? after := by
  unfold get at hget
  cases timeout with
  | none => exact getWithin_taking hpromote h hget
  | some duration => exact getWithin_taking hpromote h hget

end Looking

/-! ## What a taking keeps -/

section Taking

variable {found after : WorkQueue κ τ} {taken : Option κ}

theorem Taking.consistent (htaking : Taking found taken after) (hgood : found.Consistent) :
    after.Consistent := by
  cases htaking with
  | nothing => exact hgood
  | delivered hdeliver => exact hgood.afterDeliver hdeliver

theorem Taking.mem_inFlight (htaking : Taking found taken after) (key : κ) :
    key ∈ after.inFlight ↔ taken = some key ∨ key ∈ found.inFlight := by
  cases htaking with
  | nothing => simp
  | delivered hdeliver => simp [mem_inFlight_of_deliver? hdeliver, eq_comm]

theorem Taking.not_inFlight (htaking : Taking found taken after) (hgood : found.Consistent)
    {key : κ} (htaken : taken = some key) : key ∉ found.inFlight := by
  cases htaking with
  | nothing => cases htaken
  | delivered hdeliver =>
      cases htaken
      exact hgood.not_inFlight_of_ready (mem_ready_of_deliver? hdeliver)

theorem count_toList_some (key other : κ) :
    (some key).toList.count other = if other = key then 1 else 0 := by
  by_cases heq : other = key
  · simp [heq]
  · simp [heq, Ne.symm heq]

theorem Taking.owed (htaking : Taking found taken after) (hgood : found.Consistent) (key : κ) :
    after.owed key + taken.toList.count key = found.owed key := by
  cases htaking with
  | nothing => simp
  | delivered hdeliver => rw [count_toList_some, owed_deliver hgood hdeliver key]

end Taking

end OneShot.WorkQueue
