import OneShot.Proofs.Queue.Pledges
import OneShot.Queue.Dispatch

/-!
# Settling keeps the queue together

Requests for keys, and the settling of a pass, take no key and forget none:
what was dirty or waiting is so afterwards.  A pass that did not come to a good
end, or that asks for another one, leaves its own key dirty or waiting.
-/

namespace OneShot.WorkQueue

variable {κ τ ω : Type} [DecidableEq κ]

def Expects (queue : WorkQueue κ τ) (key : κ) : Prop :=
  queue.Pledged (fun _ => True) key

/-- A change of the queue by which no key is taken or forgotten. -/
structure Keeps (before after : WorkQueue κ τ) : Prop where
  consistent : before.Consistent → after.Consistent
  inFlight : after.inFlight = before.inFlight
  shuttingDown : after.shuttingDown = before.shuttingDown
  expects : ∀ key, before.Expects key → after.Expects key

variable {first second third queue : WorkQueue κ τ}

theorem Keeps.refl (queue : WorkQueue κ τ) : queue.Keeps queue :=
  ⟨id, rfl, rfl, fun _ h => h⟩

theorem Keeps.trans (h : first.Keeps second) (h' : second.Keeps third) : first.Keeps third where
  consistent hgood := h'.consistent (h.consistent hgood)
  inFlight := h'.inFlight.trans h.inFlight
  shuttingDown := h'.shuttingDown.trans h.shuttingDown
  expects key hexpects := h'.expects key (h.expects key hexpects)

theorem add_keeps (queue : WorkQueue κ τ) (key : κ) : queue.Keeps (queue.add key) :=
  ⟨fun hgood => hgood.afterAdd key, add_inFlight key, add_shuttingDown key,
    fun _ hexpects => hexpects.afterAdd key⟩

theorem foldl_add_keeps (keys : List κ) (queue : WorkQueue κ τ) :
    queue.Keeps (keys.foldl add queue) := by
  induction keys generalizing queue with
  | nil => exact .refl queue
  | cons key rest ih => exact (add_keeps queue key).trans (ih (queue.add key))

theorem foldl_add_expects {keys : List κ} {key : κ} (hkey : key ∈ keys)
    (hopen : queue.shuttingDown = false) : (keys.foldl add queue).Expects key := by
  induction keys generalizing queue with
  | nil => cases hkey
  | cons other rest ih =>
      rw [List.foldl_cons]
      rcases List.mem_cons.mp hkey with rfl | hrest
      · exact (foldl_add_keeps rest (queue.add key)).expects key
          (Or.inl (mem_dirty_add hopen key))
      · exact ih hrest ((add_shuttingDown other).trans hopen)

theorem forget_keeps (queue : WorkQueue κ τ) (key : κ) : queue.Keeps (queue.forget key) :=
  ⟨fun hgood => hgood.of_eq rfl rfl rfl, rfl, rfl, fun _ hexpects => hexpects.of_eq rfl rfl⟩

section Delays

variable [Add τ] [OfNat τ 0] [LT τ] [DecidableLT τ] [LE τ] [DecidableLE τ] [Clock ω τ]
variable (key : κ) (delay : τ) (clock : ω)

omit [Add τ] [OfNat τ 0] in
theorem appoint_keeps (queue : WorkQueue κ τ) (moment : τ) :
    queue.Keeps (queue.appoint key moment) :=
  ⟨fun hgood => hgood.afterAppoint key moment, appoint_inFlight key moment,
    appoint_shuttingDown key moment,
    fun _ hexpects => hexpects.afterAppoint (fun _ _ _ _ => trivial) key⟩

theorem addAfter_keeps (queue : WorkQueue κ τ) :
    queue.Keeps (queue.addAfter key delay clock).1 := by
  rcases addAfter_cases queue key delay clock with ⟨-, h⟩ | ⟨-, h⟩ | ⟨-, -, h⟩
  · rw [h]
    exact add_keeps queue key
  · rw [h]
    exact .refl queue
  · rw [h]
    exact appoint_keeps key queue _

theorem addAfter_expects (hopen : queue.shuttingDown = false) :
    (queue.addAfter key delay clock).1.Expects key := by
  rcases addAfter_cases queue key delay clock with ⟨-, h⟩ | ⟨hshut, -⟩ | ⟨-, -, h⟩
  · rw [h]
    exact Or.inl (mem_dirty_add hopen key)
  · rw [hopen] at hshut
    cases hshut
  · rw [h]
    exact appoint_pledged queue key trivial fun _ _ => trivial

theorem addRateLimited_keeps (queue : WorkQueue κ τ) :
    queue.Keeps (queue.addRateLimited key clock).1 := by
  have hcounted : queue.Keeps { queue with limiter := (queue.limiter.fail key).2 } :=
    ⟨fun hgood => hgood.of_eq rfl rfl rfl, rfl, rfl, fun _ h => h.of_eq rfl rfl⟩
  exact hcounted.trans (addAfter_keeps key (queue.limiter.fail key).1 clock _)

theorem addRateLimited_expects (hopen : queue.shuttingDown = false) :
    (queue.addRateLimited key clock).1.Expects key := by
  have hsame : ({ queue with limiter := (queue.limiter.fail key).2 } :
      WorkQueue κ τ).shuttingDown = false := hopen
  exact addAfter_expects key (queue.limiter.fail key).1 clock hsame

theorem settle_keeps (queue : WorkQueue κ τ) (policy : DispatchPolicy τ)
    (outcome : PassOutcome τ) : queue.Keeps (queue.settle policy key outcome clock).1 := by
  cases outcome with
  | conflict => exact addAfter_keeps key policy.conflictDelay clock queue
  | failed =>
      have hdropped : ∀ dropped : Bool, queue.Keeps
          (if dropped then (queue.forget key, clock) else queue.addRateLimited key clock).1 := by
        intro dropped
        cases dropped with
        | true => exact forget_keeps queue key
        | false => exact addRateLimited_keeps key clock queue
      exact hdropped _
  | finished followUp =>
      cases followUp with
      | none => exact forget_keeps queue key
      | some delay =>
          exact (forget_keeps queue key).trans (addAfter_keeps key delay clock (queue.forget key))

/-- Unless a pass has come to its end for good, its key is expected again. -/
theorem settle_expects {policy : DispatchPolicy τ} (hretries : policy.maxRetries = none)
    {outcome : PassOutcome τ} (houtcome : outcome ≠ .finished none)
    (hopen : queue.shuttingDown = false) :
    (queue.settle policy key outcome clock).1.Expects key := by
  cases outcome with
  | conflict => exact addAfter_expects key policy.conflictDelay clock hopen
  | failed =>
      simp only [settle, hretries, Bool.false_eq_true, if_false]
      exact addRateLimited_expects key clock hopen
  | finished followUp =>
      cases followUp with
      | none => exact absurd rfl houtcome
      | some delay =>
          have hsame : (queue.forget key).shuttingDown = false := hopen
          exact addAfter_expects key delay clock hsame

end Delays

end OneShot.WorkQueue
