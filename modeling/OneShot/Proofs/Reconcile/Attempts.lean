import OneShot.Proofs.Store.Changes
import OneShot.Proofs.Resource.Phases
import OneShot.Reconcile.Pass

/-!
# Single calls of a pass

Passes are interleaved with other clients between their calls.  A call may
fail: before it reaches the store, or on the way back, when the store has
carried it out but the caller is told of a fault.  What a pass goes on with
after a call is said here once for each stage.
-/

namespace OneShot

open Calendar

/-- What goes wrong with a call. -/
inductive Mishap where
  | nothing
  /-- The call does not reach the store. -/
  | unsent (fault : Fault)
  /-- The store carries the call out, but its answer is lost. -/
  | unheard (fault : Fault)
  deriving Repr, DecidableEq

/-- Whether the store gets to carry out the call. -/
def Mishap.reaches : Mishap → Bool
  | nothing | unheard _ => true
  | unsent _ => false

namespace Store

/-- Answer a call with which something may go wrong. -/
def attempt (store : Store) (now : DateTime) (call : Call) : Mishap → Effect call.Reply
  | .nothing => store.serve now call
  | .unsent fault => store.refuse fault
  | .unheard fault =>
      { answer := .error fault
        store := (store.serve now call).store
        events := (store.serve now call).events }

variable (store : Store) (now : DateTime) (call : Call) (mishap : Mishap)

theorem attempt_cases :
    (∃ fault, (store.attempt now call mishap).answer = .error fault ∧
        (store.attempt now call mishap).Quiet store) ∨
      (mishap.reaches = true ∧
        (store.attempt now call mishap).store = (store.serve now call).store ∧
        (store.attempt now call mishap).events = (store.serve now call).events) := by
  cases mishap with
  | nothing => exact Or.inr ⟨rfl, rfl, rfl⟩
  | unsent fault => exact Or.inl ⟨fault, rfl, store.refuse_quiet fault⟩
  | unheard fault => exact Or.inr ⟨rfl, rfl, rfl⟩

/-- Either nothing is stored, or what the call stores. -/
theorem attempt_store_cases :
    (store.attempt now call mishap).store = store ∨
      (store.attempt now call mishap).store = (store.serve now call).store := by
  cases mishap with
  | nothing => exact Or.inr rfl
  | unsent fault => exact Or.inl rfl
  | unheard fault => exact Or.inr rfl

theorem attempt_eq_ok {reply : call.Reply}
    (h : (store.attempt now call mishap).answer = .ok reply) :
    mishap = .nothing ∧ (store.serve now call).answer = .ok reply := by
  cases mishap with
  | nothing => exact ⟨rfl, h⟩
  | unsent fault => cases h
  | unheard fault => cases h

end Store

/-! ## What a pass goes on with -/

namespace Pass

/-- The command that a stage works on, once it has been read. -/
def Stage.resource? : Stage → Option At
  | read _ => none
  | findTask resource | launch resource | store resource _ => some resource

variable {now : DateTime} {resource : At} {reached : AtPhase} {following : Stage}

theorem checkForward_eq_ok {previous : String} (h : checkForward resource previous = .ok ()) :
    AtPhase.isForward previous resource.phase = true := by
  unfold checkForward at h
  split at h
  next hforward => exact hforward
  next => cases h

/-- A phase is only ever stored over one of a strictly lower position. -/
theorem reach_goOn (hset : reached ≠ .unset) (h : reach resource reached = .goOn following) :
    following = .store resource reached ∧ AtPhase.Advances resource.phase reached.text := by
  unfold reach at h
  split at h
  next => cases h
  next hmoved =>
    split at h
    next hforward =>
      cases h
      refine ⟨rfl, ?_⟩
      have hle := checkForward_eq_ok hforward
      unfold AtPhase.isForward at hle
      simp only [inPhase, AtPhase.rank?_text] at hle
      split at hle
      next earlier later hearlier hlater =>
        cases hlater
        refine ⟨earlier, reached.position, hearlier, AtPhase.rank?_text reached, ?_⟩
        refine lt_of_le_of_ne (of_decide_eq_true hle) fun heq => ?_
        -- A phase of the same position is the one in which the pass started.
        rw [heq] at hearlier
        have hsame := AtPhase.text_of_rank? hearlier
        apply hmoved
        rw [hsame, startPhase]
        cases reached with
        | unset => exact absurd rfl hset
        | pending | running | done => rfl
      next => cases hle
    next => cases h

theorem waitOrLaunch_goOn (h : waitOrLaunch resource now = .goOn following) :
    following = .findTask resource := by
  unfold waitOrLaunch at h
  split at h
  · cases h
  · cases h
  · split at h
    · cases h
    · cases h; rfl

theorem afterRead_goOn {answer : Except Fault At} (h : afterRead now answer = .goOn following) :
    ∃ resource, answer = .ok resource ∧ following = .findTask resource := by
  cases answer with
  | error fault =>
      simp only [afterRead] at h
      split at h <;> cases h
  | ok resource =>
      refine ⟨resource, rfl, ?_⟩
      simp only [afterRead] at h
      split at h
      next => exact waitOrLaunch_goOn h
      next => exact waitOrLaunch_goOn h
      next => cases h; rfl
      next => cases h
      next => cases h

/-- The phase that a command reaches for the task that was found. -/
def reachedBy (task : Task) : AtPhase :=
  if task.status.phase.isTerminal then .done else .running

theorem reachedBy_cases (task : Task) : reachedBy task = .running ∨ reachedBy task = .done := by
  unfold reachedBy
  split
  next => exact Or.inr rfl
  next => exact Or.inl rfl

theorem isTerminal_of_reachedBy {task : Task} (hdone : reachedBy task = .done) :
    task.status.phase.isTerminal = true := by
  unfold reachedBy at hdone
  split at hdone
  next hterminal => exact hterminal
  next => cases hdone

theorem afterFindTask_ok (resource : At) (task : Task) :
    afterFindTask resource (.ok task) = reach resource (reachedBy task) := by
  simp only [afterFindTask, reachedBy]
  split <;> rfl

theorem afterFindTask_goOn {answer : Except Fault Task}
    (h : afterFindTask resource answer = .goOn following) :
    following = .launch resource ∨
      ∃ reached, following = .store resource reached ∧
        AtPhase.Advances resource.phase reached.text := by
  cases answer with
  | error fault =>
      simp only [afterFindTask] at h
      split at h
      next => cases h; exact Or.inl rfl
      next => cases h
  | ok task =>
      simp only [afterFindTask] at h
      split at h
      next => exact Or.inr ⟨.done, reach_goOn (by decide) h⟩
      next => exact Or.inr ⟨.running, reach_goOn (by decide) h⟩

theorem afterLaunch_goOn {answer : Except Fault Task}
    (h : afterLaunch resource answer = .goOn following) :
    ∃ reached, following = .store resource reached ∧
      AtPhase.Advances resource.phase reached.text := by
  cases answer with
  | error fault =>
      simp only [afterLaunch] at h
      split at h
      next => exact ⟨.running, reach_goOn (by decide) h⟩
      next => cases h
  | ok task => exact ⟨.running, reach_goOn (by decide) h⟩

theorem afterStore_goOn {answer : Except Fault At} : afterStore answer ≠ .goOn following := by
  cases answer <;> simp [afterStore]

/-! ## A pass to its end -/

section Running

variable {σ τ : Type} [Sub τ] [OfNat τ 0] [LE τ] [DecidableLE τ] [Clock σ τ]

/-- What the answer to a call leaves of a pass: another stage, or its end. -/
def Progress.Meets (P : Stage → Prop) (Q : Except Fault Result → Prop) :
    Progress → Prop
  | .goOn following => P following
  | .finished result => Q (.ok result)
  | .failed fault => Q (.error fault)

/-- What holds before a stage of a pass, and is brought by each call to the
next stage or to the end, holds at the end of the pass. -/
theorem runFrom_keeps {client : Client σ τ} {now : σ → DateTime} {deadline : Deadline τ}
    {P : Stage → σ → Prop} {Q : Except Fault Result → σ → Prop}
    (hexpired : ∀ stage state expired later, P stage state →
      deadline.remaining state = (.error expired, later) →
        Q (.error (.timedOut .expired)) later)
    (hcall : ∀ stage state limit later, P stage state →
      deadline.remaining state = (.ok limit, later) →
        let reply := client stage.call (.stated limit) later
        (stage.next (now reply.2) reply.1).Meets (P · reply.2) (Q · reply.2))
    {stage : Stage} {state : σ} (hstart : P stage state) :
    Q (runFrom client now deadline stage state).1
      (runFrom client now deadline stage state).2 := by
  induction hheight : stage.height using Nat.strong_induction_on generalizing stage state with
  | _ height ih =>
      unfold runFrom
      cases hleft : deadline.remaining state with
      | mk left later =>
          cases left with
          | error expired => exact hexpired stage state expired later hstart hleft
          | ok limit =>
              have hmeets := hcall stage state limit later hstart hleft
              simp only at hmeets ⊢
              split
              next following hgo =>
                rw [hgo] at hmeets
                exact ih following.height (hheight ▸ Stage.next_height hgo) hmeets rfl
              next result hfinished =>
                rw [hfinished] at hmeets
                exact hmeets
              next fault hfailed =>
                rw [hfailed] at hmeets
                exact hmeets

end Running

end Pass

end OneShot
