import OneShot.Proofs.Queue.History
import OneShot.Queue.Dispatch

/-!
# One worker for each key

The workers of a dispatcher take keys from one queue, settle what came of them
and give them back, while others add keys in between.  A key is with one worker
at most from its delivery until it is given back: what a worker holds is in
flight, and only a key that is not in flight is ready.
-/

namespace OneShot

variable {ι κ τ ω : Type} [DecidableEq ι] [DecidableEq κ]

/-! ## What workers hold -/

/-- The workers hold keys in flight, and no two of them hold the same. -/
structure Staffed (queue : WorkQueue κ τ) (holds : ι → Option κ) : Prop where
  inFlight : ∀ worker key, holds worker = some key → key ∈ queue.inFlight
  single : ∀ one other key, holds one = some key → holds other = some key → one = other

omit [DecidableEq ι] [DecidableEq κ] in
theorem staffed_nobody (queue : WorkQueue κ τ) :
    Staffed queue (fun _ : ι => (none : Option κ)) := by
  constructor <;> simp

omit [DecidableEq ι] [DecidableEq κ] in
theorem Staffed.of_eq {queue changed : WorkQueue κ τ} {holds : ι → Option κ}
    (hstaffed : Staffed queue holds) (hsame : changed.inFlight = queue.inFlight) :
    Staffed changed holds :=
  ⟨fun worker key hholds => hsame ▸ hstaffed.inFlight worker key hholds, hstaffed.single⟩

theorem Staffed.afterTaking {found after : WorkQueue κ τ} {holds : ι → Option κ}
    {taken : Option κ} (hstaffed : Staffed found holds) (hgood : found.Consistent)
    (htaking : found.Taking taken after) (worker : ι) :
    Staffed after (Function.update holds worker taken) := by
  have hnobody : ∀ other key, taken = some key → holds other ≠ some key :=
    fun other key htaken hholds =>
      htaking.not_inFlight hgood htaken (hstaffed.inFlight other key hholds)
  constructor
  · intro other key hholds
    rw [htaking.mem_inFlight]
    by_cases heq : other = worker
    · subst heq
      exact Or.inl (by simpa using hholds)
    · exact Or.inr (hstaffed.inFlight other key (by simpa [heq] using hholds))
  · intro one other key hone hother
    by_cases h1 : one = worker
    · by_cases h2 : other = worker
      · rw [h1, h2]
      · subst h1
        exact absurd (by simpa [h2] using hother) (hnobody other key (by simpa using hone))
    · by_cases h2 : other = worker
      · subst h2
        exact absurd (by simpa [h1] using hone) (hnobody one key (by simpa using hother))
      · exact hstaffed.single one other key (by simpa [h1] using hone)
          (by simpa [h2] using hother)

theorem Staffed.afterDone {queue : WorkQueue κ τ} {holds : ι → Option κ}
    (hstaffed : Staffed queue holds) (hgood : queue.Consistent) {worker : ι} {key : κ}
    (hholds : holds worker = some key) :
    Staffed (queue.done key) (Function.update holds worker none) := by
  constructor
  · intro other held hother
    by_cases heq : other = worker
    · subst heq
      simp at hother
    · have hheld : holds other = some held := by simpa [heq] using hother
      rw [WorkQueue.mem_inFlight_done hgood]
      refine ⟨?_, hstaffed.inFlight other held hheld⟩
      rintro rfl
      exact heq (hstaffed.single other worker held hheld hholds)
  · intro one other held hone hother
    by_cases h1 : one = worker
    · subst h1
      simp at hone
    · by_cases h2 : other = worker
      · subst h2
        simp at hother
      · exact hstaffed.single one other held (by simpa [h1] using hone)
          (by simpa [h2] using hother)

/-! ## Settling as requests -/

/-- Whether a failure of a key is one too many. -/
def WorkQueue.drops (queue : WorkQueue κ τ) (policy : DispatchPolicy τ) (key : κ) : Bool :=
  match policy.maxRetries with
  | some limit => decide (limit ≤ queue.numRequeues key)
  | none => false

/-- The requests by which a worker settles the outcome of a pass. -/
def WorkQueue.settlement (queue : WorkQueue κ τ) (policy : DispatchPolicy τ) (key : κ) :
    PassOutcome τ → List (QueueRequest κ τ ω)
  | .conflict => [.addAfter key policy.conflictDelay]
  | .failed => if queue.drops policy key then [.forget key] else [.addRateLimited key]
  | .finished none => [.forget key]
  | .finished (some delay) => [.forget key, .addAfter key delay]

/-- A dispatcher with its workers, and the key that each of them holds between
its delivery and its return. -/
structure Crew (ι κ τ ω : Type) where
  history : History κ τ ω
  holds : ι → Option κ := fun _ => none

/-- The moves around a dispatcher. -/
inductive CrewMove (ι κ τ ω : Type) where
  /-- Anybody asks for something. -/
  | request (request : QueueRequest κ τ ω)
  | look (worker : ι) (deadline : Option τ)
  | get (worker : ι) (timeout : Option τ)
  | settle (worker : ι) (outcome : PassOutcome τ)
  | giveBack (worker : ι)

namespace Crew

/-- The history is sound, and the workers hold what they have been handed. -/
structure Sound (crew : Crew ι κ τ ω) : Prop where
  history : crew.history.Sound
  staffed : Staffed crew.history.queue crew.holds

theorem Sound.afterTaking {crew : Crew ι κ τ ω} (hsound : crew.Sound)
    {found : WorkQueue κ τ} {taken : Option κ} {history : History κ τ ω}
    (hready : crew.history.Ready found) (htaking : found.Taking taken history.queue)
    (hhistory : history.Sound) (worker : ι) :
    Sound { history, holds := Function.update crew.holds worker taken } :=
  ⟨hhistory, (hsound.staffed.of_eq hready.inFlight).afterTaking hready.consistent htaking worker⟩

end Crew

section Steps

variable [Add τ] [OfNat τ 0] [LT τ] [DecidableLT τ] [LE τ] [DecidableLE τ] [Clock ω τ]

/-- Settling is carrying out the requests, one after the other. -/
theorem WorkQueue.settle_eq_settlement (queue : WorkQueue κ τ) (policy : DispatchPolicy τ)
    (key : κ) (outcome : PassOutcome τ) (clock : ω) :
    queue.settle policy key outcome clock =
      (queue.settlement policy key outcome).foldl
        (fun after request => request.apply after.1 after.2) (queue, clock) := by
  cases outcome with
  | conflict => rfl
  | failed =>
      unfold settle settlement drops
      cases policy.maxRetries with
      | none => rfl
      | some limit =>
          by_cases hle : limit ≤ queue.numRequeues key
          · simp [hle, QueueRequest.apply]
          · simp [hle, QueueRequest.apply]
  | finished followUp => cases followUp <;> rfl

namespace Crew

/-- The crew of a queue that nobody has used. -/
def start (limiter : Backoff κ τ) (clock : ω) : Crew ι κ τ ω :=
  { history := .start limiter clock }

omit [DecidableEq ι] in
theorem Sound.afterRequest {crew : Crew ι κ τ ω} (hsound : crew.Sound)
    (request : QueueRequest κ τ ω) :
    Sound { crew with history := crew.history.request request } :=
  ⟨hsound.history.afterRequest request,
    hsound.staffed.of_eq (WorkQueue.apply_inFlight crew.history.clock request)⟩

omit [DecidableEq ι] in
theorem Sound.afterRequests {crew : Crew ι κ τ ω} (hsound : crew.Sound)
    (requests : List (QueueRequest κ τ ω)) :
    Sound { crew with history := requests.foldl History.request crew.history } := by
  induction requests generalizing crew with
  | nil => exact hsound
  | cons request rest ih => exact ih (hsound.afterRequest request)

variable [Sub τ] [BEq τ]

/-- What follows a move.  A worker takes a key only while it holds none, and
settles and gives back the one that it holds. -/
def step? (policy : DispatchPolicy τ) (crew : Crew ι κ τ ω) :
    CrewMove ι κ τ ω → Option (Crew ι κ τ ω)
  | .request request => some { crew with history := crew.history.request request }
  | .look worker deadline =>
      match crew.holds worker with
      | some _ => none
      | none =>
          let (taken, history) := crew.history.look deadline
          some { history, holds := Function.update crew.holds worker taken }
  | .get worker timeout =>
      match crew.holds worker with
      | some _ => none
      | none =>
          let (taken, history) := crew.history.get timeout
          some { history, holds := Function.update crew.holds worker taken }
  | .settle worker outcome =>
      (crew.holds worker).map fun key =>
        { crew with
          history :=
            (crew.history.queue.settlement policy key outcome).foldl History.request
              crew.history }
  | .giveBack worker =>
      (crew.holds worker).map fun key =>
        { history := crew.history.giveBack key
          holds := Function.update crew.holds worker none }

theorem Sound.afterStep {policy : DispatchPolicy τ} {crew next : Crew ι κ τ ω}
    (hsound : crew.Sound) (move : CrewMove ι κ τ ω) (hstep : crew.step? policy move = some next) :
    next.Sound := by
  cases move with
  | request request =>
      cases hstep
      exact hsound.afterRequest request
  | look worker deadline =>
      simp only [step?] at hstep
      split at hstep
      next => cases hstep
      next =>
        cases hstep
        obtain ⟨found, hready, htaking⟩ := hsound.history.look_taking deadline
        exact hsound.afterTaking hready htaking (hsound.history.afterLook deadline) worker
  | get worker timeout =>
      simp only [step?] at hstep
      split at hstep
      next => cases hstep
      next =>
        cases hstep
        obtain ⟨found, hready, htaking⟩ := hsound.history.get_taking timeout
        exact hsound.afterTaking hready htaking (hsound.history.afterGet timeout) worker
  | settle worker outcome =>
      obtain ⟨key, -, rfl⟩ := Option.map_eq_some_iff.mp hstep
      exact hsound.afterRequests _
  | giveBack worker =>
      obtain ⟨key, hholds, rfl⟩ := Option.map_eq_some_iff.mp hstep
      exact ⟨hsound.history.afterGiveBack (hsound.staffed.inFlight worker key hholds),
        hsound.staffed.afterDone hsound.history.consistent hholds⟩

theorem play_crew_sound {policy : DispatchPolicy τ} {limiter : Backoff κ τ} {clock : ω}
    {moves : List (CrewMove ι κ τ ω)} {crew : Crew ι κ τ ω}
    (hplay : play (step? policy) (start limiter clock) moves = some crew) : crew.Sound :=
  play_keeps (fun _ move _ h hstep => h.afterStep move hstep)
    ⟨History.start_sound limiter clock, staffed_nobody _⟩ hplay

/-- Only a move by which a worker takes a key changes what other workers hold:
it leaves them as they are. -/
theorem step?_holds_of_taken {policy : DispatchPolicy τ} {crew next : Crew ι κ τ ω}
    {move : CrewMove ι κ τ ω} (hstep : crew.step? policy move = some next) {worker : ι} {key : κ}
    (hbefore : crew.holds worker ≠ some key) (hafter : next.holds worker = some key) :
    crew.holds worker = none ∧ ∀ other, other ≠ worker → next.holds other = crew.holds other := by
  have hupdate : ∀ (mover : ι) (taken : Option κ), crew.holds mover = none →
      next.holds = Function.update crew.holds mover taken →
      crew.holds worker = none ∧
        ∀ other, other ≠ worker → next.holds other = crew.holds other := by
    intro mover taken hfree hholds
    have heq : worker = mover := by
      by_contra hne
      exact hbefore (by simpa [hholds, hne] using hafter)
    subst heq
    exact ⟨hfree, fun other hne => by simp [hholds, hne]⟩
  cases move with
  | request request =>
      cases hstep
      exact absurd hafter hbefore
  | look mover deadline =>
      simp only [step?] at hstep
      split at hstep
      next => cases hstep
      next hfree =>
        cases hstep
        exact hupdate mover _ hfree rfl
  | get mover timeout =>
      simp only [step?] at hstep
      split at hstep
      next => cases hstep
      next hfree =>
        cases hstep
        exact hupdate mover _ hfree rfl
  | settle mover outcome =>
      obtain ⟨held, -, rfl⟩ := Option.map_eq_some_iff.mp hstep
      exact absurd hafter hbefore
  | giveBack mover =>
      obtain ⟨held, -, rfl⟩ := Option.map_eq_some_iff.mp hstep
      by_cases heq : worker = mover
      · subst heq
        simp at hafter
      · exact absurd (by simpa [heq] using hafter) hbefore

end Crew

/-! ## The main statement -/

/-- In every order of the sections of a queue no key is ready twice, no ready
key is in flight, the ready keys are the dirty ones that are not in flight, and
no key is handed out more often than it was asked for.  Hence, in every
interleaving of any number of workers with anybody's requests, a key that a
worker takes is held by nobody, no two workers hold the same key, and the
deliveries of a key do not outnumber the requests for it. -/
theorem deliveries_exclusive_and_paid [Sub τ] [BEq τ] (workers : Type) [DecidableEq workers]
    (limiter : Backoff κ τ) (clock : ω) (policy : DispatchPolicy τ) :
    (∀ (operations : List (Operation κ τ ω)) (history : History κ τ ω),
      play History.step? (.start limiter clock) operations = some history →
        history.queue.ready.Nodup ∧
          (∀ key ∈ history.queue.ready, key ∉ history.queue.inFlight) ∧
          (∀ key, key ∈ history.queue.dirty ∧ key ∉ history.queue.inFlight ↔
            key ∈ history.queue.ready) ∧
          ∀ key, history.handed.count key ≤ history.asked.count key) ∧
      ∀ (moves : List (CrewMove workers κ τ ω)) (crew : Crew workers κ τ ω),
        play (Crew.step? policy) (.start limiter clock) moves = some crew →
          (∀ move next worker key, crew.step? policy move = some next →
            crew.holds worker ≠ some key → next.holds worker = some key →
              ∀ other, crew.holds other ≠ some key) ∧
            (∀ one other key, crew.holds one = some key → crew.holds other = some key →
              one = other) ∧
            ∀ key, crew.history.handed.count key ≤ crew.history.asked.count key := by
  refine ⟨fun operations history hplay => ?_, fun moves crew hplay => ⟨?_, ?_, ?_⟩⟩
  · have hsound := History.play_sound hplay
    have hgood := hsound.consistent
    refine ⟨hgood.ready_nodup, fun key => hgood.not_inFlight_of_ready,
      fun key => (hgood.ready_iff key).symm, fun key => ?_⟩
    have hpaid := hsound.paid key
    omega
  · intro move next worker key hstep hbefore hafter other hother
    have hnext := (Crew.play_crew_sound hplay).afterStep move hstep
    obtain ⟨hfree, hframe⟩ := Crew.step?_holds_of_taken hstep hbefore hafter
    have hne : other ≠ worker := by
      rintro rfl
      rw [hfree] at hother
      cases hother
    have hstill : next.holds other = some key := (hframe other hne).trans hother
    exact hne (hnext.staffed.single other worker key hstill hafter)
  · exact (Crew.play_crew_sound hplay).staffed.single
  · intro key
    have hpaid := (Crew.play_crew_sound hplay).history.paid key
    omega

/-- A key that is asked for again while a worker holds it stays with that worker
until it is given back; a second worker that looks meanwhile gets nothing. -/
theorem deliveries_exclusive_and_paid_of_readded :
    let limiter : Backoff Nat Int := { base := 1, maximum := 300 }
    let clock : HandClock Int := ⟨0⟩
    let policy : DispatchPolicy Int := { conflictDelay := 0 }
    let operations : List (Operation Nat Int (HandClock Int)) :=
      [.request (.add 7), .look none, .request (.addAfter 7 2), .request (.tick ⟨5⟩),
        .look none, .done 7, .get (some 1)]
    let moves : List (CrewMove Bool Nat Int (HandClock Int)) :=
      [.request (.add 7), .look true none, .request (.add 7), .look false none]
    (∃ history, play History.step? (.start limiter clock) operations = some history ∧
        history.queue.inFlight = [7] ∧ history.handed.count 7 = 2 ∧
        history.handed.count 7 ≤ history.asked.count 7) ∧
      ∃ crew, play (Crew.step? policy) (.start limiter clock) moves = some crew ∧
        crew.holds true = some 7 ∧
        ∀ other, crew.holds other = some 7 → true = other := by
  intro limiter clock policy operations moves
  have hboth := deliveries_exclusive_and_paid Bool limiter clock policy
  obtain ⟨history, hhistory⟩ :
      ∃ history, play History.step? (.start limiter clock) operations = some history :=
    Option.isSome_iff_exists.mp (by decide +kernel)
  obtain ⟨crew, hcrew⟩ :
      ∃ crew, play (Crew.step? policy) (.start limiter clock) moves = some crew :=
    Option.isSome_iff_exists.mp (by decide +kernel)
  have hend : history.queue.inFlight = [7] ∧ history.handed.count 7 = 2 := by
    have hrun : (play History.step? (.start limiter clock) operations).any (fun history =>
        decide (history.queue.inFlight = [7] ∧ history.handed.count 7 = 2)) = true := by
      decide +kernel
    rw [hhistory, Option.any_some] at hrun
    exact of_decide_eq_true hrun
  have hholds : crew.holds true = some 7 := by
    have hrun : (play (Crew.step? policy) (.start limiter clock) moves).bind
        (fun crew => crew.holds true) = some 7 := by
      decide +kernel
    rwa [hcrew] at hrun
  refine ⟨⟨history, hhistory, hend.1, hend.2, ?_⟩, ⟨crew, hcrew, hholds, ?_⟩⟩
  · exact (hboth.1 operations history hhistory).2.2.2 7
  · exact fun other hother => (hboth.2 moves crew hcrew).2.1 true other 7 hholds hother

end Steps

end OneShot
