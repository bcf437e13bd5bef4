import OneShot.Proofs.Queue.Books

/-!
# Retries

What the books on a dispatcher say of a single settlement, of the return of a
key, and of the loop body by which a worker handles one key after the other.
-/

namespace OneShot.Books

variable {ι κ ω : Type} [DecidableEq ι] [DecidableEq κ] [Clock ω ℚ]
variable {policy : DispatchPolicy ℚ} {limiter : Backoff κ ℚ} {books next : Books ι κ ω}
  {worker : ι} {key : κ} {outcome : PassOutcome ℚ}

/-! ## What a settlement and a return come to -/

/-- How the outcome of a pass is entered, and by when its key has to come back. -/
def SettledAs (policy : DispatchPolicy ℚ) (limiter : Backoff κ ℚ) (books next : Books ι κ ω)
    (worker : ι) (key : κ) : PassOutcome ℚ → Prop
  | .finished followUp =>
      next.verdicts = (key, .succeeded) :: books.verdicts ∧
        next.settled worker = some (followUp.map (books.present + ·))
  | .conflict =>
      next.verdicts = (key, .conflicted) :: books.verdicts ∧
        next.settled worker = some (some (books.present + policy.conflictDelay))
  | .failed =>
      if policy.maxRetries = some (streak key books.verdicts) then
        next.verdicts = (key, .dropped) :: books.verdicts ∧
          next.settled worker = some none ∧ next.queue = books.queue.forget key
      else
        next.verdicts = (key, .failed) :: books.verdicts ∧
          next.settled worker =
            some (some (books.present + limiter.delay (streak key books.verdicts)))

theorem Kept.settledAs (hkept : books.Kept policy limiter) (worker : ι) (key : κ)
    (outcome : PassOutcome ℚ) :
    SettledAs policy limiter books (books.afterSettling policy worker key outcome) worker key
      outcome := by
  have hsettled : (books.afterSettling policy worker key outcome).settled worker =
      some ((books.queue.returnDelay policy key outcome).map (books.present + ·)) :=
    Function.update_self worker _ _
  cases outcome with
  | finished followUp => exact ⟨rfl, hsettled⟩
  | conflict => exact ⟨rfl, hsettled⟩
  | failed =>
      have hdrops := hkept.drops_iff key
      simp only [SettledAs]
      split
      next hlast =>
        have hdropped := hdrops.mpr hlast
        rw [hsettled, afterSettling_queue, WorkQueue.settle_failed]
        simp only [Books.afterSettling, WorkQueue.verdict, WorkQueue.returnDelay, hdropped, if_true,
          Option.map_none, and_self]
      next hkeeps =>
        have hcounts : books.queue.drops policy key = false :=
          Bool.eq_false_iff.mpr fun h => hkeeps (hdrops.mp h)
        rw [hsettled, ← hkept.counted key, ← hkept.delays]
        simp only [Books.afterSettling, WorkQueue.verdict, WorkQueue.returnDelay, hcounts,
          Bool.false_eq_true, if_false, Option.map_some, and_self]

omit [Clock ω ℚ] in
theorem Kept.returned (hkept : books.Kept policy limiter)
    (hholds : books.crew.holds worker = some key) :
    key ∉ (books.afterReturn worker key).queue.inFlight ∧
      ∀ moment, books.settled worker = some (some moment) →
        key ∈ (books.afterReturn worker key).queue.ready ∨
          ∃ agreed, Assoc.get? (books.afterReturn worker key).queue.waiting key = some agreed ∧
            agreed ≤ moment := by
  have hgood := (hkept.afterReturn hholds).sound.history.consistent
  have hfree : key ∉ (books.afterReturn worker key).queue.inFlight := by
    intro hflying
    exact ((WorkQueue.mem_inFlight_done hkept.sound.history.consistent key).mp hflying).1 rfl
  refine ⟨hfree, ?_⟩
  intro moment hsettled
  have hpledged : (books.afterReturn worker key).queue.Pledged (· ≤ moment) key :=
    (hkept.pledged worker key moment hholds hsettled).of_eq rfl rfl
  rcases hpledged with hdirty | hwaiting
  · exact Or.inl ((hgood.ready_iff key).mpr ⟨hdirty, hfree⟩)
  · exact Or.inr hwaiting

/-! ## One key after the other -/

/-- The passes of a worker: what comes of a pass over a key, and what others ask
of the queue meanwhile. -/
abbrev Passes (κ ω : Type) :=
  κ → Deadline ℚ → List (QueueRequest κ ℚ ω) × PassOutcome ℚ

def Passes.carryOut (passes : Passes κ ω) (key : κ) (deadline : Deadline ℚ)
    (after : WorkQueue κ ℚ × ω) : PassOutcome ℚ × WorkQueue κ ℚ × ω :=
  ((passes key deadline).2,
    (passes key deadline).1.foldl (fun after request => request.apply after.1 after.2) after)

/-- The books after others have asked for something. -/
def afterRequests (books : Books ι κ ω) (requests : List (QueueRequest κ ℚ ω)) : Books ι κ ω :=
  { books with
    crew := { books.crew with history := requests.foldl History.request books.crew.history } }

theorem play_requests {requests : List (QueueRequest κ ℚ ω)}
    (houtside : ∀ request ∈ requests, request.fromOutside = true) (books : Books ι κ ω) :
    play (step? policy) books (requests.map .request) = some (books.afterRequests requests) := by
  induction requests generalizing books with
  | nil => rfl
  | cons request rest ih =>
      have hfirst : request.fromOutside = true := houtside request List.mem_cons_self
      rw [List.map_cons, play_cons]
      simp only [step?, Crew.step?, hfirst, if_true, Option.map_some, Option.bind_some]
      exact ih (fun other hother => houtside other (List.mem_cons_of_mem _ hother)) _

/-- What becomes of the books when a worker handles one key: it takes a key, it
makes its pass while others may ask for something, it settles the outcome and
gives the key back. -/
inductive Handles (policy : DispatchPolicy ℚ) (passes : Passes κ ω) (books : Books ι κ ω)
    (worker : ι) (timeout : Option ℚ) : WorkQueue.Handled → Books ι κ ω → Prop
  | nothing {handled : WorkQueue.Handled} {next : Books ι κ ω} (hnone : handled ≠ .yes)
      (hget : books.step? policy (.get worker timeout) = some next)
      (hfree : next.crew.holds worker = none) :
      Handles policy passes books worker timeout handled next
  | one {key : κ} {deadline : Deadline ℚ} {begun : ω} {taken before settled next : Books ι κ ω}
      (hget : books.step? policy (.get worker timeout) = some taken)
      (hholds : taken.crew.holds worker = some key)
      (hafter : Deadline.after policy.timeout taken.clock = (deadline, begun))
      (hpass : play (step? policy) taken
        (((.tick begun) :: (passes key deadline).1).map .request) = some before)
      (hsettle : before.step? policy (.settle worker (passes key deadline).2) = some settled)
      (hreturn : settled.step? policy (.giveBack worker) = some next) :
      Handles policy passes books worker timeout .yes next

theorem afterGetting_of_get (worker : ι) {timeout : Option ℚ} {receipt : WorkQueue.Receipt κ}
    {taken : WorkQueue κ ℚ} {clock : ω}
    (hget : books.queue.get timeout books.clock = (receipt, taken, clock)) :
    (books.afterGetting worker timeout).queue = taken ∧
      (books.afterGetting worker timeout).clock = clock ∧
      (books.afterGetting worker timeout).crew.holds worker = receipt.key? := by
  have hhistory : books.crew.history.get timeout =
      (receipt.key?, books.crew.history.hand receipt.key? (taken, clock)) := by
    have hsame : books.crew.history.queue.get timeout books.crew.history.clock =
        (receipt, taken, clock) := hget
    simp only [History.get, hsame]
  unfold afterGetting
  rw [hhistory]
  exact ⟨rfl, rfl, Function.update_self worker _ _⟩

theorem step?_get (policy : DispatchPolicy ℚ) (hfree : books.crew.holds worker = none)
    (timeout : Option ℚ) :
    books.step? policy (.get worker timeout) = some (books.afterGetting worker timeout) := by
  simp only [step?, Crew.step?, hfree, Option.map_some]
  rfl

theorem step?_settle (policy : DispatchPolicy ℚ) (hholds : books.crew.holds worker = some key)
    (hfresh : books.settled worker = none) (outcome : PassOutcome ℚ) :
    books.step? policy (.settle worker outcome) =
      some (books.afterSettling policy worker key outcome) := by
  simp only [step?, Crew.step?, hholds, hfresh, Option.map_some]
  rfl

theorem step?_giveBack (policy : DispatchPolicy ℚ) (hholds : books.crew.holds worker = some key)
    {due : Option ℚ} (hsettled : books.settled worker = some due) :
    books.step? policy (.giveBack worker) = some (books.afterReturn worker key) := by
  simp only [step?, Crew.step?, hholds, hsettled, Option.map_some]
  rfl

/-- The dispatcher's own loop body handles a key as the books have it. -/
theorem Kept.processNext_handles (hkept : books.Kept policy limiter) {passes : Passes κ ω}
    (houtside : ∀ key deadline, ∀ request ∈ (passes key deadline).1, request.fromOutside = true)
    (hfree : books.crew.holds worker = none) (timeout : Option ℚ) :
    ∃ handled next, Handles policy passes books worker timeout handled next ∧
      books.queue.processNext policy passes.carryOut timeout books.clock =
        (handled, next.queue, next.clock) := by
  cases hget : books.queue.get timeout books.clock with
  | mk receipt rest =>
      obtain ⟨taken, clock⟩ := rest
      obtain ⟨hqueue, hclock, hholds⟩ := afterGetting_of_get worker hget
      have hstep := step?_get policy hfree timeout
      cases receipt with
      | nothing =>
          refine ⟨.no, _, .nothing (by simp) hstep hholds, ?_⟩
          simp only [WorkQueue.processNext, hget, hqueue, hclock]
      | never =>
          refine ⟨.never, _, .nothing (by simp) hstep hholds, ?_⟩
          simp only [WorkQueue.processNext, hget, hqueue, hclock]
      | delivered key =>
          cases hafter : Deadline.after policy.timeout clock with
          | mk deadline begun =>
              let requests : List (QueueRequest κ ℚ ω) := .tick begun :: (passes key deadline).1
              let before : Books ι κ ω :=
                (books.afterGetting worker timeout).afterRequests requests
              let settled := before.afterSettling policy worker key (passes key deadline).2
              have hpass : play (step? policy) (books.afterGetting worker timeout)
                  (requests.map .request) = some before := by
                apply play_requests
                intro request hrequest
                rcases List.mem_cons.mp hrequest with rfl | hlater
                · rfl
                · exact houtside key deadline request hlater
              have hfresh : before.settled worker = none := hkept.idle hfree
              have hheld : before.crew.holds worker = some key := hholds
              have hnoted : settled.settled worker = some _ := Function.update_self worker _ _
              refine ⟨.yes, settled.afterReturn worker key, .one hstep hholds ?_ hpass
                (step?_settle policy hheld hfresh _) (step?_giveBack policy hheld hnoted), ?_⟩
              · rw [hclock]
                exact hafter
              · have hmeanwhile : (before.queue, before.clock) =
                    (passes key deadline).1.foldl
                      (fun after request => request.apply after.1 after.2) (taken, begun) := by
                  rw [← hqueue]
                  exact History.foldl_request requests _
                have hsettled := before.afterSettling_eq_settle policy worker key
                  (passes key deadline).2
                simp only [WorkQueue.processNext, hget, hafter, Passes.carryOut, ← hmeanwhile,
                  ← hsettled]
                rfl

/-- In every interleaving of any number of workers with requests from outside,
the count that the queue has of a key is the number of its failures since it
last succeeded or was dropped, and never more than the limit on them.  A failure
drops the key if the failures before it have reached the limit, and only then.
A key that is given back is not in flight, and if its outcome called for another
pass it is ready or waits for a moment no later than called for.  The loop body
of the dispatcher is a run of such moves. -/
theorem retries_accounted (base maximum : ℚ) (clock : ω) (policy : DispatchPolicy ℚ)
    {moves : List (CrewMove ι κ ℚ ω)} {books : Books ι κ ω}
    (hplay : play (step? policy) (start base maximum clock) moves = some books) :
    (∀ key, books.queue.numRequeues key = streak key books.verdicts ∧
        ∀ limit, policy.maxRetries = some limit → books.queue.numRequeues key ≤ limit) ∧
      (∀ worker key outcome next, books.crew.holds worker = some key →
        books.step? policy (.settle worker outcome) = some next →
          SettledAs policy { base, maximum } books next worker key outcome) ∧
      (∀ worker key next, books.crew.holds worker = some key →
        books.step? policy (.giveBack worker) = some next →
          key ∉ next.queue.inFlight ∧
            ∀ moment, books.settled worker = some (some moment) →
              key ∈ next.queue.ready ∨
                ∃ agreed, Assoc.get? next.queue.waiting key = some agreed ∧ agreed ≤ moment) ∧
      ∀ worker (passes : Passes κ ω) timeout, books.crew.holds worker = none →
        (∀ key deadline, ∀ request ∈ (passes key deadline).1, request.fromOutside = true) →
          ∃ handled next, Handles policy passes books worker timeout handled next ∧
            books.queue.processNext policy passes.carryOut timeout books.clock =
              (handled, next.queue, next.clock) := by
  have hkept := play_kept hplay
  refine ⟨?_, ?_, ?_, ?_⟩
  · intro key
    refine ⟨hkept.counted key, ?_⟩
    intro limit hretries
    rw [hkept.counted key]
    exact hkept.limited limit hretries key
  · intro worker key outcome next hholds hstep
    have hfresh : books.settled worker = none := by
      cases hsettled : books.settled worker with
      | none => rfl
      | some due =>
          simp only [step?, hholds, hsettled] at hstep
          cases hstep
    rw [step?_settle policy hholds hfresh] at hstep
    cases hstep
    exact hkept.settledAs worker key outcome
  · intro worker key next hholds hstep
    cases hsettled : books.settled worker with
    | none =>
        simp only [step?, hsettled] at hstep
        cases hstep
    | some due =>
        rw [step?_giveBack policy hholds hsettled] at hstep
        cases hstep
        rw [← hsettled]
        exact hkept.returned hholds
  · intro worker passes timeout hfree houtside
    exact hkept.processNext_handles houtside hfree timeout

/-- A key may fail once; a second failure in a row drops it. -/
theorem retries_accounted_of_second_failure :
    let policy : DispatchPolicy ℚ := { conflictDelay := 0, maxRetries := some 1 }
    let moves : List (CrewMove Bool Nat ℚ (HandClock ℚ)) :=
      [.request (.add 7), .get true (some 1), .settle true .failed, .giveBack true,
        .request (.tick ⟨1⟩), .get true (some 1)]
    ∃ books next, play (step? policy) (start 1 300 (⟨0⟩ : HandClock ℚ)) moves = some books ∧
      books.crew.holds true = some 7 ∧ books.queue.numRequeues 7 = 1 ∧
      books.step? policy (.settle true .failed) = some next ∧
      next.verdicts = [(7, .dropped), (7, .failed)] ∧ next.queue = books.queue.forget 7 := by
  intro policy moves
  obtain ⟨books, hplay⟩ :
      ∃ books, play (step? policy) (start 1 300 (⟨0⟩ : HandClock ℚ)) moves = some books := ⟨_, rfl⟩
  have hheld : books.crew.holds true = some 7 ∧ books.verdicts = [(7, .failed)] ∧
      books.settled true = none := by
    cases hplay
    decide +kernel
  obtain ⟨hholds, hverdicts, hfresh⟩ := hheld
  obtain ⟨hcounts, hsettles, -, -⟩ := retries_accounted 1 300 (⟨0⟩ : HandClock ℚ) policy hplay
  have hcount : books.queue.numRequeues 7 = 1 := by
    rw [(hcounts 7).1, hverdicts]
    rfl
  have hstep := step?_settle policy hholds hfresh .failed
  have hsettled := hsettles true 7 .failed _ hholds hstep
  have hlast : policy.maxRetries = some (streak 7 books.verdicts) := by
    rw [hverdicts]
    rfl
  simp only [SettledAs, hlast, if_true] at hsettled
  obtain ⟨hdropped, -, hforgotten⟩ := hsettled
  exact ⟨books, _, hplay, hholds, hcount, hstep, hverdicts ▸ hdropped, hforgotten⟩

end OneShot.Books
