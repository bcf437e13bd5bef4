import OneShot.Proofs.Queue.Verdicts

/-!
# Books on a dispatcher

Beside the workers of a dispatcher books are kept: the verdicts, the latest
first, and for each worker that has settled its key the moment by which the key
has to come back.  Every move keeps the books in agreement with the queue: the
queue counts the failures of a key since it last succeeded or was dropped, and
a key that has to come back is pledged to come back in time.
-/

namespace OneShot

variable {ι κ ω : Type} [DecidableEq ι] [DecidableEq κ]

/-- What anybody but the workers may ask of the queue. -/
def QueueRequest.fromOutside : QueueRequest κ τ ω → Bool
  | add _ | addAfter _ _ | tick _ => true
  | addRateLimited _ | forget _ | shutDown _ _ => false

/-- A dispatcher with the books on it. -/
structure Books (ι κ ω : Type) where
  crew : Crew ι κ ℚ ω
  verdicts : List (κ × Verdict) := []
  /-- For each worker that has settled its key but not yet given it back: the
  moment by which the key has to come back, if it has to. -/
  settled : ι → Option (Option ℚ) := fun _ => none

section Outside

variable [Clock ω ℚ] {queue : WorkQueue κ ℚ} {request : QueueRequest κ ℚ ω}

theorem WorkQueue.apply_limiter (houtside : request.fromOutside = true) (clock : ω) :
    (request.apply queue clock).1.limiter = queue.limiter := by
  cases request with
  | add key => exact add_limiter key
  | addAfter key delay => exact addAfter_limiter key delay clock
  | tick later => rfl
  | addRateLimited key | forget key | shutDown drain timeout => cases houtside

theorem WorkQueue.apply_shuttingDown (houtside : request.fromOutside = true) (clock : ω) :
    (request.apply queue clock).1.shuttingDown = queue.shuttingDown := by
  cases request with
  | add key => exact add_shuttingDown key
  | addAfter key delay => exact (addAfter_keeps key delay clock queue).shuttingDown
  | tick later => rfl
  | addRateLimited key | forget key | shutDown drain timeout => cases houtside

end Outside

theorem downward_le (bound : ℚ) : WorkQueue.Downward (· ≤ bound) :=
  fun _ _ hlate hearlier => (not_le.mp hearlier).le.trans hlate

namespace Books

def queue (books : Books ι κ ω) : WorkQueue κ ℚ := books.crew.history.queue

def clock (books : Books ι κ ω) : ω := books.crew.history.clock

variable [Clock ω ℚ]

def start (base maximum : ℚ) (clock : ω) : Books ι κ ω :=
  { crew := .start { base, maximum } clock }

def present (books : Books ι κ ω) : ℚ := (Clock.read books.clock).1

/-- What follows a move.  A worker settles the key that it holds once, and then
gives it back. -/
def step? (policy : DispatchPolicy ℚ) (books : Books ι κ ω) (move : CrewMove ι κ ℚ ω) :
    Option (Books ι κ ω) :=
  match move with
  | .request request =>
      if request.fromOutside then
        (books.crew.step? policy move).map fun crew => { books with crew }
      else none
  | .look _ _ | .get _ _ => (books.crew.step? policy move).map fun crew => { books with crew }
  | .settle worker outcome =>
      match books.crew.holds worker, books.settled worker with
      | some key, none =>
          (books.crew.step? policy move).map fun crew =>
            { crew
              verdicts := (key, books.queue.verdict policy key outcome) :: books.verdicts
              settled := Function.update books.settled worker
                (some ((books.queue.returnDelay policy key outcome).map (books.present + ·))) }
      | _, _ => none
  | .giveBack worker =>
      match books.settled worker with
      | some _ =>
          (books.crew.step? policy move).map fun crew =>
            { books with crew, settled := Function.update books.settled worker none }
      | none => none

/-- The books agree with the queue. -/
structure Kept (policy : DispatchPolicy ℚ) (limiter : Backoff κ ℚ) (books : Books ι κ ω) :
    Prop where
  sound : books.crew.Sound
  isOpen : books.queue.shuttingDown = false
  counted : ∀ key, books.queue.numRequeues key = streak key books.verdicts
  limited : ∀ limit, policy.maxRetries = some limit → ∀ key, streak key books.verdicts ≤ limit
  delays : books.queue.limiter.delay = limiter.delay
  held : ∀ worker due, books.settled worker = some due → ∃ key, books.crew.holds worker = some key
  pledged : ∀ worker key moment, books.crew.holds worker = some key →
    books.settled worker = some (some moment) → books.queue.Pledged (· ≤ moment) key

variable {policy : DispatchPolicy ℚ} {limiter : Backoff κ ℚ} {books next : Books ι κ ω}
  {worker : ι} {key : κ} {outcome : PassOutcome ℚ}

omit [DecidableEq ι] [Clock ω ℚ] in
theorem start_kept (policy : DispatchPolicy ℚ) (base maximum : ℚ) (clock : ω) :
    (start base maximum clock : Books ι κ ω).Kept policy { base, maximum } where
  sound := ⟨History.start_sound _ clock, staffed_nobody _⟩
  isOpen := rfl
  counted _ := rfl
  limited _ _ _ := Nat.zero_le _
  delays := rfl
  held _ _ hsettled := nomatch hsettled
  pledged _ _ _ hholds := nomatch hholds

omit [DecidableEq ι] in
theorem Kept.afterRequest (hkept : books.Kept policy limiter) {request : QueueRequest κ ℚ ω}
    (houtside : request.fromOutside = true) :
    Kept policy limiter
      { books with crew := { books.crew with history := books.crew.history.request request } } := by
  have hlimiter : (books.crew.history.request request).queue.limiter = books.queue.limiter :=
    WorkQueue.apply_limiter houtside books.clock
  constructor
  case sound => exact hkept.sound.afterRequest request
  case isOpen => exact (WorkQueue.apply_shuttingDown houtside books.clock).trans hkept.isOpen
  case counted =>
    intro key
    rw [← hkept.counted key]
    exact congrArg (Backoff.count · key) hlimiter
  case limited => exact hkept.limited
  case delays => exact (congrArg Backoff.delay hlimiter).trans hkept.delays
  case held => exact hkept.held
  case pledged =>
    intro worker key moment hholds hsettled
    exact (hkept.pledged worker key moment hholds hsettled).afterRequest (downward_le moment)
      books.clock request

/-- What a promotion leaves as it is for the taking that follows it. -/
structure Promoted (queue found : WorkQueue κ ℚ) : Prop where
  consistent : found.Consistent
  inFlight : found.inFlight = queue.inFlight
  limiter : found.limiter = queue.limiter
  shuttingDown : found.shuttingDown = queue.shuttingDown
  pledged : ∀ {P key}, queue.Pledged P key → found.Pledged P key

omit [DecidableEq ι] [Clock ω ℚ] in
theorem Kept.promoted (hkept : books.Kept policy limiter) :
    Promoted books.queue books.queue :=
  ⟨hkept.sound.history.consistent, rfl, rfl, rfl, id⟩

theorem Promoted.afterPromote {queue found : WorkQueue κ ℚ} (h : Promoted queue found)
    (hopen : found.shuttingDown = false) (now : ℚ) : Promoted queue (found.promote now) where
  consistent := h.consistent.afterPromote now
  inFlight := (WorkQueue.promote_inFlight now).trans h.inFlight
  limiter := (WorkQueue.promote_limiter now).trans h.limiter
  shuttingDown := (WorkQueue.promote_shuttingDown now).trans h.shuttingDown
  pledged hpledged := (h.pledged hpledged).afterPromoteFrom hopen now _

omit [DecidableEq ι] [Clock ω ℚ] in
theorem Kept.idle (hkept : books.Kept policy limiter) (hfree : books.crew.holds worker = none) :
    books.settled worker = none := by
  cases hsettled : books.settled worker with
  | none => rfl
  | some due =>
      obtain ⟨key, hholds⟩ := hkept.held worker due hsettled
      rw [hfree] at hholds
      cases hholds

omit [Clock ω ℚ] in
theorem Kept.afterTaking (hkept : books.Kept policy limiter) {found : WorkQueue κ ℚ}
    {taken : Option κ} {history : History κ ℚ ω} (hpromoted : Promoted books.queue found)
    (htaking : found.Taking taken history.queue) (hhistory : history.Sound)
    (hfree : books.crew.holds worker = none) :
    Kept policy limiter
      { books with
        crew := { history, holds := Function.update books.crew.holds worker taken } } := by
  have hlimiter : history.queue.limiter = books.queue.limiter :=
    htaking.limiter.trans hpromoted.limiter
  have hidle := hkept.idle hfree
  constructor
  case sound =>
    exact ⟨hhistory, (hkept.sound.staffed.of_eq hpromoted.inFlight).afterTaking
      hpromoted.consistent htaking worker⟩
  case isOpen => exact (htaking.shuttingDown.trans hpromoted.shuttingDown).trans hkept.isOpen
  case counted =>
    intro key
    rw [← hkept.counted key]
    exact congrArg (Backoff.count · key) hlimiter
  case limited => exact hkept.limited
  case delays => exact (congrArg Backoff.delay hlimiter).trans hkept.delays
  case held =>
    intro other due hsettled
    have hne : other ≠ worker := by
      rintro rfl
      rw [hidle] at hsettled
      cases hsettled
    obtain ⟨key, hholds⟩ := hkept.held other due hsettled
    exact ⟨key, by simpa [hne] using hholds⟩
  case pledged =>
    intro other key moment hholds hsettled
    have hne : other ≠ worker := by
      rintro rfl
      rw [hidle] at hsettled
      cases hsettled
    have hheld : books.crew.holds other = some key := by simpa [hne] using hholds
    apply (hpromoted.pledged (hkept.pledged other key moment hheld hsettled)).afterTaking htaking
    -- A key that a worker holds is in flight, so it is not handed out again.
    intro htaken
    apply htaking.not_inFlight hpromoted.consistent htaken
    rw [hpromoted.inFlight]
    exact hkept.sound.staffed.inFlight other key hheld

/-- The books after a worker has looked for a key. -/
def afterLooking (books : Books ι κ ω) (worker : ι) (deadline : Option ℚ) : Books ι κ ω :=
  { books with
    crew :=
      { history := (books.crew.history.look deadline).2
        holds := Function.update books.crew.holds worker (books.crew.history.look deadline).1 } }

theorem Kept.afterLooking (hkept : books.Kept policy limiter) (deadline : Option ℚ)
    (hfree : books.crew.holds worker = none) :
    (books.afterLooking worker deadline).Kept policy limiter := by
  obtain ⟨found, hpromoted, htaking⟩ := WorkQueue.look_taking (P := Promoted books.queue)
    (fun _ now hopen h => h.afterPromote hopen now) hkept.promoted
    (rfl : books.queue.look deadline books.clock = _)
  exact hkept.afterTaking hpromoted htaking (hkept.sound.history.afterLook deadline) hfree

/-- The books after a worker has asked for a key. -/
def afterGetting (books : Books ι κ ω) (worker : ι) (timeout : Option ℚ) : Books ι κ ω :=
  { books with
    crew :=
      { history := (books.crew.history.get timeout).2
        holds := Function.update books.crew.holds worker (books.crew.history.get timeout).1 } }

theorem Kept.afterGetting (hkept : books.Kept policy limiter) (timeout : Option ℚ)
    (hfree : books.crew.holds worker = none) :
    (books.afterGetting worker timeout).Kept policy limiter := by
  obtain ⟨found, hpromoted, htaking⟩ := WorkQueue.get_taking (P := Promoted books.queue)
    (fun _ now hopen h => h.afterPromote hopen now) hkept.promoted
    (rfl : books.queue.get timeout books.clock = _)
  exact hkept.afterTaking hpromoted htaking (hkept.sound.history.afterGet timeout) hfree

theorem pledged_requests {P : ℚ → Prop} (hdown : WorkQueue.Downward P)
    (requests : List (QueueRequest κ ℚ ω)) {history : History κ ℚ ω}
    (hpledged : history.queue.Pledged P key) :
    (requests.foldl History.request history).queue.Pledged P key := by
  induction requests generalizing history with
  | nil => exact hpledged
  | cons request rest ih => exact ih (hpledged.afterRequest hdown history.clock request)

/-- The books after a worker has settled its key. -/
def afterSettling (books : Books ι κ ω) (policy : DispatchPolicy ℚ) (worker : ι) (key : κ)
    (outcome : PassOutcome ℚ) : Books ι κ ω :=
  { crew :=
      { books.crew with
        history := (books.queue.settlement policy key outcome).foldl History.request
          books.crew.history }
    verdicts := (key, books.queue.verdict policy key outcome) :: books.verdicts
    settled := Function.update books.settled worker
      (some ((books.queue.returnDelay policy key outcome).map (books.present + ·))) }

theorem afterSettling_eq_settle (books : Books ι κ ω) (policy : DispatchPolicy ℚ) (worker : ι)
    (key : κ) (outcome : PassOutcome ℚ) :
    ((books.afterSettling policy worker key outcome).queue,
        (books.afterSettling policy worker key outcome).clock) =
      books.queue.settle policy key outcome books.clock := by
  rw [WorkQueue.settle_eq_settlement]
  exact History.foldl_request _ books.crew.history

theorem afterSettling_queue (books : Books ι κ ω) (policy : DispatchPolicy ℚ) (worker : ι)
    (key : κ) (outcome : PassOutcome ℚ) :
    (books.afterSettling policy worker key outcome).queue =
      (books.queue.settle policy key outcome books.clock).1 :=
  congrArg Prod.fst (books.afterSettling_eq_settle policy worker key outcome)

omit [DecidableEq ι] [Clock ω ℚ] in
theorem Kept.drops_iff (hkept : books.Kept policy limiter) (key : κ) :
    books.queue.drops policy key = true ↔
      policy.maxRetries = some (streak key books.verdicts) := by
  rw [← hkept.counted key]
  apply WorkQueue.drops_iff
  intro limit hretries
  rw [hkept.counted key]
  exact hkept.limited limit hretries key

omit [DecidableEq ι] [Clock ω ℚ] in
/-- A verdict keeps to the limit on failures. -/
theorem Kept.count_verdict_le (hkept : books.Kept policy limiter) {limit : Nat}
    (hretries : policy.maxRetries = some limit) (key : κ) (outcome : PassOutcome ℚ) :
    (books.queue.verdict policy key outcome).count (streak key books.verdicts) ≤ limit := by
  have hle := hkept.limited limit hretries key
  cases outcome with
  | finished followUp => exact Nat.zero_le _
  | conflict => exact hle
  | failed =>
      rw [WorkQueue.verdict]
      split
      next => exact Nat.zero_le _
      next hkeeps =>
        have hne : limit ≠ streak key books.verdicts := by
          rintro rfl
          exact hkeeps ((hkept.drops_iff key).mpr hretries)
        simp only [Verdict.count]
        omega

theorem Kept.afterSettling (hkept : books.Kept policy limiter)
    (hholds : books.crew.holds worker = some key) (outcome : PassOutcome ℚ) :
    (books.afterSettling policy worker key outcome).Kept policy limiter := by
  have hqueue := afterSettling_queue books policy worker key outcome
  have hlimiter : (books.afterSettling policy worker key outcome).queue.limiter =
      (books.queue.verdict policy key outcome).enter books.queue.limiter key := by
    rw [hqueue]
    exact WorkQueue.settle_limiter books.queue policy key outcome books.clock
  constructor
  case sound => exact hkept.sound.afterRequests _
  case isOpen =>
    rw [hqueue, WorkQueue.settle_shuttingDown]
    exact hkept.isOpen
  case counted =>
    intro other
    rw [hqueue, WorkQueue.numRequeues_settle, hkept.counted key, hkept.counted other]
    exact (streak_cons other key _ _).symm
  case limited =>
    intro limit hretries other
    have hcons := streak_cons other key (books.queue.verdict policy key outcome) books.verdicts
    have hverdict := hkept.count_verdict_le hretries key outcome
    have hother := hkept.limited limit hretries other
    simp only [Books.afterSettling, hcons]
    split
    next => exact hverdict
    next => exact hother
  case delays => rw [hlimiter, Verdict.delay_enter, hkept.delays]
  case held =>
    intro other due hsettled
    rcases update_cases hsettled with ⟨rfl, -⟩ | ⟨-, hbefore⟩
    · exact ⟨key, hholds⟩
    · exact hkept.held other due hbefore
  case pledged =>
    intro other held moment hheld hsettled
    rcases update_cases hsettled with ⟨rfl, hdue⟩ | ⟨-, hbefore⟩
    · obtain rfl : key = held := Option.some.inj (hholds.symm.trans hheld)
      obtain ⟨delay, hdelay, rfl⟩ := Option.map_eq_some_iff.mp (Option.some.inj hdue)
      rw [hqueue]
      exact WorkQueue.settle_pledged policy key hkept.isOpen hdelay books.clock
    · exact pledged_requests (downward_le moment) _
        (hkept.pledged other held moment hheld hbefore)

/-- The books after a worker has given its key back. -/
def afterReturn (books : Books ι κ ω) (worker : ι) (key : κ) : Books ι κ ω :=
  { books with
    crew :=
      { history := books.crew.history.giveBack key
        holds := Function.update books.crew.holds worker none }
    settled := Function.update books.settled worker none }

omit [Clock ω ℚ] in
theorem Kept.afterReturn (hkept : books.Kept policy limiter)
    (hholds : books.crew.holds worker = some key) :
    (books.afterReturn worker key).Kept policy limiter := by
  constructor
  case sound =>
    exact ⟨hkept.sound.history.afterGiveBack (hkept.sound.staffed.inFlight worker key hholds),
      hkept.sound.staffed.afterDone hkept.sound.history.consistent hholds⟩
  case isOpen => exact hkept.isOpen
  case counted => exact hkept.counted
  case limited => exact hkept.limited
  case delays => exact hkept.delays
  case held =>
    intro other due hsettled
    rcases update_cases hsettled with ⟨-, hnone⟩ | ⟨hne, hbefore⟩
    · cases hnone
    · obtain ⟨held, hheld⟩ := hkept.held other due hbefore
      exact ⟨held, by simpa [Books.afterReturn, hne] using hheld⟩
  case pledged =>
    intro other held moment hheld hsettled
    rcases update_cases hsettled with ⟨-, hnone⟩ | ⟨hne, hbefore⟩
    · cases hnone
    · have hbeforeHeld : books.crew.holds other = some held := by
        simpa [Books.afterReturn, hne] using hheld
      exact (hkept.pledged other held moment hbeforeHeld hbefore).of_eq rfl rfl

/-- All that a move can come to. -/
theorem step?_cases {move : CrewMove ι κ ℚ ω} (hstep : books.step? policy move = some next) :
    (∃ request, move = .request request ∧ request.fromOutside = true ∧
        next = { books with
          crew := { books.crew with history := books.crew.history.request request } }) ∨
      (∃ worker deadline, move = .look worker deadline ∧ books.crew.holds worker = none ∧
        next = books.afterLooking worker deadline) ∨
      (∃ worker timeout, move = .get worker timeout ∧ books.crew.holds worker = none ∧
        next = books.afterGetting worker timeout) ∨
      (∃ worker outcome key, move = .settle worker outcome ∧
        books.crew.holds worker = some key ∧ books.settled worker = none ∧
        next = books.afterSettling policy worker key outcome) ∨
      ∃ worker key due, move = .giveBack worker ∧ books.crew.holds worker = some key ∧
        books.settled worker = some due ∧ next = books.afterReturn worker key := by
  cases move with
  | request request =>
      simp only [step?, Crew.step?] at hstep
      split at hstep
      next houtside =>
        cases hstep
        exact Or.inl ⟨request, rfl, houtside, rfl⟩
      next => cases hstep
  | look worker deadline =>
      simp only [step?, Crew.step?] at hstep
      split at hstep
      next => cases hstep
      next hfree =>
        cases hstep
        exact Or.inr (Or.inl ⟨worker, deadline, rfl, hfree, rfl⟩)
  | get worker timeout =>
      simp only [step?, Crew.step?] at hstep
      split at hstep
      next => cases hstep
      next hfree =>
        cases hstep
        exact Or.inr (Or.inr (Or.inl ⟨worker, timeout, rfl, hfree, rfl⟩))
  | settle worker outcome =>
      simp only [step?, Crew.step?] at hstep
      split at hstep
      next key hholds hfresh =>
        rw [hholds] at hstep
        cases hstep
        exact Or.inr (Or.inr (Or.inr (Or.inl ⟨worker, outcome, key, rfl, hholds, hfresh, rfl⟩)))
      next => cases hstep
  | giveBack worker =>
      simp only [step?, Crew.step?] at hstep
      split at hstep
      next due hsettled =>
        cases hholds : books.crew.holds worker with
        | none =>
            rw [hholds] at hstep
            cases hstep
        | some key =>
            rw [hholds] at hstep
            cases hstep
            exact Or.inr (Or.inr (Or.inr (Or.inr ⟨worker, key, due, rfl, hholds, hsettled, rfl⟩)))
      next => cases hstep

theorem Kept.afterStep (hkept : books.Kept policy limiter) {move : CrewMove ι κ ℚ ω}
    (hstep : books.step? policy move = some next) : next.Kept policy limiter := by
  rcases step?_cases hstep with ⟨request, -, houtside, rfl⟩ | ⟨worker, deadline, -, hfree, rfl⟩ |
    ⟨worker, timeout, -, hfree, rfl⟩ | ⟨worker, outcome, key, -, hholds, -, rfl⟩ |
    ⟨worker, key, due, -, hholds, -, rfl⟩
  · exact hkept.afterRequest houtside
  · exact hkept.afterLooking deadline hfree
  · exact hkept.afterGetting timeout hfree
  · exact hkept.afterSettling hholds outcome
  · exact hkept.afterReturn hholds

theorem play_kept {base maximum : ℚ} {clock : ω} {moves : List (CrewMove ι κ ℚ ω)}
    (hplay : play (step? policy) (start base maximum clock) moves = some books) :
    books.Kept policy { base, maximum } :=
  play_keeps (fun _ _ _ h hstep => h.afterStep hstep) (start_kept policy base maximum clock) hplay

end Books

end OneShot
