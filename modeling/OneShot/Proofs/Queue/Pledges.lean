import OneShot.Proofs.Queue.History
import Mathlib.Data.Rat.Defs
import Mathlib.Algebra.Order.Ring.Rat

/-!
# No request is lost

A key that was asked for is pledged: it is dirty, or it waits for a moment of
some kind, until it is handed out.  The kinds in use are no moment at all, for
a request that is due now, any moment up to a bound, for a delayed one, and any
moment.  All that matters of a kind is that it goes down with the moments,
because an appointment only ever gives way to an earlier one.

The second half is about the agenda of a queue whose moments are rational
numbers.  It ascends, and it has an entry for every key that waits, so that a
promotion reaches every key that is due.
-/

namespace OneShot

variable {κ τ ω : Type} [DecidableEq κ]

namespace WorkQueue

/-- A key that is dirty, or waits for a moment of a kind. -/
def Pledged (queue : WorkQueue κ τ) (P : τ → Prop) (key : κ) : Prop :=
  key ∈ queue.dirty ∨ ∃ moment, Assoc.get? queue.waiting key = some moment ∧ P moment

/-- A kind that holds of a moment holds of every one that can take its place. -/
def Downward [LE τ] (P : τ → Prop) : Prop :=
  ∀ late early, P late → ¬ late ≤ early → P early

section Pledges

variable {queue : WorkQueue κ τ} {P : τ → Prop} {key : κ}

theorem Pledged.of_eq {changed : WorkQueue κ τ} (hpledged : queue.Pledged P key)
    (hdirty : changed.dirty = queue.dirty) (hwaiting : changed.waiting = queue.waiting) :
    changed.Pledged P key := by
  unfold Pledged
  rw [hdirty, hwaiting]
  exact hpledged

theorem Pledged.afterMarkDirty (hpledged : queue.Pledged P key) (other : κ) :
    (queue.markDirty other).Pledged P key := by
  rcases hpledged with hdirty | hwaiting
  · exact Or.inl ((mem_dirty_markDirty queue other key).mpr (Or.inr hdirty))
  · exact Or.inr (by simpa using hwaiting)

/-- A key that stops waiting because it becomes dirty stays pledged, and so do
all others. -/
theorem Pledged.afterMarkDirty_erase (hpledged : queue.Pledged P key) (other : κ) :
    ({ queue with waiting := Assoc.erase queue.waiting other }.markDirty other).Pledged P key := by
  by_cases heq : key = other
  · exact Or.inl ((mem_dirty_markDirty _ other key).mpr (Or.inl heq))
  · refine Pledged.afterMarkDirty ?_ other
    rcases hpledged with hdirty | ⟨moment, hwaiting, hkind⟩
    · exact Or.inl hdirty
    · exact Or.inr ⟨moment, by simpa [Assoc.get?_erase, heq] using hwaiting, hkind⟩

theorem mem_dirty_add (hopen : queue.shuttingDown = false) (key : κ) :
    key ∈ (queue.add key).dirty := by
  unfold add
  rw [if_neg (by simp [hopen])]
  exact (mem_dirty_markDirty _ key key).mpr (Or.inl rfl)

theorem Pledged.afterAdd (hpledged : queue.Pledged P key) (other : κ) :
    (queue.add other).Pledged P key := by
  unfold add
  split
  next => exact hpledged
  next => exact hpledged.afterMarkDirty_erase other

theorem Pledged.afterTaking {after : WorkQueue κ τ} {taken : Option κ}
    (hpledged : queue.Pledged P key) (htaking : queue.Taking taken after)
    (hnot : taken ≠ some key) : after.Pledged P key := by
  cases htaking with
  | nothing => exact hpledged
  | @delivered other _ hdeliver =>
      have hne : key ≠ other := fun heq => hnot (congrArg some heq.symm)
      obtain ⟨rest, -, rfl⟩ := deliver?_eq_some hdeliver
      rcases hpledged with hdirty | hwaiting
      · exact Or.inl ((List.mem_erase_of_ne hne).mpr hdirty)
      · exact Or.inr hwaiting

section Appointments

variable [LE τ] [DecidableLE τ] [LT τ] [DecidableLT τ] {moment : τ}

theorem appoint_pledged (queue : WorkQueue κ τ) (key : κ) (hkind : P moment)
    (hearlier : ∀ current, current ≤ moment → P current) :
    (queue.appoint key moment).Pledged P key := by
  rcases appoint_cases key moment queue with ⟨current, hcurrent, hle, h⟩ | ⟨-, h⟩
  · rw [h]
    exact Or.inr ⟨current, hcurrent, hearlier current hle⟩
  · rw [h]
    exact Or.inr ⟨moment, by simp [Assoc.get?_put], hkind⟩

theorem Pledged.afterAppoint (hpledged : queue.Pledged P key) (hdown : Downward P) (other : κ) :
    (queue.appoint other moment).Pledged P key := by
  rcases appoint_cases other moment queue with ⟨-, -, -, h⟩ | ⟨hlater, h⟩
  · rw [h]
    exact hpledged
  · rw [h]
    rcases hpledged with hdirty | ⟨current, hwaiting, hkind⟩
    · exact Or.inl hdirty
    · right
      by_cases heq : key = other
      · subst heq
        exact ⟨moment, by simp [Assoc.get?_put],
          hdown current moment hkind (hlater current hwaiting)⟩
      · exact ⟨current, by simpa [Assoc.get?_put, heq] using hwaiting, hkind⟩

variable [Add τ] [OfNat τ 0] [Clock ω τ]

theorem Pledged.afterRequest (hpledged : queue.Pledged P key) (hdown : Downward P) (clock : ω)
    (request : QueueRequest κ τ ω) : (request.apply queue clock).1.Pledged P key := by
  obtain ⟨limiter, ⟨shut, -, h⟩ | ⟨other, -, h⟩ | ⟨other, moment, -, -, h⟩⟩ :=
    apply_cases queue clock request
  all_goals
    have hsame : ({ queue with limiter } : WorkQueue κ τ).Pledged P key :=
      hpledged.of_eq rfl rfl
  · rw [h]
    exact hpledged.of_eq rfl rfl
  · rw [h]
    exact hsame.afterAdd other
  · rw [h]
    exact hsame.afterAppoint hdown other

end Appointments

section Promotion

variable [BEq τ]

theorem Pledged.afterKeep (hpledged : queue.Pledged P key) (hopen : queue.shuttingDown = false)
    (entry : Appointment κ τ) : (queue.keep entry).Pledged P key := by
  unfold keep
  split
  next =>
    split
    next =>
      simp only
      rw [if_neg (by simp [hopen])]
      exact hpledged.afterMarkDirty_erase entry.key
    next => exact hpledged
  next => exact hpledged

variable [LE τ] [DecidableLE τ]

theorem Pledged.afterPromoteFrom (hpledged : queue.Pledged P key)
    (hopen : queue.shuttingDown = false) (now : τ) (entries : List (Appointment κ τ)) :
    (promoteFrom now entries queue).Pledged P key :=
  (promoteFrom_keeps (P := fun queue => queue.shuttingDown = false ∧ queue.Pledged P key)
    (fun _ entry h => ⟨(keep_shuttingDown entry).trans h.1, h.2.afterKeep h.1 entry⟩)
    (fun _ _ h => h) now entries ⟨hopen, hpledged⟩).2

end Promotion

end Pledges

end WorkQueue

/-! ## Pledges along a history -/

namespace History

variable [Add τ] [Sub τ] [OfNat τ 0] [BEq τ] [LT τ] [DecidableLT τ] [LE τ] [DecidableLE τ]
variable [Clock ω τ]

/-- An operation only ever adds to the keys that were handed out, and a key
that it does not hand out stays pledged. -/
theorem pledged_afterStep {P : τ → Prop} (hdown : WorkQueue.Downward P)
    {history next : History κ τ ω} {operation : Operation κ τ ω}
    (hstep : history.step? operation = some next) (key : κ) :
    history.handed.count key ≤ next.handed.count key ∧
      (history.queue.Pledged P key → next.handed.count key = history.handed.count key →
        next.queue.Pledged P key) := by
  have htaking : ∀ (taken : Option κ) (after : WorkQueue κ τ × ω),
      (history.queue.Pledged P key →
        ∃ found : WorkQueue κ τ, found.Pledged P key ∧ found.Taking taken after.1) →
      next = history.hand taken after →
      history.handed.count key ≤ next.handed.count key ∧
        (history.queue.Pledged P key → next.handed.count key = history.handed.count key →
          next.queue.Pledged P key) := by
    rintro taken after hfound rfl
    refine ⟨by simp [hand], fun hpledged hcount => ?_⟩
    obtain ⟨found, hkept, htaken⟩ := hfound hpledged
    refine hkept.afterTaking htaken ?_
    rintro rfl
    simp [hand] at hcount
  cases operation with
  | request request =>
      cases hstep
      exact ⟨le_rfl, fun hpledged _ => hpledged.afterRequest hdown history.clock request⟩
  | look deadline =>
      cases hstep
      refine htaking _ (history.queue.look deadline history.clock).2 (fun hpledged => ?_) rfl
      exact WorkQueue.look_taking (fun _ now hopen h => h.afterPromoteFrom hopen now _) hpledged rfl
  | get timeout =>
      cases hstep
      refine htaking _ (history.queue.get timeout history.clock).2 (fun hpledged => ?_) rfl
      exact WorkQueue.get_taking (fun _ now hopen h => h.afterPromoteFrom hopen now _) hpledged rfl
  | done other =>
      simp only [step?] at hstep
      split at hstep
      next =>
        cases hstep
        exact ⟨le_rfl, fun hpledged _ => hpledged.of_eq rfl rfl⟩
      next => cases hstep

/-- A pledged key stays pledged until it is handed out. -/
theorem pledged_of_play {P : τ → Prop} (hdown : WorkQueue.Downward P)
    {history later : History κ τ ω} {operations : List (Operation κ τ ω)} {key : κ}
    (hpledged : history.queue.Pledged P key)
    (hplay : play step? history operations = some later)
    (hcount : later.handed.count key = history.handed.count key) :
    later.queue.Pledged P key := by
  have hkept := play_keeps (P := fun now : History κ τ ω =>
      history.handed.count key ≤ now.handed.count key ∧
        (now.handed.count key = history.handed.count key → now.queue.Pledged P key))
    (fun now operation next h hstep => by
      obtain ⟨hmono, hstill⟩ := pledged_afterStep hdown hstep key
      refine ⟨h.1.trans hmono, fun hsame => ?_⟩
      have hbefore : now.handed.count key = history.handed.count key :=
        le_antisymm (hsame ▸ hmono) h.1
      exact hstill (h.2 hbefore) (hsame.trans hbefore.symm))
    ⟨le_rfl, fun _ => hpledged⟩ hplay
  exact hkept.2 hcount

/-- A `get` that ends with nothing is a run of looks, each followed by a sleep,
and one last look that finds nothing. -/
theorem getWithin_nothing {deadline : Option τ} {turns : Nat} (history : History κ τ ω)
    {after : WorkQueue κ τ} {clock : ω}
    (hget : WorkQueue.getWithin deadline turns history.queue history.clock =
      (.nothing, after, clock)) :
    ∃ operations last, play step? history operations = some last ∧
      last.queue.shuttingDown = history.queue.shuttingDown ∧
        last.queue.look deadline last.clock = (.nothing, after, clock) := by
  refine WorkQueue.getWithin_keeps
    (P := fun queue clock => ∃ operations last, play step? history operations = some last ∧
      last.queue = queue ∧ last.clock = clock ∧
        last.queue.shuttingDown = history.queue.shuttingDown)
    (Q := fun receipt after clock => receipt = .nothing → ∃ operations last,
      play step? history operations = some last ∧
        last.queue.shuttingDown = history.queue.shuttingDown ∧
          last.queue.look deadline last.clock = (.nothing, after, clock))
    ?_ ?_ ⟨[], history, rfl, rfl, rfl, rfl⟩ hget rfl
  · intro queue clock _ hnothing
    cases hnothing
  · rintro queue clock finding seen now ⟨operations, last, hplay, rfl, rfl, hopen⟩ hlook
    cases finding with
    | delivered key =>
        intro hnothing
        cases hnothing
    | nothing => exact fun _ => ⟨operations, last, hplay, hopen, hlook⟩
    | asleep duration =>
        have hstill : seen.shuttingDown = last.queue.shuttingDown := by
          rcases WorkQueue.look_cases hlook with
            ⟨-, hfinding, -⟩ | ⟨-, ⟨key, hfinding, -⟩ | ⟨-, rfl, -⟩⟩
          · cases hfinding
          · cases hfinding
          · exact WorkQueue.promote_shuttingDown _
        have hlooked : last.step? (.look deadline) =
            some { last with queue := seen, clock := now } := by
          simp only [step?, look, hlook]
          rfl
        refine ⟨operations ++ [.look deadline, .request (.tick (Clock.sleep duration now))],
          { last with queue := seen, clock := Clock.sleep duration now }, ?_, rfl, rfl,
          hstill.trans hopen⟩
        rw [play_append, hplay, Option.bind_some, play_cons, hlooked]
        rfl

end History

/-! ## The agenda -/

namespace WorkQueue

/-- The agenda ascends, and every key that waits has an entry for the very
moment it waits for. -/
structure Scheduled (queue : WorkQueue κ ℚ) : Prop where
  sorted : queue.agenda.Pairwise fun first second => first.moment ≤ second.moment
  covered : ∀ key moment, Assoc.get? queue.waiting key = some moment →
    ⟨moment, key⟩ ∈ queue.agenda

theorem scheduled_empty (limiter : Backoff κ ℚ) :
    Scheduled ({ limiter } : WorkQueue κ ℚ) := by
  constructor <;> simp [Assoc.get?]

omit [DecidableEq κ] in
theorem mem_enter (entry other : Appointment κ ℚ) (agenda : List (Appointment κ ℚ)) :
    other ∈ entry.enter agenda ↔ other = entry ∨ other ∈ agenda := by
  induction agenda with
  | nil => simp [Appointment.enter]
  | cons head rest ih =>
      unfold Appointment.enter
      split
      next => simp
      next => simp [ih, or_left_comm]

omit [DecidableEq κ] in
theorem sorted_enter (entry : Appointment κ ℚ) {agenda : List (Appointment κ ℚ)}
    (hsorted : agenda.Pairwise fun first second => first.moment ≤ second.moment) :
    (entry.enter agenda).Pairwise fun first second => first.moment ≤ second.moment := by
  induction agenda with
  | nil => simp [Appointment.enter]
  | cons head rest ih =>
      obtain ⟨hhead, hrest⟩ := List.pairwise_cons.mp hsorted
      unfold Appointment.enter
      split
      next hlt =>
        refine List.pairwise_cons.mpr ⟨?_, hsorted⟩
        intro other hother
        rcases List.mem_cons.mp hother with rfl | hmem
        · exact hlt.le
        · exact hlt.le.trans (hhead other hmem)
      next hge =>
        refine List.pairwise_cons.mpr ⟨?_, ih hrest⟩
        intro other hother
        rcases (mem_enter entry other rest).mp hother with rfl | hmem
        · exact not_lt.mp hge
        · exact hhead other hmem

variable {queue : WorkQueue κ ℚ}

theorem Scheduled.of_subset {changed : WorkQueue κ ℚ} (hgood : queue.Scheduled)
    (hagenda : changed.agenda = queue.agenda)
    (hwaiting : ∀ key moment, Assoc.get? changed.waiting key = some moment →
      Assoc.get? queue.waiting key = some moment) : changed.Scheduled := by
  constructor
  · rw [hagenda]
    exact hgood.sorted
  · intro key moment hmoment
    rw [hagenda]
    exact hgood.covered key moment (hwaiting key moment hmoment)

omit [DecidableEq κ] in
theorem get?_of_get?_erase [DecidableEq κ] {entries : List (κ × ℚ)} {key other : κ} {moment : ℚ}
    (h : Assoc.get? (Assoc.erase entries other) key = some moment) :
    key ≠ other ∧ Assoc.get? entries key = some moment := by
  rw [Assoc.get?_erase] at h
  split at h
  next => cases h
  next hne => exact ⟨hne, h⟩

theorem Scheduled.afterAdd (hgood : queue.Scheduled) (key : κ) : (queue.add key).Scheduled := by
  unfold add
  split
  next => exact hgood
  next =>
    refine hgood.of_subset (by simp) ?_
    intro other moment hmoment
    rw [markDirty_waiting] at hmoment
    exact (get?_of_get?_erase hmoment).2

theorem Scheduled.afterAppoint (hgood : queue.Scheduled) (key : κ) (moment : ℚ) :
    (queue.appoint key moment).Scheduled := by
  rcases appoint_cases key moment queue with ⟨-, -, -, h⟩ | ⟨-, h⟩
  · rw [h]
    exact hgood
  · rw [h]
    refine ⟨sorted_enter _ hgood.sorted, ?_⟩
    intro other current hcurrent
    rw [mem_enter]
    by_cases heq : other = key
    · subst heq
      left
      simpa [Assoc.get?_put, eq_comm] using hcurrent
    · right
      exact hgood.covered other current (by simpa [Assoc.get?_put, heq] using hcurrent)

theorem Scheduled.afterRequest [Clock ω ℚ] (hgood : queue.Scheduled) (clock : ω)
    (request : QueueRequest κ ℚ ω) : (request.apply queue clock).1.Scheduled := by
  obtain ⟨limiter, ⟨shut, -, h⟩ | ⟨other, -, h⟩ | ⟨other, moment, -, -, h⟩⟩ :=
    apply_cases queue clock request
  all_goals
    have hsame : ({ queue with limiter } : WorkQueue κ ℚ).Scheduled :=
      hgood.of_subset rfl fun _ _ hmoment => hmoment
  · rw [h]
    exact hgood.of_subset rfl fun _ _ hmoment => hmoment
  · rw [h]
    exact hsame.afterAdd other
  · rw [h]
    exact hsame.afterAppoint other moment

theorem Scheduled.afterTaking {after : WorkQueue κ ℚ} {taken : Option κ}
    (hgood : queue.Scheduled) (htaking : queue.Taking taken after) : after.Scheduled := by
  cases htaking with
  | nothing => exact hgood
  | delivered hdeliver =>
      obtain ⟨rest, -, rfl⟩ := deliver?_eq_some hdeliver
      exact hgood.of_subset rfl fun _ _ hmoment => hmoment

/-! ### What becomes of the entries of a promotion -/

/-- A key that still waits after an entry was dealt with waited before, and the
entry is not the one that it waits for. -/
theorem waiting_of_keep {entry : Appointment κ ℚ} {key : κ} {moment : ℚ}
    (h : Assoc.get? (queue.keep entry).waiting key = some moment) :
    Assoc.get? queue.waiting key = some moment ∧ entry ≠ ⟨moment, key⟩ := by
  unfold keep at h
  split at h
  next agreed hagreed =>
    split at h
    next =>
      have herased :
          Assoc.get? (Assoc.erase queue.waiting entry.key) key = some moment := by
        simp only at h
        split at h
        next => exact h
        next => simpa using h
      obtain ⟨hne, hmoment⟩ := get?_of_get?_erase herased
      refine ⟨hmoment, ?_⟩
      rintro rfl
      exact hne rfl
    next hstale =>
      refine ⟨h, ?_⟩
      rintro rfl
      rw [hagreed, Option.some.injEq] at h
      exact hstale (by simp [h])
  next hnone =>
    refine ⟨h, ?_⟩
    rintro rfl
    rw [hnone] at h
    cases h

/-- A key that waits is made dirty by its own entry, and waits on after any
other. -/
theorem dirty_or_waiting_of_keep (hopen : queue.shuttingDown = false)
    {entry : Appointment κ ℚ} {key : κ} {moment : ℚ}
    (h : Assoc.get? queue.waiting key = some moment) :
    key ∈ (queue.keep entry).dirty ∨
      Assoc.get? (queue.keep entry).waiting key = some moment ∧ entry ≠ ⟨moment, key⟩ := by
  have hpledged : (queue.keep entry).Pledged (moment = ·) key :=
    Pledged.afterKeep (Or.inr ⟨moment, h, rfl⟩) hopen entry
  rcases hpledged with hdirty | ⟨later, hlater, rfl⟩
  · exact Or.inl hdirty
  · exact Or.inr ⟨hlater, (waiting_of_keep hlater).2⟩

theorem scheduled_promoteFrom (now : ℚ) {entries : List (Appointment κ ℚ)}
    (hsorted : entries.Pairwise fun first second => first.moment ≤ second.moment)
    (hcovered : ∀ key moment, Assoc.get? queue.waiting key = some moment →
      ⟨moment, key⟩ ∈ entries) : (promoteFrom now entries queue).Scheduled := by
  induction entries generalizing queue with
  | nil =>
      refine ⟨List.Pairwise.nil, ?_⟩
      intro key moment hmoment
      exact absurd (hcovered key moment hmoment) (by simp)
  | cons entry rest ih =>
      unfold promoteFrom
      split
      next =>
        refine ih (List.pairwise_cons.mp hsorted).2 ?_
        intro key moment hmoment
        obtain ⟨hbefore, hne⟩ := waiting_of_keep hmoment
        rcases List.mem_cons.mp (hcovered key moment hbefore) with heq | hmem
        · exact absurd heq.symm hne
        · exact hmem
      next => exact ⟨hsorted, hcovered⟩

theorem Scheduled.afterPromote (hgood : queue.Scheduled) (now : ℚ) :
    (queue.promote now).Scheduled :=
  scheduled_promoteFrom now hgood.sorted hgood.covered

/-- A promotion makes every key dirty that is due. -/
theorem dirty_of_due (hopen : queue.shuttingDown = false) {now : ℚ}
    {entries : List (Appointment κ ℚ)}
    (hsorted : entries.Pairwise fun first second => first.moment ≤ second.moment)
    {key : κ} {moment : ℚ} (hwaiting : Assoc.get? queue.waiting key = some moment)
    (hentry : ⟨moment, key⟩ ∈ entries) (hdue : moment ≤ now) :
    key ∈ (promoteFrom now entries queue).dirty := by
  induction entries generalizing queue with
  | nil => cases hentry
  | cons entry rest ih =>
      obtain ⟨hhead, hrest⟩ := List.pairwise_cons.mp hsorted
      unfold promoteFrom
      split
      next =>
        have hstill := (keep_shuttingDown entry).trans hopen
        rcases dirty_or_waiting_of_keep hopen hwaiting with hdirty | ⟨hlater, hne⟩
        · have hpledged : (queue.keep entry).Pledged (fun _ => False) key := Or.inl hdirty
          rcases hpledged.afterPromoteFrom hstill now rest with hend | ⟨_, _, hfalse⟩
          · exact hend
          · exact hfalse.elim
        · refine ih hstill hrest hlater ?_
          rcases List.mem_cons.mp hentry with heq | hmem
          · exact absurd heq.symm hne
          · exact hmem
      next hlate =>
        -- The agenda ascends, so the entry of a key that is due cannot stand
        -- behind one that is not.
        refine absurd ?_ hlate
        rcases List.mem_cons.mp hentry with rfl | hmem
        · exact hdue
        · exact (hhead _ hmem).trans hdue

/-- A look that finds nothing by its deadline leaves no key ready, and the keys
that were due behind copies in flight. -/
theorem due_inFlight_of_nothing [Clock ω ℚ] {after : WorkQueue κ ℚ} {deadline : Option ℚ}
    {clock later : ω} (hgood : queue.Consistent) (hscheduled : queue.Scheduled)
    (hopen : queue.shuttingDown = false)
    (hlook : queue.look deadline clock = (.nothing, after, later)) :
    after.ready = [] ∧
      ∀ key moment, Assoc.get? queue.waiting key = some moment →
        moment ≤ (Clock.read clock).1 → key ∈ after.dirty ∧ key ∈ after.inFlight := by
  rcases look_cases hlook with
    ⟨hshut, -, -⟩ | ⟨-, ⟨key, hfinding, -⟩ | ⟨-, rfl, hready⟩⟩
  · rw [hopen] at hshut
    cases hshut
  · cases hfinding
  · refine ⟨hready, fun key moment hwaiting hdue => ?_⟩
    have hdirty : key ∈ (queue.promote (Clock.read clock).1).dirty :=
      dirty_of_due hopen hscheduled.sorted hwaiting
        (hscheduled.covered key moment hwaiting) hdue
    refine ⟨hdirty, ?_⟩
    by_contra hfree
    have hmem := ((hgood.afterPromote _).ready_iff key).mpr ⟨hdirty, hfree⟩
    rw [hready] at hmem
    cases hmem

end WorkQueue

namespace History

variable [Clock ω ℚ]

theorem scheduled_afterStep {history next : History κ ℚ ω} (hgood : history.queue.Scheduled)
    {operation : Operation κ ℚ ω} (hstep : history.step? operation = some next) :
    next.queue.Scheduled := by
  cases operation with
  | request request =>
      cases hstep
      exact hgood.afterRequest history.clock request
  | look deadline =>
      cases hstep
      obtain ⟨found, hfound, htaking⟩ := WorkQueue.look_taking (P := WorkQueue.Scheduled)
        (fun _ now _ h => h.afterPromote now) hgood
        (rfl : history.queue.look deadline history.clock = _)
      exact hfound.afterTaking htaking
  | get timeout =>
      cases hstep
      obtain ⟨found, hfound, htaking⟩ := WorkQueue.get_taking (P := WorkQueue.Scheduled)
        (fun _ now _ h => h.afterPromote now) hgood
        (rfl : history.queue.get timeout history.clock = _)
      exact hfound.afterTaking htaking
  | done key =>
      simp only [step?] at hstep
      split at hstep
      next =>
        cases hstep
        exact hgood.of_subset rfl fun _ _ hmoment => hmoment
      next => cases hstep

theorem play_scheduled {limiter : Backoff κ ℚ} {clock : ω}
    {operations : List (Operation κ ℚ ω)} {history : History κ ℚ ω}
    (hplay : play step? (start limiter clock) operations = some history) :
    history.queue.Scheduled :=
  play_keeps (P := fun history => history.queue.Scheduled)
    (fun _ _ _ h hstep => scheduled_afterStep h hstep)
    (WorkQueue.scheduled_empty limiter) hplay

/-- A key asked for now is dirty, and one asked for after a delay is dirty or
waits for a moment in time. -/
theorem request_pledged {history : History κ ℚ ω} (hopen : history.queue.shuttingDown = false)
    (key : κ) :
    (history.request (.add key)).queue.Pledged (fun _ => False) key ∧
      ∀ delay, 0 < delay →
        (history.request (.addAfter key delay)).queue.Pledged
          (· ≤ (Clock.read history.clock).1 + delay) key := by
  refine ⟨Or.inl (WorkQueue.mem_dirty_add hopen key), fun delay hdelay => ?_⟩
  have hcases := WorkQueue.addAfter_cases history.queue key delay history.clock
  rcases hcases with ⟨hnow, -⟩ | ⟨hshut, -⟩ | ⟨-, -, h⟩
  · exact absurd hnow (not_le.mpr hdelay)
  · rw [hopen] at hshut
    cases hshut
  · have hqueue : (history.request (.addAfter key delay)).queue =
        history.queue.appoint key ((Clock.read history.clock).1 + delay) := h
    rw [hqueue]
    exact WorkQueue.appoint_pledged _ _ le_rfl fun _ hle => hle

theorem ready_or_inFlight_of_dirty {queue : WorkQueue κ ℚ} (hgood : queue.Consistent) {key : κ}
    (hdirty : key ∈ queue.dirty) :
    key ∈ queue.ready ∨ key ∈ queue.inFlight ∧ key ∈ (queue.done key).ready := by
  by_cases hflying : key ∈ queue.inFlight
  · exact Or.inr ⟨hflying, by simp [WorkQueue.done, hdirty]⟩
  · exact Or.inl ((hgood.ready_iff key).mpr ⟨hdirty, hflying⟩)

/-- No accepted request is lost, whatever the clock shows.  From a request for
now until its key is handed out the key stays dirty; from a request for later
it stays dirty or waits for a moment no later than agreed; every key that waits
has its entry on the agenda; and a look, or a `get` as the last of its looks,
that finds nothing by its deadline leaves no key ready and has made every key
that was due dirty behind its copy in flight. -/
theorem accepted_requests_kept (limiter : Backoff κ ℚ) (start : ω)
    {operations : List (Operation κ ℚ ω)} {history : History κ ℚ ω}
    (hplay : play step? (.start limiter start) operations = some history)
    (hopen : history.queue.shuttingDown = false) :
    (∀ key following later, play step? (history.request (.add key)) following = some later →
        later.handed.count key = history.handed.count key →
          key ∈ later.queue.dirty ∧
            (key ∈ later.queue.ready ∨
              key ∈ later.queue.inFlight ∧ key ∈ (later.queue.done key).ready)) ∧
      (∀ key delay following later, 0 < delay →
        play step? (history.request (.addAfter key delay)) following = some later →
          later.handed.count key = history.handed.count key →
            key ∈ later.queue.dirty ∨
              ∃ moment, Assoc.get? later.queue.waiting key = some moment ∧
                moment ≤ (Clock.read history.clock).1 + delay) ∧
      (∀ key moment, Assoc.get? history.queue.waiting key = some moment →
        ⟨moment, key⟩ ∈ history.queue.agenda) ∧
      (∀ deadline after clock,
        history.queue.look (some deadline) history.clock = (.nothing, after, clock) →
          after.ready = [] ∧
            ∀ key moment, Assoc.get? history.queue.waiting key = some moment →
              moment ≤ (Clock.read history.clock).1 →
                key ∈ after.dirty ∧ key ∈ after.inFlight) ∧
      ∀ timeout after clock,
        history.queue.get (some timeout) history.clock = (.nothing, after, clock) →
          ∃ looks last, play step? history looks = some last ∧
            last.queue.look (some ((Clock.read history.clock).1 + timeout)) last.clock =
              (.nothing, after, clock) ∧
            after.ready = [] ∧
              ∀ key moment, Assoc.get? last.queue.waiting key = some moment →
                moment ≤ (Clock.read last.clock).1 →
                  key ∈ after.dirty ∧ key ∈ after.inFlight := by
  have hsound := play_sound hplay
  have hscheduled := play_scheduled hplay
  refine ⟨?_, ?_, hscheduled.covered, ?_, ?_⟩
  · intro key following later hlater hcount
    have hpledged := pledged_of_play (P := fun _ => False) (fun _ _ h _ => h)
      (request_pledged hopen key).1 hlater hcount
    have hgood : later.queue.Consistent :=
      (play_keeps (fun _ operation _ h hstep => h.afterStep operation hstep)
        (hsound.afterRequest (.add key)) hlater).consistent
    rcases hpledged with hdirty | ⟨_, _, hfalse⟩
    · exact ⟨hdirty, ready_or_inFlight_of_dirty hgood hdirty⟩
    · exact hfalse.elim
  · intro key delay following later hdelay hlater hcount
    have hdown : WorkQueue.Downward (· ≤ (Clock.read history.clock).1 + delay) :=
      fun late early hlate hearlier => (not_le.mp hearlier).le.trans hlate
    exact pledged_of_play hdown ((request_pledged hopen key).2 delay hdelay) hlater hcount
  · intro deadline after clock hlook
    exact WorkQueue.due_inFlight_of_nothing hsound.consistent hscheduled hopen hlook
  · intro timeout after clock hget
    let begun : History κ ℚ ω := { history with clock := (Clock.read history.clock).2 }
    obtain ⟨looks, last, hlooks, hstill, hlook⟩ := getWithin_nothing begun hget
    have hlast : last.queue.Consistent ∧ last.queue.Scheduled :=
      play_keeps (P := fun history => history.Sound ∧ history.queue.Scheduled)
        (fun _ operation _ h hstep =>
          ⟨h.1.afterStep operation hstep, scheduled_afterStep h.2 hstep⟩)
        (⟨⟨hsound.consistent, hsound.paid⟩, hscheduled⟩ : begun.Sound ∧ begun.queue.Scheduled)
        hlooks |>.imp_left Sound.consistent
    have hdue := WorkQueue.due_inFlight_of_nothing hlast.1 hlast.2 (hstill.trans hopen) hlook
    refine ⟨.request (.tick begun.clock) :: looks, last, ?_, hlook, hdue⟩
    rw [play_cons]
    exact hlooks

/-- A key that waits for the fifth second, and is asked for again within three,
waits on for the earlier of the two moments; the queue is also held to a key
that was asked for again while in flight. -/
theorem accepted_requests_kept_of_earlier :
    let limiter : Backoff Nat ℚ := { base := 1, maximum := 300 }
    let operations : List (Operation Nat ℚ (HandClock ℚ)) :=
      [.request (.addAfter 1 5), .request (.add 2), .look none, .request (.tick ⟨1⟩)]
    ∃ history, play step? (.start limiter ⟨0⟩) operations = some history ∧
      history.queue.shuttingDown = false ∧
      (∃ later, play step? (history.request (.add 2)) [.look (some 1)] = some later ∧
        2 ∈ later.queue.inFlight ∧ 2 ∈ later.queue.dirty) ∧
      (∃ later, play step? (history.request (.addAfter 1 3)) [.look (some 4)] = some later ∧
        (1 ∈ later.queue.dirty ∨
          ∃ moment, Assoc.get? later.queue.waiting 1 = some moment ∧ moment ≤ 1 + 3)) ∧
      ⟨5, 1⟩ ∈ history.queue.agenda := by
  intro limiter operations
  have hplay : ∃ history, play step? (.start limiter (⟨0⟩ : HandClock ℚ)) operations =
      some history := ⟨_, rfl⟩
  obtain ⟨history, hhistory⟩ := hplay
  have hopen : history.queue.shuttingDown = false := by
    cases hhistory
    decide +kernel
  have hkept := accepted_requests_kept limiter (⟨0⟩ : HandClock ℚ) hhistory hopen
  cases hhistory
  refine ⟨_, rfl, hopen, ⟨_, rfl, ?_, ?_⟩, ⟨_, rfl, ?_⟩, ?_⟩
  · decide +kernel
  · exact (hkept.1 2 [.look (some 1)] _ rfl (by decide +kernel)).1
  · exact hkept.2.1 1 3 [.look (some 4)] _ (by norm_num) rfl (by decide +kernel)
  · exact hkept.2.2.1 1 5 (by decide +kernel)

end History

end OneShot
