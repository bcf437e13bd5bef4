import OneShot.Proofs.Queue.Promotion
import Mathlib.Order.Bounds.Basic

/-!
# Workers wake in time

A worker that finds no key sleeps until the next entry of the agenda or its own deadline.  The
entry may be one of a superseded moment, or of a key that is in flight; the worker then sleeps
again.  With exact moments, and nobody else about, each sleep uses up an entry or the deadline, so
that there are few of them, and none goes past the moment at which a key can be had.
-/

namespace OneShot

/-- A clock that moves by timed sleeps alone, and tells of them. -/
structure NapClock where
  present : ℚ
  /-- The lengths of the timed sleeps, the last one first. -/
  naps : List ℚ := []
  /-- A sleep without end has begun. -/
  gone : Bool := false

def NapClock.nap (clock : NapClock) (length : ℚ) : NapClock :=
  { clock with present := clock.present + length, naps := length :: clock.naps }

@[simp] theorem NapClock.nap_present (clock : NapClock) (length : ℚ) :
    (clock.nap length).present = clock.present + length := rfl

@[simp] theorem NapClock.nap_naps (clock : NapClock) (length : ℚ) :
    (clock.nap length).naps = length :: clock.naps := rfl

instance : Clock NapClock ℚ where
  read clock := (clock.present, clock)
  sleep duration clock :=
    match duration with
    | none => { clock with gone := true }
    | some length => clock.nap length
  ownMoves _ := 0

variable {κ ω : Type} [DecidableEq κ]

namespace WorkQueue

variable {queue : WorkQueue κ ℚ} {deadline : Option ℚ} {key : κ} {now next moment length : ℚ}
  {clock : NapClock}

/-! ## When a key can be had -/

theorem Eligible.mono (h : queue.Eligible now key) (hle : now ≤ moment) :
    queue.Eligible moment key := by
  rcases h with hready | ⟨hfree, due, hwaiting, hdue⟩
  · exact Or.inl hready
  · exact Or.inr ⟨hfree, due, hwaiting, hdue.trans hle⟩

/-- If nothing can be had now, what can be had at a moment waits for an entry that is left. -/
theorem Scheduled.eligible_of_idle (hgood : queue.Consistent) (hscheduled : queue.Scheduled)
    (hopen : queue.shuttingDown = false) (hidle : (queue.promote now).ready = [])
    (heligible : queue.Eligible moment key) :
    (queue.promote now).Eligible moment key ∧
      ∃ entry ∈ (queue.promote now).agenda, entry.moment ≤ moment := by
  have hnobody : ¬ queue.Eligible now key := by
    rw [← mem_ready_promote hgood hscheduled hopen, hidle]
    exact List.not_mem_nil
  rcases heligible with hready | ⟨hfree, due, hwaiting, hdue⟩
  · exact absurd (Or.inl hready) hnobody
  · have hlater : now < due := by
      by_contra hearly
      exact hnobody (Or.inr ⟨hfree, due, hwaiting, not_lt.mp hearly⟩)
    have hstill : Assoc.get? (queue.promote now).waiting key = some due :=
      waiting_promoteFrom_of_later hopen hwaiting hlater
    constructor
    · right
      rw [promote_inFlight]
      exact ⟨hfree, due, hstill, hdue⟩
    · exact ⟨⟨due, key⟩, (hscheduled.afterPromote now).covered key due hstill, hdue⟩

theorem eligible_of_promote (hidle : (queue.promote now).ready = [])
    (heligible : (queue.promote now).Eligible moment key) : queue.Eligible moment key := by
  rcases heligible with hready | ⟨hfree, due, hwaiting, hdue⟩
  · rw [hidle] at hready
    cases hready
  · right
    rw [promote_inFlight] at hfree
    exact ⟨hfree, due, waiting_of_promoteFrom hwaiting, hdue⟩

/-! ## How long a worker sleeps -/

omit [DecidableEq κ] in
/-- A worker with nothing to wait for sleeps without end, and any other one until the first of
the moments that are to come. -/
theorem sleepLength_cases (hsorted : queue.agenda.Pairwise
      fun first second => first.moment ≤ second.moment)
    (hlater : ∀ entry ∈ queue.agenda, now < entry.moment)
    (hdeadline : ∀ limit ∈ deadline, now < limit) :
    (queue.sleepLength deadline now = none ∧ queue.agenda = [] ∧ deadline = none) ∨
      ∃ length, queue.sleepLength deadline now = some length ∧ 0 < length ∧
        (∀ entry ∈ queue.agenda, now + length ≤ entry.moment) ∧
        (∀ limit ∈ deadline, now + length ≤ limit) ∧
        ((∃ entry ∈ queue.agenda, entry.moment = now + length) ∨
          deadline = some (now + length)) := by
  cases hagenda : queue.agenda with
  | nil =>
      cases deadline with
      | none => exact Or.inl ⟨by simp [sleepLength, hagenda], rfl, rfl⟩
      | some limit =>
          right
          have hlimit := hdeadline limit rfl
          refine ⟨limit - now, ?_, by linarith, by simp, by simp, by simp⟩
          simp [sleepLength, hagenda, hlimit.not_gt]
  | cons head rest =>
      rw [hagenda] at hsorted hlater
      obtain ⟨hhead, -⟩ := List.pairwise_cons.mp hsorted
      have hnext := hlater head List.mem_cons_self
      have hfirst : ∀ entry ∈ head :: rest, head.moment ≤ entry.moment := by
        intro entry hentry
        rcases List.mem_cons.mp hentry with rfl | hrest
        · exact le_rfl
        · exact hhead entry hrest
      right
      cases deadline with
      | none =>
          refine ⟨head.moment - now, ?_, by linarith, ?_, by simp, by simp⟩
          · simp [sleepLength, hagenda, hnext.not_gt]
          · simpa using hfirst
      | some limit =>
          have hlimit := hdeadline limit rfl
          by_cases hbefore : limit - now < head.moment - now
          · refine ⟨limit - now, ?_, by linarith, ?_, by simp, by simp⟩
            · simp only [sleepLength, hagenda, List.head?_cons, Option.map_some, sooner,
                if_pos hbefore, if_neg (sub_nonneg.mpr hlimit.le).not_gt]
            · intro entry hentry
              linarith [hfirst entry hentry]
          · refine ⟨head.moment - now, ?_, by linarith, ?_, ?_, by simp⟩
            · simp only [sleepLength, hagenda, List.head?_cons, Option.map_some, sooner,
                if_neg hbefore, if_neg (sub_nonneg.mpr hnext.le).not_gt]
            · simpa using hfirst
            · intro other hother
              cases hother
              linarith

/-- The sleeps that a worker may still have to take: one for each entry of the agenda that is to
come, and one for its deadline. -/
def napsLeft (queue : WorkQueue κ ℚ) (deadline : Option ℚ) (now : ℚ) : Nat :=
  (queue.agenda.countP fun entry => decide (now < entry.moment)) +
    (deadline.any fun limit => decide (now < limit)).toNat

omit [DecidableEq κ] in
theorem napsLeft_le (queue : WorkQueue κ ℚ) (deadline : Option ℚ) (now : ℚ) :
    queue.napsLeft deadline now ≤ queue.agenda.length + 1 :=
  Nat.add_le_add List.countP_le_length (Bool.toNat_le _)

/-- A sleep up to an entry or to the deadline leaves fewer of them to come. -/
theorem napsLeft_promote_lt (hpos : 0 < length)
    (hwakes : (∃ entry ∈ (queue.promote now).agenda, entry.moment = now + length) ∨
      deadline = some (now + length)) :
    (queue.promote now).napsLeft deadline (now + length) < queue.napsLeft deadline now := by
  have hearlier : ∀ moment : ℚ, now + length < moment → now < moment := fun moment h => by linarith
  have hsub : (queue.promote now).agenda.Sublist queue.agenda := by
    rw [promote, promoteFrom_agenda]
    exact List.dropWhile_sublist _
  have hentries := hsub.countP_le (p := fun entry => decide (now < entry.moment))
  have hcount : ∀ entries : List (Appointment κ ℚ),
      (entries.countP fun entry => decide (now + length < entry.moment)) ≤
        entries.countP fun entry => decide (now < entry.moment) := fun entries =>
    List.countP_mono_left fun entry _ h => by
      simpa using hearlier entry.moment (by simpa using h)
  have hlimit : (deadline.any fun limit => decide (now + length < limit)).toNat ≤
      (deadline.any fun limit => decide (now < limit)).toNat := by
    cases deadline with
    | none => exact le_rfl
    | some limit =>
        apply Bool.toNat_le_toNat
        intro h
        simpa using hearlier limit (by simpa using h)
  unfold napsLeft
  rcases hwakes with ⟨entry, hentry, hmoment⟩ | rfl
  · -- the entry slept for counts before the sleep, and no longer after it
    obtain ⟨before, after, hsplit⟩ := List.append_of_mem hentry
    rw [hsplit] at hentries ⊢
    have hbefore := hcount before
    have hafter := hcount after
    simp only [List.countP_append, List.countP_cons, hmoment, lt_self_iff_false, decide_false,
      Bool.false_eq_true, if_false, lt_add_iff_pos_right, hpos, decide_true, if_true] at hentries ⊢
    omega
  · have hentries' := (hcount (queue.promote now).agenda).trans hentries
    simp only [Option.any_some, lt_self_iff_false, decide_false, lt_add_iff_pos_right, hpos,
      decide_true, Bool.toNat_false, Bool.toNat_true]
    omega

/-! ## One look -/

theorem look_nap_cases (hopen : queue.shuttingDown = false) (deadline : Option ℚ)
    (clock : NapClock) :
    (∃ key after, key ∈ (queue.promote clock.present).ready ∧
        queue.look deadline clock = (.delivered key, after, clock)) ∨
      ((queue.promote clock.present).ready = [] ∧
        ((∃ limit, deadline = some limit ∧ limit ≤ clock.present ∧
            queue.look deadline clock = (.nothing, queue.promote clock.present, clock)) ∨
          ((∀ limit ∈ deadline, clock.present < limit) ∧
            queue.look deadline clock =
              (.asleep ((queue.promote clock.present).sleepLength deadline clock.present),
                queue.promote clock.present, clock)))) := by
  have hread : Clock.read clock = (clock.present, clock) := rfl
  cases hdeliver : (queue.promote clock.present).deliver? with
  | some found =>
      obtain ⟨key, after⟩ := found
      refine Or.inl ⟨key, after, mem_ready_of_deliver? hdeliver, ?_⟩
      simp [look, hopen, hread, hdeliver]
  | none =>
      refine Or.inr ⟨deliver?_eq_none_iff.mp hdeliver, ?_⟩
      cases deadline with
      | none => exact Or.inr ⟨by simp, by simp [look, hopen, hread, hdeliver]⟩
      | some limit =>
          by_cases hover : limit ≤ clock.present
          · exact Or.inl ⟨limit, rfl, hover, by simp [look, hopen, hread, hdeliver, hover]⟩
          · exact Or.inr ⟨by simpa using hover, by simp [look, hopen, hread, hdeliver, hover]⟩

/-! ## All looks -/

/-- The moments, from a first one on, at which some key can be had. -/
def servable (queue : WorkQueue κ ℚ) (start : ℚ) : Set ℚ :=
  { moment | start ≤ moment ∧ ∃ key, queue.Eligible moment key }

/-- How a worker's looking for a key ends that begins at a moment. -/
inductive EndsInTime (queue : WorkQueue κ ℚ) (deadline : Option ℚ) (start : ℚ) :
    Receipt κ → NapClock → Prop where
  /-- With a key, as soon as there is one, and by the deadline. -/
  | delivered {key : κ} {clock : NapClock} (heligible : queue.Eligible clock.present key)
      (hleast : IsLeast (queue.servable start) clock.present)
      (hlimit : ∀ limit ∈ deadline, clock.present ≤ max start limit) :
      EndsInTime queue deadline start (.delivered key) clock
  /-- With nothing, at the deadline. -/
  | nothing {limit : ℚ} {clock : NapClock} (hdeadline : deadline = some limit)
      (hend : clock.present = max start limit)
      (hnobody : ∀ moment ≤ clock.present, ∀ key, ¬ queue.Eligible moment key) :
      EndsInTime queue deadline start .nothing clock
  /-- In a sleep without end, since there will never be a key. -/
  | never {clock : NapClock} (hdeadline : deadline = none) (hgone : clock.gone = true)
      (hnobody : ∀ moment key, ¬ queue.Eligible moment key) :
      EndsInTime queue deadline start .never clock

/-- A worker that found nothing has missed nothing when it wakes. -/
theorem EndsInTime.of_promote {receipt : Receipt κ} (hgood : queue.Consistent)
    (hscheduled : queue.Scheduled) (hopen : queue.shuttingDown = false)
    (hidle : (queue.promote now).ready = []) (hnext : now ≤ next)
    (hentries : ∀ entry ∈ (queue.promote now).agenda, next ≤ entry.moment)
    (hdeadline : ∀ limit ∈ deadline, next ≤ limit)
    (hends : (queue.promote now).EndsInTime deadline next receipt clock) :
    queue.EndsInTime deadline now receipt clock := by
  have hafter : ∀ {moment key}, queue.Eligible moment key →
      next ≤ moment ∧ (queue.promote now).Eligible moment key := by
    intro moment key heligible
    obtain ⟨hstill, entry, hentry, hle⟩ :=
      hscheduled.eligible_of_idle hgood hopen hidle heligible
    exact ⟨(hentries entry hentry).trans hle, hstill⟩
  have hmax : ∀ limit ∈ deadline, max next limit = max now limit := by
    intro limit hlimit
    have hle := hdeadline limit hlimit
    rw [max_eq_right hle, max_eq_right (hnext.trans hle)]
  cases hends with
  | delivered heligible hleast hlimit =>
      apply EndsInTime.delivered
      · exact eligible_of_promote hidle heligible
      · constructor
        · exact ⟨hnext.trans hleast.1.1, _, eligible_of_promote hidle heligible⟩
        · rintro moment ⟨-, other, hother⟩
          obtain ⟨hle, hstill⟩ := hafter hother
          exact hleast.2 ⟨hle, other, hstill⟩
      · intro limit hmem
        rw [← hmax limit hmem]
        exact hlimit limit hmem
  | @nothing limit _ hsome hend hnobody =>
      apply EndsInTime.nothing hsome
      · rw [hend, hmax limit hsome]
      · intro moment hle key heligible
        exact hnobody moment hle key (hafter heligible).2
  | never hnone hgone hnobody =>
      apply EndsInTime.never hnone hgone
      intro moment key heligible
      exact hnobody moment key (hafter heligible).2

/-- Given turns enough for the sleeps that are left, looking for a key ends in time. -/
theorem getWithin_endsInTime {turns : Nat} {receipt : Receipt κ} {after : WorkQueue κ ℚ}
    {later : NapClock} (hgood : queue.Consistent) (hscheduled : queue.Scheduled)
    (hopen : queue.shuttingDown = false)
    (hturns : queue.napsLeft deadline clock.present < turns)
    (hget : getWithin deadline turns queue clock = (receipt, after, later)) :
    queue.EndsInTime deadline clock.present receipt later ∧
      ∃ naps, later.naps = naps ++ clock.naps ∧
        naps.length ≤ queue.napsLeft deadline clock.present ∧ ∀ nap ∈ naps, 0 < nap := by
  -- a sleep is followed by the rest of the looks, of which `of_promote` speaks for the whole
  induction turns generalizing queue clock with
  | zero => exact absurd hturns (Nat.not_lt_zero _)
  | succ turns ih =>
      unfold getWithin at hget
      rcases look_nap_cases hopen deadline clock with
        ⟨key, rest, hready, hlook⟩ | ⟨hidle, ⟨limit, rfl, hover, hlook⟩ | ⟨hdeadline, hlook⟩⟩
      · rw [hlook] at hget
        cases hget
        have heligible := (mem_ready_promote hgood hscheduled hopen).mp hready
        constructor
        · apply EndsInTime.delivered heligible
          · exact ⟨⟨le_rfl, key, heligible⟩, fun moment hmoment => hmoment.1⟩
          · exact fun limit _ => le_max_left _ _
        · exact ⟨[], by simp⟩
      · rw [hlook] at hget
        cases hget
        constructor
        · apply EndsInTime.nothing rfl
          · rw [max_eq_left hover]
          · intro moment hle key heligible
            have hready := (mem_ready_promote hgood hscheduled hopen).mpr (heligible.mono hle)
            rw [hidle] at hready
            cases hready
        · exact ⟨[], by simp⟩
      · have hleft := hscheduled.afterPromote clock.present
        rw [hlook] at hget
        rcases sleepLength_cases hleft.sorted (fun _ => hscheduled.lt_of_mem_promote) hdeadline with
          ⟨hlength, hempty, rfl⟩ | ⟨length, hlength, hpos, hentries, hlimit, hwakes⟩
        · rw [hlength] at hget
          cases hget
          constructor
          · apply EndsInTime.never rfl rfl
            intro moment key heligible
            obtain ⟨-, entry, hentry, -⟩ :=
              hscheduled.eligible_of_idle hgood hopen hidle heligible
            rw [hempty] at hentry
            cases hentry
          · exact ⟨[], rfl, Nat.zero_le _, by simp⟩
        · rw [hlength] at hget
          have hless : (queue.promote clock.present).napsLeft deadline (clock.present + length) <
              queue.napsLeft deadline clock.present := napsLeft_promote_lt hpos hwakes
          have hrest : getWithin deadline turns (queue.promote clock.present) (clock.nap length) =
              (receipt, after, later) := hget
          have hfewer : (queue.promote clock.present).napsLeft deadline
              (clock.nap length).present < turns := by
            rw [NapClock.nap_present]
            omega
          obtain ⟨hends, naps, hnaps, hcount, hallPos⟩ :=
            ih (hgood.afterPromote _) hleft ((promote_shuttingDown _).trans hopen) hfewer hrest
          rw [NapClock.nap_present] at hends hcount
          constructor
          · exact hends.of_promote hgood hscheduled hopen hidle (by linarith) hentries hlimit
          · refine ⟨naps ++ [length], by simp [hnaps], ?_, ?_⟩
            · rw [List.length_append, List.length_singleton]
              omega
            · intro nap hnap
              rcases List.mem_append.mp hnap with hnap | hnap
              · exact hallPos nap hnap
              · rw [List.mem_singleton.mp hnap]
                exact hpos

theorem get_eq_getWithin (queue : WorkQueue κ ℚ) (timeout : Option ℚ) (clock : NapClock) :
    queue.get timeout clock =
      getWithin (timeout.map (clock.present + ·)) (queue.enoughTurns clock) queue clock := by
  cases timeout with
  | none => rfl
  | some duration => rfl

omit [DecidableEq κ] in
theorem napsLeft_lt_enoughTurns (queue : WorkQueue κ ℚ) (deadline : Option ℚ)
    (clock : NapClock) : queue.napsLeft deadline clock.present < queue.enoughTurns clock := by
  have hle := queue.napsLeft_le deadline clock.present
  unfold enoughTurns
  omega

theorem get_endsInTime {start : ℚ} {timeout : Option ℚ} {receipt : Receipt κ}
    {after : WorkQueue κ ℚ} (hgood : queue.Consistent) (hscheduled : queue.Scheduled)
    (hopen : queue.shuttingDown = false)
    (hget : queue.get timeout ({ present := start } : NapClock) = (receipt, after, clock)) :
    queue.EndsInTime (timeout.map (start + ·)) start receipt clock ∧
      clock.naps.length ≤ queue.agenda.length + 1 ∧ ∀ nap ∈ clock.naps, 0 < nap := by
  rw [get_eq_getWithin] at hget
  obtain ⟨hends, naps, hnaps, hcount, hpos⟩ :=
    getWithin_endsInTime hgood hscheduled hopen (queue.napsLeft_lt_enoughTurns _ _) hget
  rw [List.append_nil] at hnaps
  rw [hnaps]
  exact ⟨hends, hcount.trans (queue.napsLeft_le _ _), hpos⟩

end WorkQueue

namespace History

variable [Clock ω ℚ]

/-- In every state of a queue that is not shutting down, with exact moments and nobody else
about, a `get` neither oversleeps nor spins.  Its timed sleeps are at most one more than the entries
of the agenda, and each takes time.  Within a timeout it ends with a key at the first moment at
which one can be had, and if there is no such moment up to the deadline, with nothing at the
deadline.  Without a timeout it ends likewise with a key, unless no key is ready and all that wait
are in flight; exactly then it sleeps without end. -/
theorem get_neither_oversleeps_nor_spins (limiter : Backoff κ ℚ) (first : ω)
    {operations : List (Operation κ ℚ ω)} {history : History κ ℚ ω}
    (hplay : play step? (.start limiter first) operations = some history)
    (hopen : history.queue.shuttingDown = false) (start : ℚ) :
    (∀ timeout receipt after clock,
      history.queue.get timeout ({ present := start } : NapClock) = (receipt, after, clock) →
        clock.naps.length ≤ history.queue.agenda.length + 1 ∧ ∀ nap ∈ clock.naps, 0 < nap) ∧
    (∀ timeout receipt after clock,
      history.queue.get (some timeout) ({ present := start } : NapClock) =
          (receipt, after, clock) →
        ((∃ moment ∈ history.queue.servable start, moment ≤ start + max timeout 0) →
          ∃ key, receipt = .delivered key ∧ history.queue.Eligible clock.present key ∧
            IsLeast (history.queue.servable start) clock.present ∧
            clock.present ≤ start + max timeout 0) ∧
        ((¬ ∃ moment ∈ history.queue.servable start, moment ≤ start + max timeout 0) →
          receipt = .nothing ∧ clock.present = start + max timeout 0)) ∧
    ∀ receipt after clock,
      history.queue.get none ({ present := start } : NapClock) = (receipt, after, clock) →
        (receipt = .never ∧ clock.gone = true ↔
          history.queue.ready = [] ∧ ∀ key moment,
            Assoc.get? history.queue.waiting key = some moment → key ∈ history.queue.inFlight) ∧
        (¬ (receipt = .never ∧ clock.gone = true) →
          ∃ key, receipt = .delivered key ∧ history.queue.Eligible clock.present key ∧
            IsLeast (history.queue.servable start) clock.present) := by
  have hgood := (play_sound hplay).consistent
  have hscheduled := play_scheduled hplay
  refine ⟨?_, ?_, ?_⟩
  · intro timeout receipt after clock hget
    exact (WorkQueue.get_endsInTime hgood hscheduled hopen hget).2
  · intro timeout receipt after clock hget
    obtain ⟨hends, -⟩ := WorkQueue.get_endsInTime hgood hscheduled hopen hget
    have hlast : max start (start + timeout) = start + max timeout 0 := by
      rw [max_comm timeout, ← max_add_add_left, add_zero]
    cases hends with
    | delivered heligible hleast hlimit =>
        have hin := hlimit _ rfl
        rw [hlast] at hin
        exact ⟨fun _ => ⟨_, rfl, heligible, hleast, hin⟩,
          fun hnone => absurd ⟨_, hleast.1, hin⟩ hnone⟩
    | nothing hdeadline hend hnobody =>
        cases hdeadline
        rw [hlast] at hend
        constructor
        · rintro ⟨moment, ⟨-, key, heligible⟩, hle⟩
          exact absurd heligible (hnobody moment (by rw [hend]; exact hle) key)
        · exact fun _ => ⟨rfl, hend⟩
    | never hdeadline => cases hdeadline
  · intro receipt after clock hget
    obtain ⟨hends, -⟩ := WorkQueue.get_endsInTime hgood hscheduled hopen hget
    cases hends with
    | delivered heligible hleast =>
        refine ⟨⟨by simp, ?_⟩, fun _ => ⟨_, rfl, heligible, hleast⟩⟩
        rintro ⟨hready, hheld⟩
        rcases heligible with hmem | ⟨hfree, moment, hwaiting, -⟩
        · rw [hready] at hmem
          cases hmem
        · exact absurd (hheld _ moment hwaiting) hfree
    | nothing hdeadline => cases hdeadline
    | never hdeadline hgone hnobody =>
        refine ⟨⟨fun _ => ⟨?_, ?_⟩, fun _ => ⟨rfl, hgone⟩⟩, fun hnot => absurd ⟨rfl, hgone⟩ hnot⟩
        · rw [List.eq_nil_iff_forall_not_mem]
          intro key hready
          exact hnobody start key (Or.inl hready)
        · intro key moment hwaiting
          by_contra hfree
          exact hnobody moment key (Or.inr ⟨hfree, moment, hwaiting, le_rfl⟩)

/-- A worker sleeps past the entry of a superseded moment, and past the moment of a key that is
in flight, and is given a key whose moment is its own deadline. -/
theorem get_neither_oversleeps_nor_spins_of_key_in_flight :
    let limiter : Backoff Nat ℚ := { base := 1, maximum := 300 }
    let operations : List (Operation Nat ℚ (HandClock ℚ)) :=
      [.request (.addAfter 1 5), .request (.add 1), .look none, .request (.addAfter 1 9),
        .request (.addAfter 2 20)]
    ∃ history, play step? (.start limiter ⟨0⟩) operations = some history ∧
      history.queue.shuttingDown = false ∧
      (history.queue.agenda.map fun entry => (entry.moment, entry.key)) =
        [(5, 1), (9, 1), (20, 2)] ∧
      1 ∈ history.queue.inFlight ∧
      ∃ key after clock,
        history.queue.get (some 20) ({ present := 0 } : NapClock) =
            (.delivered key, after, clock) ∧
          IsLeast (history.queue.servable 0) clock.present ∧ clock.present ≤ 20 ∧
          clock.naps.length ≤ 4 := by
  intro limiter operations
  have hplay : ∃ history, play step? (.start limiter (⟨0⟩ : HandClock ℚ)) operations =
      some history := ⟨_, rfl⟩
  obtain ⟨history, hhistory⟩ := hplay
  have hopen : history.queue.shuttingDown = false := by
    cases hhistory
    decide +kernel
  have hagenda : (history.queue.agenda.map fun entry => (entry.moment, entry.key)) =
      [(5, 1), (9, 1), (20, 2)] := by
    cases hhistory
    decide +kernel
  have hflying : 1 ∈ history.queue.inFlight := by
    cases hhistory
    decide +kernel
  have hlast : history.queue.Eligible 20 2 := by
    right
    refine ⟨?_, 20, ?_, le_rfl⟩
    · cases hhistory
      decide +kernel
    · cases hhistory
      decide +kernel
  have hlength : history.queue.agenda.length = 3 := by
    simpa using congrArg List.length hagenda
  obtain ⟨hnaps, hwithin, -⟩ :=
    get_neither_oversleeps_nor_spins limiter (⟨0⟩ : HandClock ℚ) hhistory hopen 0
  obtain ⟨receipt, after, clock, hget⟩ : ∃ receipt after clock,
      history.queue.get (some 20) ({ present := 0 } : NapClock) = (receipt, after, clock) :=
    ⟨_, _, _, rfl⟩
  obtain ⟨hserved, -⟩ := hwithin 20 receipt after clock hget
  obtain ⟨key, rfl, -, hleast, hlimit⟩ :=
    hserved ⟨20, ⟨by norm_num, 2, hlast⟩, by norm_num⟩
  have hcount := (hnaps _ _ _ _ hget).1
  rw [hlength] at hcount
  exact ⟨history, hhistory, hopen, hagenda, hflying, key, after, clock, hget, hleast,
    by simpa using hlimit, hcount⟩

end History

end OneShot
