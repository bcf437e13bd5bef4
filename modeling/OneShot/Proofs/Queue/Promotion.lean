import OneShot.Proofs.Queue.Pledges

/-!
# Promotions agree with a table of moments

The agenda is cleaned lazily: the entry of a moment that was superseded stays on it until it
comes up, and is then told from a current one only by its moment.  A promotion nevertheless does
what a plain table of the moments agreed on would do.  Exactly the keys whose moment has come
stop waiting and become dirty, and those of them that can be worked on are ready, behind the keys
that were, in the order of their moments.
-/

namespace OneShot

variable {κ ω : Type} [DecidableEq κ]

namespace WorkQueue

def DueBy (queue : WorkQueue κ ℚ) (now : ℚ) (key : κ) : Prop :=
  ∃ moment, Assoc.get? queue.waiting key = some moment ∧ moment ≤ now

/-- A key that a worker could be given at a moment. -/
def Eligible (queue : WorkQueue κ ℚ) (now : ℚ) (key : κ) : Prop :=
  key ∈ queue.ready ∨ key ∉ queue.inFlight ∧ queue.DueBy now key

variable {queue : WorkQueue κ ℚ} {entry : Appointment κ ℚ} {entries : List (Appointment κ ℚ)}
  {key : κ} {now moment : ℚ}

/-! ## One entry -/

/-- An entry is passed over unless its key waits for the very moment of it. -/
theorem keep_cases (hopen : queue.shuttingDown = false) (entry : Appointment κ ℚ) :
    (Assoc.get? queue.waiting entry.key ≠ some entry.moment ∧ queue.keep entry = queue) ∨
      (Assoc.get? queue.waiting entry.key = some entry.moment ∧
        queue.keep entry =
          { queue with waiting := Assoc.erase queue.waiting entry.key }.markDirty entry.key) := by
  unfold keep
  cases hwaiting : Assoc.get? queue.waiting entry.key with
  | none => simp
  | some agreed =>
      by_cases hsame : agreed = entry.moment
      · right
        simp [hsame, hopen]
      · left
        simp [hsame]

theorem markDirty_ready (queue : WorkQueue κ ℚ) (key : κ) :
    (queue.markDirty key).ready = queue.ready ∨
      (queue.markDirty key).ready = queue.ready ++ [key] := by
  unfold markDirty
  split
  next => exact Or.inl rfl
  next =>
    by_cases hflying : key ∈ queue.inFlight
    · simp [hflying]
    · simp [hflying]

/-- A key waits on while entries of earlier moments come up. -/
theorem waiting_keep_of_later (hopen : queue.shuttingDown = false)
    (hwaiting : Assoc.get? queue.waiting key = some moment) (hlater : entry.moment < moment) :
    Assoc.get? (queue.keep entry).waiting key = some moment := by
  rcases keep_cases hopen entry with ⟨-, heq⟩ | ⟨hcurrent, heq⟩
  · rw [heq]
    exact hwaiting
  · have hother : key ≠ entry.key := by
      rintro rfl
      rw [hwaiting, Option.some.injEq] at hcurrent
      exact hlater.ne hcurrent.symm
    rw [heq, markDirty_waiting, Assoc.get?_erase, if_neg hother]
    exact hwaiting

theorem dirty_of_keep (hopen : queue.shuttingDown = false)
    (hdirty : key ∈ (queue.keep entry).dirty) :
    key ∈ queue.dirty ∨ Assoc.get? queue.waiting key = some entry.moment := by
  rcases keep_cases hopen entry with ⟨-, heq⟩ | ⟨hcurrent, heq⟩
  · rw [heq] at hdirty
    exact Or.inl hdirty
  · rw [heq, mem_dirty_markDirty] at hdirty
    rcases hdirty with rfl | hdirty
    · exact Or.inr hcurrent
    · exact Or.inl hdirty

/-! ## All entries that are due -/

theorem promoteFrom_agenda (now : ℚ) (entries : List (Appointment κ ℚ))
    (queue : WorkQueue κ ℚ) :
    (promoteFrom now entries queue).agenda =
      entries.dropWhile fun entry => decide (entry.moment ≤ now) := by
  induction entries generalizing queue with
  | nil => rfl
  | cons entry rest ih =>
      unfold promoteFrom
      by_cases hdue : entry.moment ≤ now
      · rw [if_pos hdue, ih, List.dropWhile_cons_of_pos (by simpa using hdue)]
      · rw [if_neg hdue, List.dropWhile_cons_of_neg (by simpa using hdue)]

omit [DecidableEq κ] in
theorem lt_of_mem_dropWhile
    (hsorted : entries.Pairwise fun first second => first.moment ≤ second.moment)
    (hmem : entry ∈ entries.dropWhile fun entry => decide (entry.moment ≤ now)) :
    now < entry.moment := by
  induction entries with
  | nil => cases hmem
  | cons head rest ih =>
      obtain ⟨hhead, hrest⟩ := List.pairwise_cons.mp hsorted
      by_cases hdue : head.moment ≤ now
      · rw [List.dropWhile_cons_of_pos (by simpa using hdue)] at hmem
        exact ih hrest hmem
      · rw [List.dropWhile_cons_of_neg (by simpa using hdue)] at hmem
        rcases List.mem_cons.mp hmem with rfl | hmem
        · exact not_le.mp hdue
        · exact (not_le.mp hdue).trans_le (hhead entry hmem)

theorem Scheduled.lt_of_mem_promote (hgood : queue.Scheduled)
    (hmem : entry ∈ (queue.promote now).agenda) : now < entry.moment := by
  rw [promote, promoteFrom_agenda] at hmem
  exact lt_of_mem_dropWhile hgood.sorted hmem

theorem waiting_of_promoteFrom
    (hwaiting : Assoc.get? (promoteFrom now entries queue).waiting key = some moment) :
    Assoc.get? queue.waiting key = some moment := by
  have hkept := promoteFrom_keeps
    (P := fun after => ∀ key moment, Assoc.get? after.waiting key = some moment →
      Assoc.get? queue.waiting key = some moment)
    (fun _ _ h key moment hafter => h key moment (waiting_of_keep hafter).1)
    (fun _ _ h => h) now entries (fun _ _ h => h)
  exact hkept key moment hwaiting

theorem waiting_promoteFrom_of_later (hopen : queue.shuttingDown = false)
    (hwaiting : Assoc.get? queue.waiting key = some moment) (hlater : now < moment) :
    Assoc.get? (promoteFrom now entries queue).waiting key = some moment := by
  induction entries generalizing queue with
  | nil => exact hwaiting
  | cons entry rest ih =>
      unfold promoteFrom
      split
      next hdue =>
        apply ih
        · exact (keep_shuttingDown entry).trans hopen
        · exact waiting_keep_of_later hopen hwaiting (hdue.trans_lt hlater)
      next => exact hwaiting

/-- A promotion takes from the table the moments that have come. -/
theorem Scheduled.get?_waiting_promote (hgood : queue.Scheduled)
    (hopen : queue.shuttingDown = false) (now : ℚ) (key : κ) :
    Assoc.get? (queue.promote now).waiting key =
      (Assoc.get? queue.waiting key).filter fun moment => decide (now < moment) := by
  cases hwaiting : Assoc.get? queue.waiting key with
  | none =>
      rw [Option.filter_none, Option.eq_none_iff_forall_ne_some]
      intro moment hafter
      rw [waiting_of_promoteFrom hafter] at hwaiting
      cases hwaiting
  | some moment =>
      by_cases hlater : now < moment
      · rw [Option.filter_some_pos (by simpa using hlater)]
        exact waiting_promoteFrom_of_later hopen hwaiting hlater
      · rw [Option.filter_some_neg (by simpa using hlater), Option.eq_none_iff_forall_ne_some]
        intro other hafter
        have hsame : some other = some moment :=
          (waiting_of_promoteFrom hafter).symm.trans hwaiting
        cases hsame
        -- what still waits has an entry left, and that one is still to come
        have hentry := (hgood.afterPromote now).covered key moment hafter
        exact hlater (hgood.lt_of_mem_promote hentry)

theorem dirty_of_promoteFrom (hopen : queue.shuttingDown = false)
    (hdirty : key ∈ (promoteFrom now entries queue).dirty) :
    key ∈ queue.dirty ∨ queue.DueBy now key := by
  induction entries generalizing queue with
  | nil => exact Or.inl hdirty
  | cons entry rest ih =>
      unfold promoteFrom at hdirty
      split at hdirty
      next hdue =>
        rcases ih ((keep_shuttingDown entry).trans hopen) hdirty with hdirty | ⟨moment, h, hle⟩
        · rcases dirty_of_keep hopen hdirty with hdirty | hcurrent
          · exact Or.inl hdirty
          · exact Or.inr ⟨entry.moment, hcurrent, hdue⟩
        · exact Or.inr ⟨moment, (waiting_of_keep h).1, hle⟩
      next => exact Or.inl hdirty

theorem Scheduled.mem_dirty_promote (hgood : queue.Scheduled)
    (hopen : queue.shuttingDown = false) :
    key ∈ (queue.promote now).dirty ↔ key ∈ queue.dirty ∨ queue.DueBy now key := by
  constructor
  · exact dirty_of_promoteFrom hopen
  · rintro (hdirty | ⟨moment, hwaiting, hdue⟩)
    · have hpledged : queue.Pledged (fun _ => False) key := Or.inl hdirty
      rcases hpledged.afterPromoteFrom hopen now queue.agenda with hend | ⟨_, _, hfalse⟩
      · exact hend
      · exact hfalse.elim
    · exact dirty_of_due hopen hgood.sorted hwaiting (hgood.covered key moment hwaiting) hdue

theorem mem_ready_promote (hgood : queue.Consistent) (hscheduled : queue.Scheduled)
    (hopen : queue.shuttingDown = false) :
    key ∈ (queue.promote now).ready ↔ queue.Eligible now key := by
  rw [(hgood.afterPromote now).ready_iff, hscheduled.mem_dirty_promote hopen, promote_inFlight,
    Eligible, hgood.ready_iff]
  tauto

/-- The keys that a promotion makes ready are entered in the order of the agenda. -/
theorem promoteFrom_ready (hopen : queue.shuttingDown = false) :
    ∃ kept : List (Appointment κ ℚ), kept.Sublist entries ∧
      (promoteFrom now entries queue).ready = queue.ready ++ kept.map (·.key) ∧
      ∀ entry ∈ kept,
        Assoc.get? queue.waiting entry.key = some entry.moment ∧ entry.moment ≤ now := by
  induction entries generalizing queue with
  | nil => exact ⟨[], .slnil, by simp [promoteFrom], by simp⟩
  | cons entry rest ih =>
      unfold promoteFrom
      split
      next hdue =>
        obtain ⟨kept, hsub, hready, hkept⟩ := ih ((keep_shuttingDown entry).trans hopen)
        have hbefore : ∀ other ∈ kept,
            Assoc.get? queue.waiting other.key = some other.moment ∧ other.moment ≤ now := by
          intro other hother
          obtain ⟨hwaiting, hle⟩ := hkept other hother
          exact ⟨(waiting_of_keep hwaiting).1, hle⟩
        have hskipped : (queue.keep entry).ready = queue.ready →
            (promoteFrom now rest (queue.keep entry)).ready =
              queue.ready ++ kept.map (·.key) := fun hsame => hsame ▸ hready
        rcases keep_cases hopen entry with ⟨-, heq⟩ | ⟨hcurrent, heq⟩
        · exact ⟨kept, hsub.cons entry, hskipped (by rw [heq]), hbefore⟩
        · rcases markDirty_ready { queue with waiting := Assoc.erase queue.waiting entry.key }
            entry.key with hsame | hadded
          · exact ⟨kept, hsub.cons entry, hskipped (by rw [heq, hsame]), hbefore⟩
          · refine ⟨entry :: kept, hsub.cons_cons entry, ?_, ?_⟩
            · rw [hready, heq, hadded]
              simp
            · intro other hother
              rcases List.mem_cons.mp hother with rfl | hother
              · exact ⟨hcurrent, hdue⟩
              · exact hbefore other hother
      next => exact ⟨[], List.nil_sublist _, by simp, by simp⟩

/-- What becomes ready in a promotion, as a part of the table of moments. -/
theorem exists_fresh_of_promote (hgood : queue.Consistent) (hscheduled : queue.Scheduled)
    (hopen : queue.shuttingDown = false) (now : ℚ) :
    ∃ fresh : List (Appointment κ ℚ),
      (queue.promote now).ready = queue.ready ++ fresh.map (·.key) ∧
      (fresh.map (·.key)).Nodup ∧
      (fresh.Pairwise fun first second => first.moment ≤ second.moment) ∧
      ∀ entry, entry ∈ fresh ↔
        Assoc.get? queue.waiting entry.key = some entry.moment ∧ entry.moment ≤ now ∧
          entry.key ∉ queue.dirty ∧ entry.key ∉ queue.inFlight := by
  obtain ⟨fresh, hsub, hready, hfresh⟩ :
      ∃ fresh : List (Appointment κ ℚ), fresh.Sublist queue.agenda ∧
        (queue.promote now).ready = queue.ready ++ fresh.map (·.key) ∧
        ∀ entry ∈ fresh,
          Assoc.get? queue.waiting entry.key = some entry.moment ∧ entry.moment ≤ now :=
    promoteFrom_ready hopen
  have hafter := hgood.afterPromote now
  have hnodup : (queue.ready ++ fresh.map (·.key)).Nodup := by
    rw [← hready]
    exact hafter.ready_nodup
  obtain ⟨-, hkeys, hapart⟩ := List.nodup_append.mp hnodup
  refine ⟨fresh, hready, hkeys, hscheduled.sorted.sublist hsub, ?_⟩
  intro entry
  constructor
  · intro hentry
    obtain ⟨hwaiting, hdue⟩ := hfresh entry hentry
    have hmem : entry.key ∈ fresh.map (·.key) := List.mem_map_of_mem hentry
    have hnotReady : entry.key ∉ queue.ready := fun hold => hapart _ hold _ hmem rfl
    have hfree : entry.key ∉ queue.inFlight := by
      have hnow : entry.key ∈ (queue.promote now).ready := by
        rw [hready]
        exact List.mem_append_right _ hmem
      have hfree := hafter.not_inFlight_of_ready hnow
      rwa [promote_inFlight] at hfree
    refine ⟨hwaiting, hdue, ?_, hfree⟩
    intro hdirty
    exact hnotReady ((hgood.ready_iff entry.key).mpr ⟨hdirty, hfree⟩)
  · rintro ⟨hwaiting, hdue, hclean, hfree⟩
    have hnow : entry.key ∈ (queue.promote now).ready :=
      (mem_ready_promote hgood hscheduled hopen).mpr (Or.inr ⟨hfree, _, hwaiting, hdue⟩)
    rw [hready, List.mem_append] at hnow
    rcases hnow with hold | hnew
    · exact absurd ((hgood.ready_iff entry.key).mp hold).1 hclean
    · obtain ⟨other, hother, hkey⟩ := List.mem_map.mp hnew
      have hmoment := (hfresh other hother).1
      rw [hkey, hwaiting, Option.some.injEq] at hmoment
      have hsame : other = entry := by
        cases other
        cases entry
        cases hkey
        cases hmoment
        rfl
      rwa [hsame] at hother

end WorkQueue

namespace History

variable [Clock ω ℚ]

/-- In every state of a queue that is not shutting down, and at whatever moment, a promotion does
what a table of the moments agreed on says.  The moments that have come are taken from the table
and the others stay; the keys that were waiting for them become dirty, and no others; those that
were neither dirty nor in flight are ready behind the keys that were, each once and by their
moments.  So, too, a look hands out only what was ready or waits for a moment that has come. -/
theorem promotion_agrees_with_table (limiter : Backoff κ ℚ) (start : ω)
    {operations : List (Operation κ ℚ ω)} {history : History κ ℚ ω}
    (hplay : play step? (.start limiter start) operations = some history)
    (hopen : history.queue.shuttingDown = false) (now : ℚ) :
    (∀ key, Assoc.get? (history.queue.promote now).waiting key =
        (Assoc.get? history.queue.waiting key).filter fun moment => decide (now < moment)) ∧
      (∀ key, key ∈ (history.queue.promote now).dirty ↔
        key ∈ history.queue.dirty ∨ history.queue.DueBy now key) ∧
      (history.queue.promote now).inFlight = history.queue.inFlight ∧
      (∃ fresh : List (Appointment κ ℚ),
        (history.queue.promote now).ready = history.queue.ready ++ fresh.map (·.key) ∧
        (fresh.map (·.key)).Nodup ∧
        (fresh.Pairwise fun first second => first.moment ≤ second.moment) ∧
        ∀ entry, entry ∈ fresh ↔
          Assoc.get? history.queue.waiting entry.key = some entry.moment ∧ entry.moment ≤ now ∧
            entry.key ∉ history.queue.dirty ∧ entry.key ∉ history.queue.inFlight) ∧
      ∀ deadline key after clock,
        history.queue.look deadline history.clock = (.delivered key, after, clock) →
          key ∈ history.queue.ready ∨
            history.queue.DueBy (Clock.read history.clock).1 key := by
  have hgood := (play_sound hplay).consistent
  have hscheduled := play_scheduled hplay
  refine ⟨hscheduled.get?_waiting_promote hopen now,
    fun key => hscheduled.mem_dirty_promote hopen, WorkQueue.promote_inFlight now,
    WorkQueue.exists_fresh_of_promote hgood hscheduled hopen now, ?_⟩
  intro deadline key after clock hlook
  rcases WorkQueue.look_cases hlook with
    ⟨-, hfinding, -⟩ | ⟨-, ⟨other, hfinding, hdeliver⟩ | ⟨hnone, -⟩⟩
  · cases hfinding
  · cases hfinding
    have hready := WorkQueue.mem_ready_of_deliver? hdeliver
    exact ((WorkQueue.mem_ready_promote hgood hscheduled hopen).mp hready).imp_right And.right
  · exact absurd rfl (hnone key)

/-- The entry of a moment that was superseded comes up with no effect: a key that is in flight,
and was asked for again for later, waits on, while one whose moment has come is ready behind the
key that was ready before. -/
theorem promotion_agrees_with_table_of_superseded :
    let limiter : Backoff Nat ℚ := { base := 1, maximum := 300 }
    let operations : List (Operation Nat ℚ (HandClock ℚ)) :=
      [.request (.addAfter 1 5), .request (.add 1), .look none, .request (.addAfter 1 9),
        .request (.addAfter 2 6), .request (.add 3)]
    ∃ history, play step? (.start limiter ⟨0⟩) operations = some history ∧
      history.queue.shuttingDown = false ∧
      (∃ entry ∈ history.queue.agenda, entry.key = 1 ∧ entry.moment = 5) ∧
      Assoc.get? (history.queue.promote 7).waiting 1 = some 9 ∧
      1 ∉ (history.queue.promote 7).dirty ∧
      (history.queue.promote 7).ready = [3, 2] := by
  intro limiter operations
  have hplay : ∃ history, play step? (.start limiter (⟨0⟩ : HandClock ℚ)) operations =
      some history := ⟨_, rfl⟩
  obtain ⟨history, hhistory⟩ := hplay
  have hopen : history.queue.shuttingDown = false := by
    cases hhistory
    decide +kernel
  have htable := promotion_agrees_with_table limiter (⟨0⟩ : HandClock ℚ) hhistory hopen 7
  have hwaiting : Assoc.get? history.queue.waiting 1 = some 9 := by
    cases hhistory
    decide +kernel
  have hclean : 1 ∉ history.queue.dirty := by
    cases hhistory
    decide +kernel
  obtain ⟨hmoments, hdirty, -⟩ := htable
  refine ⟨history, hhistory, hopen, ?_, ?_, ?_, ?_⟩
  · cases hhistory
    decide +kernel
  · rw [hmoments 1, hwaiting]
    exact Option.filter_some_pos (by norm_num)
  · rw [hdirty 1]
    rintro (hbefore | ⟨moment, hmoment, hdue⟩)
    · exact hclean hbefore
    · rw [hwaiting, Option.some.injEq] at hmoment
      subst hmoment
      norm_num at hdue
  · cases hhistory
    decide +kernel

end History

end OneShot
