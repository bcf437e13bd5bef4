import OneShot.Runner.Pool
import OneShot.Proofs.Runs
import Mathlib.Data.List.Nodup

/-!
# One job for a key

A key that is active is in one place: its job waits, or a worker holds it, or
it has ended and the pool has not been told yet.  So no two workers hold jobs
for the same key, whatever is asked of the pool in whatever order, and a job
that is refused by a pool that was not stopped is refused for one of these.
-/

namespace OneShot.JobPool

variable {ι : Type} {pool rest : JobPool} {held : ι → Option ObjectKey} {ended : List ObjectKey}
  {key : ObjectKey} {worker : ι}

/-- The jobs that wait, those that workers hold, and those that have ended are
for keys apart from one another, and all of these keys are active. -/
structure Apart (pool : JobPool) (held : ι → Option ObjectKey) (ended : List ObjectKey) :
    Prop where
  waiting_once : pool.jobs.Nodup
  holders : ∀ one other key, held one = some key → held other = some key → one = other
  ended_once : ended.Nodup
  waiting_held : ∀ key ∈ pool.jobs, ∀ worker, held worker ≠ some key
  waiting_ended : ∀ key ∈ pool.jobs, key ∉ ended
  ended_held : ∀ key ∈ ended, ∀ worker, held worker ≠ some key
  waiting_active : ∀ key ∈ pool.jobs, key ∈ pool.active
  held_active : ∀ worker key, held worker = some key → key ∈ pool.active
  ended_active : ∀ key ∈ ended, key ∈ pool.active

theorem apart_empty : Apart {} (fun _ : ι => none) [] := by
  constructor <;> simp

/-! ## Asking for jobs -/

theorem Apart.submit (hapart : Apart pool held ended) (key : ObjectKey) :
    Apart (pool.submit key) held ended := by
  unfold JobPool.submit
  split
  next haccepts =>
    have hidle : key ∉ pool.active := by
      intro hactive
      simp [accepts, hactive] at haccepts
    have hnew : ∀ worker, held worker ≠ some key :=
      fun worker hheld => hidle (hapart.held_active worker key hheld)
    constructor
    · refine hapart.waiting_once.append (List.nodup_singleton key) ?_
      exact List.disjoint_singleton.mpr fun hwaits => hidle (hapart.waiting_active key hwaits)
    · exact hapart.holders
    · exact hapart.ended_once
    · exact List.forall_mem_append.mpr
        ⟨hapart.waiting_held, List.forall_mem_singleton.mpr hnew⟩
    · exact List.forall_mem_append.mpr ⟨hapart.waiting_ended,
        List.forall_mem_singleton.mpr fun hended => hidle (hapart.ended_active key hended)⟩
    · exact hapart.ended_held
    · refine List.forall_mem_append.mpr ⟨fun waits hwaits => ?_,
        List.forall_mem_singleton.mpr List.mem_cons_self⟩
      exact List.mem_cons_of_mem key (hapart.waiting_active waits hwaits)
    · intro worker other hheld
      exact List.mem_cons_of_mem key (hapart.held_active worker other hheld)
    · intro other hended
      exact List.mem_cons_of_mem key (hapart.ended_active other hended)
  next => exact hapart

/-- To hear of a change or of tasks that wait is to ask for jobs, or nothing. -/
theorem handle_keeps {P : JobPool → Prop} (hsubmit : ∀ pool key, P pool → P (submit pool key))
    (event : ChangeEvent) (hpool : P pool) : P (pool.handle event) := by
  unfold JobPool.handle
  split
  next => exact hsubmit pool event.key hpool
  next => exact hpool

theorem submitPending_keeps {P : JobPool → Prop}
    (hsubmit : ∀ pool key, P pool → P (submit pool key)) (tasks : List Task) (hpool : P pool) :
    P (pool.submitPending tasks) := by
  unfold JobPool.submitPending
  induction tasks generalizing pool with
  | nil => exact hpool
  | cons task later ih =>
      rw [List.foldl_cons]
      split
      next => exact ih (hsubmit pool task.key hpool)
      next => exact ih hpool

theorem Apart.handle (hapart : Apart pool held ended) (event : ChangeEvent) :
    Apart (pool.handle event) held ended :=
  handle_keeps (P := fun pool => Apart pool held ended) (fun _ key hpool => hpool.submit key) event
    hapart

theorem Apart.submitPending (hapart : Apart pool held ended) (tasks : List Task) :
    Apart (pool.submitPending tasks) held ended :=
  submitPending_keeps (P := fun pool => Apart pool held ended)
    (fun _ key hpool => hpool.submit key) tasks hapart

/-- Asking for jobs takes none away. -/
structure Grows (pool later : JobPool) : Prop where
  jobs : pool.jobs ⊆ later.jobs
  stopped : later.stopped = pool.stopped

theorem Grows.refl (pool : JobPool) : pool.Grows pool :=
  ⟨List.Subset.refl pool.jobs, rfl⟩

theorem Grows.submit (hgrows : pool.Grows rest) (key : ObjectKey) :
    pool.Grows (rest.submit key) := by
  unfold JobPool.submit
  split
  next => exact ⟨List.subset_append_of_subset_left _ hgrows.jobs, hgrows.stopped⟩
  next => exact hgrows

theorem grows_handle (pool : JobPool) (event : ChangeEvent) : pool.Grows (pool.handle event) :=
  handle_keeps (P := pool.Grows) (fun _ key hgrows => hgrows.submit key) event (Grows.refl pool)

theorem grows_submitPending (pool : JobPool) (tasks : List Task) :
    pool.Grows (pool.submitPending tasks) :=
  submitPending_keeps (P := pool.Grows) (fun _ key hgrows => hgrows.submit key) tasks
    (Grows.refl pool)

/-! ## From the queue to a worker and back to the pool -/

variable [DecidableEq ι]

theorem Apart.begin (hapart : Apart pool held ended) (hbegin : pool.begin? = some (key, rest))
    (hfree : held worker = none) :
    Apart rest (Function.update held worker (some key)) ended := by
  obtain ⟨active, jobs, stopped⟩ := pool
  cases jobs with
  | nil => cases hbegin
  | cons first later =>
      simp only [begin?, Option.some.injEq, Prod.mk.injEq] at hbegin
      obtain ⟨rfl, rfl⟩ := hbegin
      obtain ⟨hnot, hlater⟩ := List.nodup_cons.mp hapart.waiting_once
      have hwaits : ∀ waits ∈ later, waits ∈ first :: later :=
        fun waits => List.mem_cons_of_mem first
      have hunheld := hapart.waiting_held first List.mem_cons_self
      constructor
      · exact hlater
      · intro one other found hone hother
        rcases update_cases hone with ⟨rfl, hfirst⟩ | ⟨-, hone'⟩
        · rcases update_cases hother with ⟨rfl, -⟩ | ⟨-, hother'⟩
          · rfl
          · exact absurd (hother'.trans hfirst.symm) (hunheld other)
        · rcases update_cases hother with ⟨rfl, hfirst⟩ | ⟨-, hother'⟩
          · exact absurd (hone'.trans hfirst.symm) (hunheld one)
          · exact hapart.holders one other found hone' hother'
      · exact hapart.ended_once
      · intro waits hmem other hother
        rcases update_cases hother with ⟨-, hfirst⟩ | ⟨-, hother⟩
        · cases hfirst
          exact hnot hmem
        · exact hapart.waiting_held waits (hwaits waits hmem) other hother
      · exact fun waits hmem => hapart.waiting_ended waits (hwaits waits hmem)
      · intro done hdone other hother
        rcases update_cases hother with ⟨-, hfirst⟩ | ⟨-, hother⟩
        · cases hfirst
          exact hapart.waiting_ended first List.mem_cons_self hdone
        · exact hapart.ended_held done hdone other hother
      · exact fun waits hmem => hapart.waiting_active waits (hwaits waits hmem)
      · intro other found hother
        rcases update_cases hother with ⟨-, hfirst⟩ | ⟨-, hother⟩
        · cases hfirst
          exact hapart.waiting_active first List.mem_cons_self
        · exact hapart.held_active other found hother
      · exact hapart.ended_active

theorem Apart.finish (hapart : Apart pool held ended) (hheld : held worker = some key) :
    Apart pool (Function.update held worker none) (ended ++ [key]) := by
  have hbefore : ∀ {other found}, Function.update held worker none other = some found →
      other ≠ worker ∧ held other = some found := by
    intro other found hother
    rcases update_cases hother with ⟨-, hnone⟩ | hbefore
    · cases hnone
    · exact hbefore
  constructor
  · exact hapart.waiting_once
  · intro one other found hone hother
    exact hapart.holders one other found (hbefore hone).2 (hbefore hother).2
  · refine hapart.ended_once.append (List.nodup_singleton key) ?_
    exact List.disjoint_singleton.mpr fun hended => hapart.ended_held key hended worker hheld
  · intro waits hwaits other hother
    exact hapart.waiting_held waits hwaits other (hbefore hother).2
  · intro waits hwaits hdone
    rcases List.mem_append.mp hdone with hold | hnew
    · exact hapart.waiting_ended waits hwaits hold
    · rw [← List.mem_singleton.mp hnew] at hheld
      exact hapart.waiting_held waits hwaits worker hheld
  · refine List.forall_mem_append.mpr ⟨?_, List.forall_mem_singleton.mpr ?_⟩
    · exact fun done hdone other hother => hapart.ended_held done hdone other (hbefore hother).2
    · exact fun other hother =>
        (hbefore hother).1 (hapart.holders other worker key (hbefore hother).2 hheld)
  · exact hapart.waiting_active
  · exact fun other found hother => hapart.held_active other found (hbefore hother).2
  · exact List.forall_mem_append.mpr ⟨hapart.ended_active,
      List.forall_mem_singleton.mpr (hapart.held_active worker key hheld)⟩

omit [DecidableEq ι] in
theorem Apart.release (hapart : Apart pool held ended) (hended : key ∈ ended) :
    Apart (pool.release key) held (ended.erase key) := by
  have hrest : ∀ {done}, done ∈ ended.erase key → done ≠ key ∧ done ∈ ended :=
    fun hdone => (hapart.ended_once.mem_erase_iff).mp hdone
  have hstays : ∀ {other}, other ∈ pool.active → other ≠ key →
      other ∈ (pool.release key).active :=
    fun hactive hne => List.mem_filter.mpr ⟨hactive, decide_eq_true hne⟩
  constructor
  · exact hapart.waiting_once
  · exact hapart.holders
  · exact hapart.ended_once.erase key
  · exact hapart.waiting_held
  · exact fun waits hwaits hdone => hapart.waiting_ended waits hwaits (hrest hdone).2
  · exact fun done hdone => hapart.ended_held done (hrest hdone).2
  · intro waits hwaits
    refine hstays (hapart.waiting_active waits hwaits) ?_
    rintro rfl
    exact hapart.waiting_ended waits hwaits hended
  · intro worker found hheld
    refine hstays (hapart.held_active worker found hheld) ?_
    rintro rfl
    exact hapart.ended_held found hended worker hheld
  · intro done hdone
    exact hstays (hapart.ended_active done (hrest hdone).2) (hrest hdone).1

omit [DecidableEq ι] in
theorem Apart.stop (hapart : Apart pool held ended) : Apart pool.stop held ended := by
  have hstays : ∀ {other}, other ∈ pool.active → other ∉ pool.jobs → other ∈ pool.stop.active :=
    fun hactive hnot => List.mem_filter.mpr ⟨hactive, by simpa using hnot⟩
  constructor
  · exact List.nodup_nil
  · exact hapart.holders
  · exact hapart.ended_once
  · exact fun waits hwaits => absurd hwaits List.not_mem_nil
  · exact fun waits hwaits => absurd hwaits List.not_mem_nil
  · exact hapart.ended_held
  · exact fun waits hwaits => absurd hwaits List.not_mem_nil
  · intro worker found hheld
    exact hstays (hapart.held_active worker found hheld)
      fun hwaits => hapart.waiting_held found hwaits worker hheld
  · intro done hdone
    exact hstays (hapart.ended_active done hdone)
      fun hwaits => hapart.waiting_ended done hwaits hdone

/-! ## No key is active without a place -/

omit [DecidableEq ι]

/-- Every active key is in one of the places. -/
def Placed (pool : JobPool) (held : ι → Option ObjectKey) (ended : List ObjectKey) : Prop :=
  ∀ key ∈ pool.active, key ∈ pool.jobs ∨ (∃ worker, held worker = some key) ∨ key ∈ ended

theorem submit_of_running (hrunning : pool.stopped = false) (key : ObjectKey) :
    (key ∈ pool.active ∧ pool.submit key = pool) ∨
      pool.submit key =
        { pool with active := key :: pool.active, jobs := pool.jobs ++ [key] } := by
  by_cases hactive : key ∈ pool.active
  · left
    simp [JobPool.submit, accepts, hactive]
  · right
    simp [JobPool.submit, accepts, hactive, hrunning]

/-- A job that is asked for waits, or its key is in another place already. -/
theorem Placed.asked (hplaced : Placed pool held ended) (hrunning : pool.stopped = false)
    (key : ObjectKey) :
    key ∈ (pool.submit key).jobs ∨ (∃ worker, held worker = some key) ∨ key ∈ ended := by
  rcases submit_of_running hrunning key with ⟨hactive, hsame⟩ | haccepted
  · rw [hsame]
    exact hplaced key hactive
  · rw [haccepted]
    exact Or.inl (List.mem_append_right _ List.mem_cons_self)

theorem Placed.submit (hplaced : Placed pool held ended) (key : ObjectKey) :
    Placed (pool.submit key) held ended := by
  unfold JobPool.submit
  split
  next =>
    intro other hactive
    rcases List.mem_cons.mp hactive with rfl | hold
    · exact Or.inl (List.mem_append_right _ List.mem_cons_self)
    · exact (hplaced other hold).imp_left (List.mem_append_left _)
  next => exact hplaced

theorem Placed.handle (hplaced : Placed pool held ended) (event : ChangeEvent) :
    Placed (pool.handle event) held ended :=
  handle_keeps (P := fun pool => Placed pool held ended) (fun _ key hpool => hpool.submit key)
    event hplaced

theorem Placed.submitPending (hplaced : Placed pool held ended) (tasks : List Task) :
    Placed (pool.submitPending tasks) held ended :=
  submitPending_keeps (P := fun pool => Placed pool held ended)
    (fun _ key hpool => hpool.submit key) tasks hplaced

theorem Placed.release (hplaced : Placed pool held ended) :
    Placed (pool.release key) held (ended.erase key) := by
  intro other hother
  obtain ⟨hactive, hne⟩ := List.mem_filter.mp hother
  refine (hplaced other hactive).imp_right (Or.imp_right fun hended => ?_)
  exact (List.mem_erase_of_ne (of_decide_eq_true hne)).mpr hended

theorem Placed.stop (hplaced : Placed pool held ended) : Placed pool.stop held ended := by
  intro other hother
  obtain ⟨hactive, hunqueued⟩ := List.mem_filter.mp hother
  rcases hplaced other hactive with hjob | helsewhere
  · simp [hjob] at hunqueued
  · exact Or.inr helsewhere

variable [DecidableEq ι]

theorem Placed.begin (hplaced : Placed pool held ended) (hbegin : pool.begin? = some (key, rest))
    (hfree : held worker = none) : Placed rest (Function.update held worker (some key)) ended := by
  obtain ⟨active, jobs, stopped⟩ := pool
  cases jobs with
  | nil => cases hbegin
  | cons first later =>
      simp only [begin?, Option.some.injEq, Prod.mk.injEq] at hbegin
      obtain ⟨rfl, rfl⟩ := hbegin
      intro other hactive
      rcases hplaced other hactive with hjob | ⟨holder, hheld⟩ | hended
      · rcases List.mem_cons.mp hjob with rfl | hlater
        · exact Or.inr (Or.inl ⟨worker, Function.update_self worker _ held⟩)
        · exact Or.inl hlater
      · have hne : holder ≠ worker := by
          rintro rfl
          rw [hfree] at hheld
          cases hheld
        exact Or.inr (Or.inl ⟨holder, by rw [Function.update_of_ne hne, hheld]⟩)
      · exact Or.inr (Or.inr hended)

theorem Placed.finish (hplaced : Placed pool held ended) (hheld : held worker = some key) :
    Placed pool (Function.update held worker none) (ended ++ [key]) := by
  intro other hactive
  rcases hplaced other hactive with hjob | ⟨holder, hholder⟩ | hended
  · exact Or.inl hjob
  · by_cases hsame : holder = worker
    · rw [hsame, hheld] at hholder
      cases hholder
      exact Or.inr (Or.inr (List.mem_append_right _ List.mem_cons_self))
    · exact Or.inr (Or.inl ⟨holder, by rw [Function.update_of_ne hsame, hholder]⟩)
  · exact Or.inr (Or.inr (List.mem_append_left _ hended))

end OneShot.JobPool
