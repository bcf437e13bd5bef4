import OneShot.Proofs.Calendar.Instants
import OneShot.Proofs.Reconcile.Race
import OneShot.Proofs.Store.Incarnations

/-!
# Races with users

Here users may also remove commands while passes are on their way, and create
them again; the phases and the creation of tasks are left to the passes.  A
pass does not notice a removal before its next read, so what it does until then
is judged by the copy that it has read.
-/

namespace OneShot

open Calendar

/-! ## Schedules that have come -/

namespace Schedule

/-- A schedule that is well formed and has come at a moment. -/
def DueBy (schedule : String) (now : DateTime) : Prop :=
  ∃ moment, parse schedule = .ok moment ∧ moment.instant ≤ now.instant

instance (schedule : String) (now : DateTime) : Decidable (DueBy schedule now) :=
  match hparse : parse schedule with
  | .ok moment =>
      decidable_of_iff (moment.instant ≤ now.instant)
        ⟨fun hle => ⟨moment, hparse, hle⟩, fun ⟨_, hfound, hle⟩ =>
          Except.ok.inj (hparse.symm.trans hfound) ▸ hle⟩
  | .error _ => isFalse fun ⟨_, hfound, _⟩ => nomatch hparse.symm.trans hfound

theorem DueBy.mono {schedule : String} {now later : DateTime} (hdue : DueBy schedule now)
    (hle : now.instant ≤ later.instant) : DueBy schedule later := by
  obtain ⟨moment, hparse, hcome⟩ := hdue
  exact ⟨moment, hparse, Int.le_trans hcome hle⟩

end Schedule

/-! ## What a stage leads to -/

namespace Pass

variable {now : DateTime} {resource : At} {following : Stage} {reached : AtPhase}

/-- The command has been started, or its schedule has come. -/
def Ready (resource : At) (now : DateTime) : Prop :=
  resource.phase = AtPhase.running.text ∨ Schedule.DueBy resource.spec.schedule now

theorem dueBy_of_waitOrLaunch (hgo : waitOrLaunch resource now = .goOn following) :
    Schedule.DueBy resource.spec.schedule now := by
  unfold waitOrLaunch at hgo
  split at hgo
  next => cases hgo
  next => cases hgo
  next delay hdelay =>
    split at hgo
    next => cases hgo
    next hdue =>
      obtain ⟨target, hparse, hdelay⟩ := Schedule.delay_eq_ok hdelay
      exact ⟨target, hparse, by omega⟩

theorem ready_of_afterRead (hgo : afterRead now (.ok resource) = .goOn following) :
    Ready resource now := by
  simp only [afterRead] at hgo
  split at hgo
  next => exact Or.inr (dueBy_of_waitOrLaunch hgo)
  next => exact Or.inr (dueBy_of_waitOrLaunch hgo)
  next hrunning => exact Or.inl (AtPhase.text_of_ofText? hrunning)
  next => cases hgo
  next => cases hgo

theorem Stage.call_ne_deleteAt (stage : Stage) (key : ObjectKey) : stage.call ≠ .deleteAt key := by
  cases stage <;> simp [call]

theorem Stage.call_ne_updateAtSpec (stage : Stage) (key : ObjectKey) (spec : AtSpec) :
    stage.call ≠ .updateAtSpec key spec := by
  cases stage <;> simp [call]

theorem Stage.of_call_createTask {stage : Stage} {task : Task}
    (hcall : stage.call = .createTask task) :
    ∃ resource, stage = .launch resource ∧ task = resource.newTask := by
  cases stage with
  | launch resource =>
      cases hcall
      exact ⟨resource, rfl, rfl⟩
  | read key | findTask resource | store resource reached => cases hcall

theorem Stage.of_call_updateAtStatus {stage : Stage} {written : At}
    (hcall : stage.call = .updateAtStatus written) :
    ∃ resource reached, stage = .store resource reached ∧ written = inPhase resource reached := by
  cases stage with
  | store resource reached =>
      cases hcall
      exact ⟨resource, reached, rfl, rfl⟩
  | read key | findTask resource | launch resource => cases hcall

/-- One stage of a pass leads to another. -/
inductive Leads (store : Store) (now : DateTime) (mishap : Mishap) : Stage → Stage → Prop where
  | read {key : ObjectKey} {resource : At} (hclear : mishap = .nothing)
      (hread : store.getAt key = .ok resource)
      (hgo : afterRead now (.ok resource) = .goOn (.findTask resource)) :
      Leads store now mishap (.read key) (.findTask resource)
  | missed {resource : At} : Leads store now mishap (.findTask resource) (.launch resource)
  | found {resource : At} {task : Task} (hclear : mishap = .nothing)
      (hfound : store.getTask resource.taskKey = .ok task) :
      Leads store now mishap (.findTask resource) (.store resource (reachedBy task))
  | launched {resource : At} : Leads store now mishap (.launch resource) (.store resource .running)

theorem Leads.reaches {store : Store} {mishap : Mishap} {stage : Stage}
    (hleads : Leads store now mishap stage (.store resource reached)) :
    reached = .running ∨ reached = .done := by
  generalize hfollowing : Stage.store resource reached = following at hleads
  cases hleads with
  | read hclear hread hgo => cases hfollowing
  | missed => cases hfollowing
  | @found _ task hclear hfound =>
      cases hfollowing
      exact reachedBy_cases task
  | launched =>
      cases hfollowing
      exact Or.inl rfl

theorem Leads.ended {store : Store} {mishap : Mishap} {stage : Stage}
    (hleads : Leads store now mishap stage (.store resource .done)) :
    stage = .findTask resource ∧ mishap = .nothing ∧
      ∃ task, store.getTask resource.taskKey = .ok task ∧ task.status.phase.isTerminal = true := by
  generalize hfollowing : Stage.store resource .done = following at hleads
  cases hleads with
  | read hclear hread hgo => cases hfollowing
  | missed => cases hfollowing
  | @found _ task hclear hfound =>
      simp only [Stage.store.injEq] at hfollowing
      obtain ⟨rfl, hdone⟩ := hfollowing
      exact ⟨rfl, hclear, task, hfound, isTerminal_of_reachedBy hdone.symm⟩
  | launched => cases hfollowing

theorem leads_of_next {store : Store} {mishap : Mishap} {stage : Stage}
    (hgo : stage.next now (store.attempt now stage.call mishap).answer = .goOn following) :
    Leads store now mishap stage following := by
  cases stage with
  | read key =>
      obtain ⟨resource, hanswer, rfl⟩ := afterRead_goOn hgo
      obtain ⟨hclear, hread⟩ := store.attempt_eq_ok now (.getAt key) mishap hanswer
      simp only [Stage.next, hanswer] at hgo
      exact .read hclear hread hgo
  | findTask resource =>
      cases hanswer : (store.attempt now (Stage.findTask resource).call mishap).answer with
      | error fault =>
          simp only [Stage.next, hanswer, afterFindTask] at hgo
          split at hgo
          next =>
            cases hgo
            exact .missed
          next => cases hgo
      | ok task =>
          obtain ⟨hclear, hfound⟩ :=
            store.attempt_eq_ok now (Stage.findTask resource).call mishap hanswer
          have hreach : reach resource (reachedBy task) = .goOn following := by
            simp only [Stage.next, hanswer] at hgo
            exact (afterFindTask_ok resource task).symm.trans hgo
          have hset : reachedBy task ≠ .unset := by
            rcases reachedBy_cases task with heq | heq <;> rw [heq] <;> decide
          rw [(reach_goOn hset hreach).1]
          exact .found hclear hfound
  | launch resource =>
      have hreach : reach resource .running = .goOn following := by
        simp only [Stage.next, afterLaunch] at hgo
        split at hgo
        next =>
          split at hgo
          next => exact hgo
          next => cases hgo
        next => exact hgo
      rw [(reach_goOn (by decide) hreach).1]
      exact .launched
  | store resource reached => exact absurd hgo afterStore_goOn

end Pass

/-! ## Races with users -/

/-- The calls that users make; they do not write phases or create tasks. -/
def Call.byUsers : Call → Bool
  | updateAtStatus _ | createTask _ => false
  | _ => true

theorem Store.Identified.attempt {store : Store} (hstore : store.Identified) (now : DateTime)
    (call : Call) (mishap : Mishap) : (store.attempt now call mishap).store.Identified := by
  rcases store.attempt_store_cases now call mishap with hsame | hserved
  · rwa [hsame]
  · rw [hserved]
    exact hstore.serve now call

namespace Trip

variable {store : Store} {now : DateTime} {mishap : Mishap} {trip next : Trip}

theorem leads_of_after
    (hnext : trip.after now (store.attempt now trip.stage.call mishap).answer = some next) :
    Pass.Leads store now mishap trip.stage next.stage := by
  unfold Trip.after at hnext
  split at hnext
  next following hgo =>
    cases hnext
    exact Pass.leads_of_next hgo
  next => cases hnext
  next => cases hnext

end Trip

namespace Race

variable {ι : Type} [DecidableEq ι]

/-- A move in a race with users. -/
def openStep? (race : Race ι) : RaceMove ι → Option (Race ι)
  | .call call =>
      if call.byUsers then
        some { race with store := (race.store.serve race.now call).store }
      else none
  | .clock now => race.step? (.clock now)
  | .start pass key => race.step? (.start pass key)
  | .proceed pass mishap => race.step? (.proceed pass mishap)

/-- A user makes a call of which `P` holds. -/
def Hears (P : Store → TimedCall → Prop) (race : Race ι) (move : RaceMove ι) : Prop :=
  ∃ call, move = .call call ∧ P race.store ⟨race.now, call⟩

/-- A pass is not begun anew by some moves. -/
def Unbroken (pass : ι) (moves : List (RaceMove ι)) : Prop :=
  ∀ key, RaceMove.start pass key ∉ moves

/-- A pass reads a command, and it is still the same pass afterwards. -/
def Reads (pass : ι) (resource : At) (race : Race ι) (move : RaceMove ι)
    (after : List (RaceMove ι)) : Prop :=
  (∃ key seen, race.trips pass = some ⟨.read key, seen⟩ ∧ race.store.getAt key = .ok resource) ∧
    move = .proceed pass .nothing ∧ Unbroken pass after

variable {race next : Race ι} {move last : RaceMove ι} {moves : List (RaceMove ι)} {pass : ι}

omit [DecidableEq ι] in
theorem unbroken_nil (pass : ι) : Unbroken pass [] := fun _ => List.not_mem_nil

omit [DecidableEq ι] in
theorem Unbroken.snoc (hunbroken : Unbroken pass moves) (hlast : ∀ key, last ≠ .start pass key) :
    Unbroken pass (moves ++ [last]) := by
  intro key hmem
  rcases List.mem_append.mp hmem with hearlier | hend
  · exact hunbroken key hearlier
  · exact hlast key (List.mem_singleton.mp hend).symm

theorem identified_openStep (hstore : race.store.Identified)
    (hstep : race.openStep? move = some next) : next.store.Identified := by
  cases move with
  | call call =>
      simp only [openStep?] at hstep
      split at hstep
      next =>
        cases hstep
        exact hstore.serve race.now call
      next => cases hstep
  | clock now =>
      cases hstep
      exact hstore
  | start pass key =>
      cases hstep
      exact hstore
  | proceed pass mishap =>
      obtain ⟨trip, htrip, rfl⟩ := Option.map_eq_some_iff.mp hstep
      exact hstore.attempt race.now trip.stage.call mishap

/-- A pass that makes a call goes on to a stage that the call leads to, or
ends; the others stay where they are. -/
theorem trips_of_proceed {mishap : Mishap}
    (hstep : race.step? (.proceed pass mishap) = some next) :
    ∃ trip, race.trips pass = some trip ∧ next.now = race.now ∧
      next.store = (race.store.attempt race.now trip.stage.call mishap).store ∧
      ∀ other found, next.trips other = some found →
        (other ≠ pass ∧ race.trips other = some found) ∨
          (other = pass ∧ Pass.Leads race.store race.now mishap trip.stage found.stage) := by
  obtain ⟨trip, htrip, rfl⟩ := Option.map_eq_some_iff.mp hstep
  refine ⟨trip, htrip, rfl, rfl, fun other found hfound => ?_⟩
  by_cases heq : other = pass
  · subst heq
    simp only [Function.update_self] at hfound
    exact Or.inr ⟨rfl, Trip.leads_of_after hfound⟩
  · simp only [Function.update_of_ne heq] at hfound
    exact Or.inl ⟨heq, hfound⟩

/-- A pass that begins works on no command yet. -/
theorem trips_of_start {key : ObjectKey}
    (hstep : race.step? (.start pass key) = some next) {other : ι} {found : Trip}
    (hfound : next.trips other = some found) :
    (other ≠ pass ∧ race.trips other = some found) ∨ found.stage.resource? = none := by
  cases hstep
  by_cases heq : other = pass
  · subst heq
    simp only [Function.update_self, Option.some.injEq] at hfound
    exact Or.inr (hfound ▸ rfl)
  · simp only [Function.update_of_ne heq] at hfound
    exact Or.inl ⟨heq, hfound⟩

end Race

end OneShot
