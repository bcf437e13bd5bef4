import OneShot.Proofs.Reconcile.OpenRace
import OneShot.Proofs.Reconcile.Solo

/-!
# Passes that are made again

A fault may strike a pass at any of its calls, before the call takes effect or
after it, and the pass is then made again.  What the failed passes have left
behind is a part of what a pass without faults would do.  So a pass without
faults ends after them as it would have ended in their place, if its task can
be read and its versions can be compared.
-/

namespace OneShot

open Calendar

/-- Rows of tasks that differ at most in what the store adds to a new row. -/
def TaskRow.Alike (row other : TaskRow) : Prop :=
  ∃ uid version created, other = { row with uid, version, created }

namespace Store

variable {store after : Store} {now : DateTime} {key : ObjectKey} {row : AtRow}
  {resource copy : At} {reached : AtPhase}

/-- If the command of a key is due and has not been started, its task can be
read, and when the task has ended the phase can be written twice. -/
def Repeatable (store : Store) (now : DateTime) (key : ObjectKey) : Prop :=
  ∀ row resource taskRow, store.Goes now key row resource →
    resource.phase ≠ AtPhase.running.text → Comparable row.version →
      store.taskRow? key.forTask = some taskRow →
        ∃ task, taskRow.toTask = .ok task ∧
          (task.status.phase.isTerminal = true → Comparable (row.version + 1))

def Ended (store : Store) (key : ObjectKey) : Prop :=
  ∃ row task, store.taskRow? key.forTask = some row ∧ row.toTask = .ok task ∧
    task.status.phase.isTerminal = true

theorem taskKey_of_toAt (hrow : store.atRow? key = some row) (hread : row.toAt = .ok resource) :
    resource.taskKey = key.forTask := by
  rw [← key_of_toAt hrow hread]
  rfl

theorem Goes.taskKey (hgoes : store.Goes now key row resource) : resource.taskKey = key.forTask :=
  taskKey_of_toAt hgoes.stored hgoes.shown

theorem Goes.unique (hgoes : store.Goes now key row resource) {row' : AtRow} {resource' : At}
    (hgoes' : store.Goes now key row' resource') : row = row' ∧ resource = resource' := by
  have hrow := hgoes.stored
  rw [hgoes'.stored, Option.some.injEq] at hrow
  subst hrow
  exact ⟨rfl, Except.ok.inj (hgoes.shown.symm.trans hgoes'.shown)⟩

theorem Goes.phase (hgoes : store.Goes now key row resource) : row.phase = resource.phase :=
  (AtRow.shows_of_toAt hgoes.shown).phase.symm

theorem Goes.not_done (hgoes : store.Goes now key row resource) :
    row.phase ≠ AtPhase.done.text := by
  rw [hgoes.phase]
  intro hdone
  have hgo := hgoes.goesOn
  rw [Pass.afterRead_of_done hdone] at hgo
  cases hgo

/-! ## What a call of a pass does to the store -/

/-- What becomes of the store when passes over the command of a key are made
and fail. -/
inductive Retried (store : Store) (now : DateTime) (key : ObjectKey) : Store → Prop where
  | same : Retried store now key store
  | launched {row : AtRow} {resource : At} (hgoes : store.Goes now key row resource)
      (hfree : store.taskRow? resource.taskKey = none) :
      Retried store now key (store.launched now resource)
  | started {row : AtRow} {resource : At} (hgoes : store.Goes now key row resource)
      (hbounds : Comparable row.version) (hphase : resource.phase ≠ AtPhase.running.text) :
      Retried store now key (store.moveTo key .running)
  | ended {row : AtRow} {resource : At} (hgoes : store.Goes now key row resource)
      (hbounds : Comparable row.version) (hended : store.Ended key) :
      Retried store now key (store.moveTo key .done)

theorem Retried.keeps_task (hretried : Retried store now key after) {taskRow : TaskRow}
    (htask : store.taskRow? key.forTask = some taskRow) :
    after.taskRow? key.forTask = some taskRow := by
  cases hretried with
  | same => exact htask
  | launched hgoes hfree =>
      rw [hgoes.taskKey, htask] at hfree
      cases hfree
  | started => exact htask
  | ended => exact htask

theorem Retried.keeps_ended (hretried : Retried store now key after) (hended : store.Ended key) :
    after.Ended key := by
  obtain ⟨taskRow, task, htask, hread, hterminal⟩ := hended
  exact ⟨taskRow, task, hretried.keeps_task htask, hread, hterminal⟩

theorem Retried.repeatable (hretried : Retried store now key after)
    (hrepeatable : store.Repeatable now key) : after.Repeatable now key := by
  cases hretried with
  | same => exact hrepeatable
  | launched hgoes hfree =>
      intro _ _ taskRow _ _ _ htask
      rw [← hgoes.taskKey, taskRow?_launched hfree, Option.some.injEq] at htask
      subst htask
      exact ⟨_, Task.toTask_row _ _ _, fun hterminal => by cases hterminal⟩
  | started hgoes =>
      intro _ _ _ hlater hphase
      obtain ⟨-, rfl⟩ := hlater.unique hgoes.running
      exact absurd rfl hphase
  | ended hgoes =>
      intro _ _ _ hlater
      have hmoved := hlater.stored.symm.trans (atRow?_moveTo hgoes.stored .done)
      cases hmoved
      exact absurd rfl hlater.not_done

/-! ## A pass after it -/

/-- Two passes over the command of a key have the same result and leave the
same phase and the same task. -/
structure EndAlike (key : ObjectKey) (one other : Except Fault Pass.Result × Store) : Prop where
  result : one.1 = other.1
  phase : (one.2.atRow? key).map AtRow.phase = (other.2.atRow? key).map AtRow.phase
  task : one.2.taskRow? key.forTask = other.2.taskRow? key.forTask

theorem EndAlike.of_eq {one other : Except Fault Pass.Result × Store} (heq : one = other) :
    EndAlike key one other := by
  subst heq
  exact ⟨rfl, rfl, rfl⟩

theorem EndAlike.trans {one between other : Except Fault Pass.Result × Store}
    (h : EndAlike key one between) (h' : EndAlike key between other) : EndAlike key one other :=
  ⟨h.result.trans h'.result, h.phase.trans h'.phase, h.task.trans h'.task⟩

theorem settle_of_moved (hrow : store.atRow? key = some row) (hphase : reached.text ≠ row.phase)
    (hbounds : Comparable row.version) :
    store.settle row reached = (.ok {}, store.moveTo key reached) := by
  rw [settle, if_neg hphase, if_pos hbounds, key_of_atRow? hrow]

/-- A pass over a command that has been started goes on as the one that has
started it. -/
theorem Goes.pass_started (hgoes : store.Goes now key row resource)
    (hbounds : Comparable row.version) (hphase : resource.phase ≠ AtPhase.running.text)
    (hrepeatable : store.Repeatable now key) :
    EndAlike key ((store.moveTo key .running).pass now key) (store.pass now key) := by
  have hrunning : AtPhase.running.text ≠ row.phase := by
    rw [hgoes.phase]
    exact hphase.symm
  have hagain : ∀ store' : Store, settle store'
      { row with phase := AtPhase.running.text, version := row.version + 1 } .running =
        (.ok {}, store') := fun _ => if_pos rfl
  cases htask : store.taskRow? resource.taskKey with
  | none =>
      -- The task is created before the phase is written, or after it.
      refine .of_eq ?_
      rw [(hgoes.running.pass_of_missing htask).1, hagain, (hgoes.pass_of_missing htask).1,
        settle_of_moved hgoes.launched.stored hrunning hbounds]
      rfl
  | some taskRow =>
      obtain ⟨task, hread, hversion⟩ :=
        hrepeatable row resource taskRow hgoes hphase hbounds (hgoes.taskKey ▸ htask)
      rw [hgoes.pass_of_found htask hread, hgoes.running.pass_of_found htask hread]
      rcases Pass.reachedBy_cases task with hreached | hreached
      · refine .of_eq ?_
        rw [hreached, hagain, settle_of_moved hgoes.stored hrunning hbounds]
      · have hlater : AtPhase.done.text ≠ AtPhase.running.text := by decide
        have hnext := hversion (Pass.isTerminal_of_reachedBy hreached)
        rw [hreached, settle_of_moved hgoes.stored hgoes.not_done.symm hbounds,
          settle_of_moved hgoes.running.stored hlater hnext]
        refine ⟨rfl, ?_, rfl⟩
        rw [atRow?_moveTo hgoes.running.stored, atRow?_moveTo hgoes.stored]
        rfl

theorem Goes.pass_ended (hgoes : store.Goes now key row resource)
    (hbounds : Comparable row.version) (hended : store.Ended key) :
    (store.moveTo key .done).pass now key = store.pass now key := by
  obtain ⟨taskRow, task, htask, hread, hterminal⟩ := hended
  have hreached : Pass.reachedBy task = .done := if_pos hterminal
  rw [hgoes.pass_done, hgoes.pass_of_found (hgoes.taskKey.symm ▸ htask) hread, hreached,
    settle_of_moved hgoes.stored hgoes.not_done.symm hbounds]

/-- What failed passes do is not told in the end from what a pass does. -/
theorem Retried.pass_alike (hretried : Retried store now key after)
    (hrepeatable : store.Repeatable now key) :
    EndAlike key (after.pass now key) (store.pass now key) := by
  cases hretried with
  | same => exact .of_eq rfl
  | launched hgoes hfree => exact .of_eq (hgoes.pass_of_missing hfree).2
  | started hgoes hbounds hphase => exact hgoes.pass_started hbounds hphase hrepeatable
  | ended hgoes hbounds hended => exact .of_eq (hgoes.pass_ended hbounds hended)

/-! ## Passes on their way -/

/-- The command of a key as it is stored, once passes have gone on with it. -/
structure Begun (store : Store) (now : DateTime) (key : ObjectKey) (row : AtRow) (resource : At) :
    Prop where
  stored : store.atRow? key = some row
  shown : row.toAt = .ok resource
  begun : Pass.afterRead now (.ok resource) = .goOn (.findTask resource) ∨
    resource.phase = AtPhase.done.text ∧ (store.taskRow? key.forTask).isSome = true

/-- A copy of the command of a key, in a phase and of a version that may be
stale. -/
def Copied (store : Store) (now : DateTime) (key : ObjectKey) (copy : At) : Prop :=
  ∃ row resource phase version, store.Begun now key row resource ∧
    copy = resource.moved phase version

theorem Begun.taskKey (hbegun : store.Begun now key row resource) :
    resource.taskKey = key.forTask :=
  taskKey_of_toAt hbegun.stored hbegun.shown

theorem Goes.copied (hgoes : store.Goes now key row resource) : store.Copied now key resource := by
  have hversion : resource.metadata.resourceVersion = versionText row.version :=
    (AtRow.shows_of_toAt hgoes.shown).version
  refine ⟨row, resource, resource.phase, row.version,
    ⟨hgoes.stored, hgoes.shown, Or.inl hgoes.goesOn⟩, ?_⟩
  rw [At.moved, ← hversion]

theorem Retried.keeps_copied (hretried : Retried store now key after)
    (hcopied : store.Copied now key copy) : after.Copied now key copy := by
  obtain ⟨row, resource, phase, version, hbegun, rfl⟩ := hcopied
  cases hretried with
  | same => exact ⟨row, resource, phase, version, hbegun, rfl⟩
  | launched hgoes hfree =>
      refine ⟨row, resource, phase, version, ⟨hbegun.stored, hbegun.shown, ?_⟩, rfl⟩
      refine hbegun.begun.imp id fun ⟨hdone, _⟩ => ⟨hdone, ?_⟩
      rw [← hgoes.taskKey, taskRow?_launched hfree]
      rfl
  | started =>
      exact ⟨_, _, phase, version, ⟨atRow?_moveTo hbegun.stored .running,
        AtRow.toAt_moved hbegun.shown _ _, Or.inl (Pass.afterRead_of_running rfl)⟩, rfl⟩
  | ended _ _ hended =>
      obtain ⟨taskRow, -, htask, -, -⟩ := hended
      exact ⟨_, _, phase, version, ⟨atRow?_moveTo hbegun.stored .done,
        AtRow.toAt_moved hbegun.shown _ _, Or.inr ⟨rfl, Option.isSome_of_mem htask⟩⟩, rfl⟩

theorem Copied.retried_of_launch (hcopied : store.Copied now key copy) :
    Retried store now key (store.createTask now copy.newTask).store := by
  obtain ⟨row, resource, phase, version, hbegun, rfl⟩ := hcopied
  cases htask : store.taskRow? resource.taskKey with
  | some taskRow =>
      rw [createTask_of_taken now (resource.moved phase version).newTask htask]
      exact .same
  | none =>
      rw [createTask_of_free now (resource.moved phase version).newTask htask]
      -- A command is done only after its task was found, and no task is removed here.
      rcases hbegun.begun with hgoes | ⟨-, hthere⟩
      · have hlaunched : Retried store now key (store.launched now resource) :=
          .launched ⟨hbegun.stored, hbegun.shown, hgoes⟩ htask
        exact hlaunched
      · rw [← hbegun.taskKey, htask] at hthere
        cases hthere

/-- A pass that writes a phase writes it over the one that it has read. -/
theorem Copied.retried_of_store (hcopied : store.Copied now key copy)
    (hrecalls : store.Recalls copy) (hadvances : AtPhase.Advances copy.phase reached.text)
    (hreached : reached = .running ∨ reached = .done ∧ store.Ended key) :
    Retried store now key (store.updateAtStatus (Pass.inPhase copy reached)).store := by
  rcases store.updateAtStatus_cases (Pass.inPhase copy reached) with
    hsame | ⟨row, hrow, hbounds, hversion, hwritten⟩
  · rw [hsame]
    exact .same
  · obtain ⟨stored, resource, phase, version, hbegun, hcopy⟩ := hcopied
    have hkey : (Pass.inPhase copy reached).key = key := by
      rw [hcopy]
      exact (key_of_toAt hbegun.stored hbegun.shown : resource.key = key)
    have hphase : row.phase = copy.phase := hrecalls.phase_eq hrow hversion
    rw [hkey, hbegun.stored, Option.some.injEq] at hrow
    subst hrow
    rw [← hphase, ← (AtRow.shows_of_toAt hbegun.shown).phase] at hadvances
    have hgoes : store.Goes now key stored resource := by
      refine ⟨hbegun.stored, hbegun.shown, ?_⟩
      rcases hbegun.begun with hgoes | ⟨hdone, -⟩
      · exact hgoes
      · -- Only a phase before the last one is written over.
        exact absurd hdone hadvances.ne_done
    rw [hwritten, hkey]
    rcases hreached with rfl | ⟨rfl, hended⟩
    · exact .started hgoes hbounds hadvances.ne
    · exact .ended hgoes hbounds hended

inductive Underway (store : Store) (now : DateTime) (key : ObjectKey) : Pass.Stage → Prop where
  | read : Underway store now key (.read key)
  | findTask {copy : At} (hcopied : store.Copied now key copy) :
      Underway store now key (.findTask copy)
  | launch {copy : At} (hcopied : store.Copied now key copy) : Underway store now key (.launch copy)
  | store {copy : At} {reached : AtPhase} (hcopied : store.Copied now key copy)
      (hreached : reached = .running ∨ reached = .done ∧ store.Ended key) :
      Underway store now key (.store copy reached)

theorem Underway.afterRetry {stage : Pass.Stage} (hunderway : store.Underway now key stage)
    (hretried : Retried store now key after) : after.Underway now key stage := by
  cases hunderway with
  | read => exact .read
  | findTask hcopied => exact .findTask (hretried.keeps_copied hcopied)
  | launch hcopied => exact .launch (hretried.keeps_copied hcopied)
  | store hcopied hreached =>
      exact .store (hretried.keeps_copied hcopied)
        (hreached.imp id (And.imp_right hretried.keeps_ended))

theorem Underway.afterCall {stage following : Pass.Stage} {mishap : Mishap}
    (hunderway : store.Underway now key stage)
    (hleads : Pass.Leads store now mishap stage following) :
    store.Underway now key following := by
  cases hleads with
  | read hclear hread hgo =>
      cases hunderway
      obtain ⟨row, hgoes⟩ := goes_of_getAt hread hgo
      exact .findTask hgoes.copied
  | missed =>
      cases hunderway with
      | findTask hcopied => exact .launch hcopied
  | @found copy task hclear hfound =>
      cases hunderway with
      | findTask hcopied =>
          refine .store hcopied ?_
          obtain ⟨row, resource, phase, version, hbegun, rfl⟩ := hcopied
          obtain ⟨taskRow, htask, hread⟩ := toTask_of_getTask hfound
          refine (Pass.reachedBy_cases task).imp id fun hreached => ⟨hreached, ?_⟩
          exact ⟨taskRow, task, hbegun.taskKey ▸ htask, hread,
            Pass.isTerminal_of_reachedBy hreached⟩
  | launched =>
      cases hunderway with
      | launch hcopied => exact .store hcopied (Or.inl rfl)

theorem Underway.retried {trip : Trip} (hunderway : store.Underway now key trip.stage)
    (hsound : trip.Sound store) :
    Retried store now key (store.serve now trip.stage.call).store := by
  obtain ⟨stage, seen⟩ := trip
  cases hunderway with
  | read => exact .same
  | findTask hcopied => exact .same
  | launch hcopied => exact hcopied.retried_of_launch
  | store hcopied hreached =>
      exact hcopied.retried_of_store (hsound.recalled _ rfl).2 (hsound.forward _ _ rfl) hreached

end Store

namespace Race

variable {ι : Type} [DecidableEq ι]

/-- A move in a race of passes over the command of one key, while nobody else
uses the store and the clock stands still. -/
def retryStep? (key : ObjectKey) (race : Race ι) : RaceMove ι → Option (Race ι)
  | .start pass sought => if sought = key then race.step? (.start pass sought) else none
  | .proceed pass mishap => race.step? (.proceed pass mishap)
  | .call _ | .clock _ => none

/-- However far the passes have come, a pass without faults would end as at the
start. -/
structure Retrying (start : Store) (now : DateTime) (key : ObjectKey) (race : Race ι) : Prop where
  clock : race.now = now
  sound : race.Sound
  repeatable : race.store.Repeatable now key
  alike : Store.EndAlike key (race.store.pass now key) (start.pass now key)
  underway : ∀ pass trip, race.trips pass = some trip → race.store.Underway now key trip.stage

variable {start : Store} {now : DateTime} {key : ObjectKey} {race next : Race ι}
  {move : RaceMove ι}

theorem Retrying.afterProceed (hretrying : Retrying start now key race) {pass : ι}
    {mishap : Mishap} (hstep : race.step? (.proceed pass mishap) = some next) :
    Retrying start now key next := by
  have hsound := (hretrying.sound.afterStep hstep).1
  obtain ⟨trip, htrip, hnow, hstore, hothers⟩ := trips_of_proceed hstep
  rw [hretrying.clock] at hnow hstore hothers
  have hunderway := hretrying.underway pass trip htrip
  have hretried : race.store.Retried now key next.store := by
    rw [hstore]
    rcases race.store.attempt_store_cases now trip.stage.call mishap with hsame | hserved
    · rw [hsame]
      exact .same
    · rw [hserved]
      exact hunderway.retried (hretrying.sound pass trip htrip)
  refine ⟨hnow, hsound, hretried.repeatable hretrying.repeatable,
    (hretried.pass_alike hretrying.repeatable).trans hretrying.alike, fun other found hfound => ?_⟩
  rcases hothers other found hfound with ⟨-, hthere⟩ | ⟨-, hleads⟩
  · exact (hretrying.underway other found hthere).afterRetry hretried
  · exact (hunderway.afterCall hleads).afterRetry hretried

theorem Retrying.afterStep (hretrying : Retrying start now key race)
    (hstep : race.retryStep? key move = some next) : Retrying start now key next := by
  cases move with
  | call call => cases hstep
  | clock now => cases hstep
  | proceed pass mishap => exact hretrying.afterProceed hstep
  | start pass sought =>
      simp only [retryStep?] at hstep
      split at hstep
      next hsame =>
        subst hsame
        have hsound := (hretrying.sound.afterStep hstep).1
        cases hstep
        refine ⟨hretrying.clock, hsound, hretrying.repeatable, hretrying.alike,
          fun other found hfound => ?_⟩
        by_cases heq : other = pass
        · subst heq
          simp only [Function.update_self, Option.some.injEq] at hfound
          subst hfound
          exact .read
        · simp only [Function.update_of_ne heq] at hfound
          exact hretrying.underway other found hfound
      next => cases hstep

theorem retrying_of_play (hrepeatable : start.Repeatable now key) {moves : List (RaceMove ι)}
    (hplay : play (retryStep? key) { store := start, now } moves = some race) :
    Retrying start now key race :=
  play_keeps (fun _ _ _ => Retrying.afterStep)
    ⟨rfl, sound_of_nobody start now, hrepeatable, .of_eq rfl, fun _ _ htrip => by cases htrip⟩
    hplay

/-- However many passes over the command of a key are begun, cut off by faults
or given up, a pass without faults at the same time has the result that it
would have had at once, and leaves the phase and the task that it would have
left.  In particular a pass that is repeated changes nothing. -/
theorem passes_converge (store : Store) (now : DateTime) (key : ObjectKey) :
    (store.Repeatable now key → ∀ (moves : List (RaceMove ι)) race,
        play (retryStep? key) { store, now } moves = some race →
          (race.store.pass now key).1 = (store.pass now key).1 ∧
          ((race.store.pass now key).2.atRow? key).map AtRow.phase =
            ((store.pass now key).2.atRow? key).map AtRow.phase ∧
          Option.Rel TaskRow.Alike ((race.store.pass now key).2.taskRow? key.forTask)
            ((store.pass now key).2.taskRow? key.forTask)) ∧
      (store.pass now key).2.pass now key = store.pass now key := by
  refine ⟨fun hrepeatable moves race hplay => ?_, store.pass_repeat now key⟩
  obtain ⟨hresult, hphase, htask⟩ := (retrying_of_play hrepeatable hplay).alike
  refine ⟨hresult, hphase, ?_⟩
  rw [htask]
  cases (store.pass now key).2.taskRow? key.forTask with
  | none => exact .none
  | some row => exact .some ⟨row.uid, row.version, row.created, rfl⟩

/-- The task is created, but the pass is told of a fault.  The next pass finds
the task and writes the phase. -/
theorem passes_converge_of_lost_answer :
    let key : ObjectKey := ⟨"default", "a"⟩
    let command : At :=
      { metadata := { name := "a" }, spec := ⟨"2024-01-01T00:00:00Z", "echo"⟩ }
    let now : DateTime := ⟨⟨2024, 1, 2⟩, 0, 0, 0, 0, some 0⟩
    let store : Store := (({} : Store).serve now (.createAt command)).store
    let moves : List (RaceMove Bool) :=
      [.start false key, .proceed false .nothing, .proceed false .nothing,
        .proceed false (.unheard (.timedOut .expired))]
    ∃ race, store.Repeatable now key ∧
      play (retryStep? key) { store, now } moves = some race ∧
      store.taskRow? key.forTask = none ∧ (race.store.taskRow? key.forTask).isSome = true ∧
      (race.store.pass now key).1 = (store.pass now key).1 ∧
      ((race.store.pass now key).2.atRow? key).map AtRow.phase =
        ((store.pass now key).2.atRow? key).map AtRow.phase ∧
      Option.Rel TaskRow.Alike ((race.store.pass now key).2.taskRow? key.forTask)
        ((store.pass now key).2.taskRow? key.forTask) := by
  intro key command now store moves
  have hmissing : store.taskRow? key.forTask = none := by decide +kernel
  have hrepeatable : store.Repeatable now key := by
    intro row resource taskRow _ _ _ htask
    rw [hmissing] at htask
    cases htask
  obtain ⟨race, hrace, hcreated⟩ :
      ∃ race ∈ play (retryStep? key) ({ store, now } : Race Bool) moves,
        (race.store.taskRow? key.forTask).isSome = true := by
    decide +kernel
  exact ⟨race, hrepeatable, hrace, hmissing, hcreated,
    (passes_converge store now key).1 hrepeatable moves race hrace⟩

/-- A pass that cannot read its task fails and changes nothing.  A pass that is
told falsely that the task is missing does not read it, and so a phase is
written that no pass without faults would write. -/
theorem phase_written_after_false_absence :
    let key : ObjectKey := ⟨"default", "a"⟩
    let command : At :=
      { metadata := { name := "a" }, spec := ⟨"2024-01-01T00:00:00Z", "echo"⟩ }
    let now : DateTime := ⟨⟨2024, 1, 2⟩, 0, 0, 0, 0, some 0⟩
    let store : Store :=
      { (({} : Store).serve now (.createAt command)).store with
        tasks := [{ command.newTask.row "uid-2" now with restartPolicy := "Sometimes" }] }
    let moves : List (RaceMove Bool) :=
      [.start false key, .proceed false .nothing,
        .proceed false (.unsent (.notFound .task key.forTask)), .proceed false .nothing,
        .proceed false .nothing]
    ∃ race, play (retryStep? key) { store, now } moves = some race ∧
      ((store.pass now key).2.atRow? key).map AtRow.phase = some "" ∧
      ((race.store.pass now key).2.atRow? key).map AtRow.phase = some "RUNNING" := by
  intro key command now store moves
  obtain ⟨race, hrace, hrunning⟩ :
      ∃ race ∈ play (retryStep? key) ({ store, now } : Race Bool) moves,
        ((race.store.pass now key).2.atRow? key).map AtRow.phase = some "RUNNING" := by
    decide +kernel
  exact ⟨race, hrace, by decide +kernel, hrunning⟩

/-! ## Where passes do not converge -/

variable {store : Store} {row : AtRow} {resource : At} {pass : ι}

structure Before (store : Store) (now : DateTime) (pass : ι) (stage : Pass.Stage) (race : Race ι) :
    Prop where
  store : race.store = store
  clock : race.now = now
  trip : ∃ seen, race.trips pass = some ⟨stage, seen⟩

theorem before_read (store : Store) (now : DateTime) (pass : ι) (key : ObjectKey) :
    ∃ race, retryStep? key ({ store, now } : Race ι) (.start pass key) = some race ∧
      Before store now pass (.read key) race :=
  ⟨_, if_pos rfl, rfl, rfl, none, Function.update_self _ _ _⟩

theorem Before.goOn {stage following : Pass.Stage} (hbefore : Before store now pass stage race)
    (mishap : Mishap)
    (hgo : stage.next now (store.attempt now stage.call mishap).answer = .goOn following) :
    ∃ next, race.step? (.proceed pass mishap) = some next ∧
      Before (store.attempt now stage.call mishap).store now pass following next := by
  obtain ⟨rfl, rfl, seen, htrip⟩ := hbefore
  refine ⟨_, step?_proceed htrip mishap, rfl, rfl,
    stage.noted (race.store.attempt race.now stage.call mishap).answer seen, ?_⟩
  simp only [Function.update_self, Trip.after, hgo]

/-- A pass that is told falsely that its task is missing starts its command
without a look at the task. -/
theorem started_by_false_absence (pass : ι) (hgoes : store.Goes now key row resource)
    (hbounds : Store.Comparable row.version) (hphase : resource.phase ≠ AtPhase.running.text)
    {taskRow : TaskRow} (htask : store.taskRow? key.forTask = some taskRow) :
    ∃ moves race, play (retryStep? key) ({ store, now } : Race ι) moves = some race ∧
      race.store = store.moveTo key .running := by
  have hread : (Pass.Stage.read key).next now (store.attempt now (.getAt key) .nothing).answer =
      .goOn (.findTask resource) := by
    rw [← hgoes.goesOn, ← hgoes.getAt]
    rfl
  have htaken : store.createTask now resource.newTask =
      store.refuse (.alreadyExists .task resource.newTask.key) :=
    Store.createTask_of_taken now _ (hgoes.taskKey ▸ htask)
  have hlaunch : (Pass.Stage.launch resource).next now
      (store.attempt now (.createTask resource.newTask) .nothing).answer =
        .goOn (.store resource .running) := by
    have hreach : Pass.reach resource .running = .goOn (.store resource .running) := by
      rw [Pass.reach_of_open (Pass.open_of_afterRead hgoes.goesOn) (Or.inl rfl),
        if_neg hphase.symm]
    simp only [Pass.Stage.next, Store.attempt, Store.serve, htaken, ← hreach]
    rfl
  obtain ⟨reading, hstart, hreading⟩ := before_read store now pass key
  obtain ⟨looking, hlook, hlooking⟩ := hreading.goOn .nothing hread
  obtain ⟨launching, habsent, hlaunching⟩ :=
    hlooking.goOn (.unsent (.notFound .task key.forTask)) rfl
  obtain ⟨storing, hstoring, hstored, hclock, seen, htrip⟩ := hlaunching.goOn .nothing hlaunch
  have hkept : storing.store = store := hstored.trans (congrArg Effect.store htaken)
  obtain ⟨race, hlast, hwritten⟩ : ∃ race, storing.step? (.proceed pass .nothing) = some race ∧
      race.store = (store.updateAtStatus (Pass.inPhase resource .running)).store := by
    rw [← hkept]
    exact ⟨_, step?_proceed htrip .nothing, rfl⟩
  obtain ⟨updated, events, hmoved⟩ :=
    Store.updateAtStatus_inPhase hgoes.stored hgoes.shown hbounds .running
  refine ⟨[.start pass key, .proceed pass .nothing,
    .proceed pass (.unsent (.notFound .task key.forTask)), .proceed pass .nothing,
    .proceed pass .nothing], race, ?_, ?_⟩
  · rw [play_cons, hstart, Option.bind_some]
    simp only [play_cons, play_nil, retryStep?, hlook, habsent, hstoring, hlast, Option.bind_some]
  · rw [hwritten, hmoved]

/-- The condition is needed: where it does not hold, some passes that fail are
told in the end from none. -/
theorem repeatable_of_converging (pass : ι)
    (hconverges : ∀ (moves : List (RaceMove ι)) race,
      play (retryStep? key) { store, now } moves = some race →
        (race.store.pass now key).1 = (store.pass now key).1 ∧
        ((race.store.pass now key).2.atRow? key).map AtRow.phase =
          ((store.pass now key).2.atRow? key).map AtRow.phase) :
    store.Repeatable now key := by
  intro row resource taskRow hgoes hphase hbounds htask
  obtain ⟨moves, race, hplay, hstarted⟩ :=
    started_by_false_absence pass hgoes hbounds hphase htask
  obtain ⟨hresult, hsame⟩ := hconverges moves race hplay
  rw [hstarted] at hresult hsame
  rw [← hgoes.taskKey] at htask
  cases hread : taskRow.toTask with
  | error fault =>
      rw [hgoes.running.pass_of_unread htask hread, hgoes.pass_of_unread htask hread,
        Store.atRow?_moveTo hgoes.stored, hgoes.stored] at hsame
      exact absurd (hgoes.phase.symm.trans (Option.some.inj hsame).symm) hphase
  | ok task =>
      refine ⟨task, rfl, fun hterminal => ?_⟩
      have hreached : Pass.reachedBy task = .done := if_pos hterminal
      rw [hgoes.running.pass_of_found htask hread, hgoes.pass_of_found htask hread, hreached,
        Store.settle_of_moved hgoes.stored hgoes.not_done.symm hbounds] at hresult
      by_contra hlast
      have hlater : AtPhase.done.text ≠ AtPhase.running.text := by decide
      rw [Store.settle, if_neg hlater, if_neg hlast] at hresult
      cases hresult

end Race

end OneShot
