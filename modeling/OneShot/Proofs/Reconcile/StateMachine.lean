import OneShot.Proofs.Reconcile.OpenRace
import OneShot.Proofs.Reconcile.Solo
import OneShot.Proofs.Reconcile.Transcripts
import OneShot.Simulation.Shelf

/-!
# What one pass does

A pass over a client in memory, on which no call fails for reasons of its own:
which calls it makes and how it ends is said by the phase of the command, its
schedule and the task that is found.
-/

namespace OneShot

open Calendar

namespace Simulation.Shelf

def service : Pass.Service Shelf := fun call shelf => shelf.serve call

def at? (shelf : Shelf) (key : ObjectKey) : Option At :=
  Assoc.get? shelf.ats key

def task? (shelf : Shelf) (key : ObjectKey) : Option Task :=
  Assoc.get? shelf.tasks key

/-- Commands are kept under their own keys, and their versions are numbers. -/
structure Orderly (shelf : Shelf) : Prop where
  keyed : ∀ {key : ObjectKey} {resource : At}, shelf.at? key = some resource → resource.key = key
  versioned : ∀ {key : ObjectKey} {resource : At}, shelf.at? key = some resource →
    ∃ version, nextVersion resource.metadata.resourceVersion = .ok version

variable {shelf : Shelf} {key : ObjectKey} {resource : At} {task : Task}

theorem serve_getAt (hstored : shelf.at? key = some resource) :
    shelf.serve (.getAt key) = (.ok resource, shelf) := by
  unfold at? at hstored
  simp only [serve, find, hstored]

theorem serve_getAt_of_missing (hmissing : shelf.at? key = none) :
    shelf.serve (.getAt key) = (.error (.notFound .at key), shelf) := by
  unfold at? at hmissing
  simp only [serve, find, hmissing]

theorem serve_getTask (hfound : shelf.task? key = some task) :
    shelf.serve (.getTask key) = (.ok task, shelf) := by
  unfold task? at hfound
  simp only [serve, find, hfound]

theorem serve_getTask_of_missing (hmissing : shelf.task? key = none) :
    shelf.serve (.getTask key) = (.error (.notFound .task key), shelf) := by
  unfold task? at hmissing
  simp only [serve, find, hmissing]

/-- Creating a task under a free key leaves the commands as they are. -/
theorem create_of_free (task : Task) (hfree : shelf.task? task.key = none) :
    ∃ created later, shelf.create task = (.ok created, later) ∧ later.ats = shelf.ats := by
  unfold task? at hfree
  simp only [create, hfree]
  exact ⟨_, _, rfl, rfl⟩

theorem nextVersion_eq_error {version : String} {fault : Fault}
    (hfault : nextVersion version = .error fault) : ∃ cause, fault = .other cause := by
  unfold nextVersion at hfault
  split at hfault
  next => cases hfault
  next =>
    cases hfault
    exact ⟨_, rfl⟩

theorem updateStatus_eq_error {fault : Fault} {written : At}
    (hfault : (shelf.updateStatus written).1 = .error fault) :
    fault.isOfResources = true ∨ ∃ cause, fault = .other cause := by
  unfold updateStatus at hfault
  split at hfault
  next =>
    cases hfault
    exact Or.inl rfl
  next =>
    split at hfault
    next =>
      cases hfault
      exact Or.inl rfl
    next =>
      split at hfault
      next found hnext =>
        cases hfault
        exact Or.inr (nextVersion_eq_error hnext)
      next => cases hfault

theorem Orderly.updateStatus (horderly : shelf.Orderly) (hstored : shelf.at? key = some resource)
    {later : Shelf} (hats : later.ats = shelf.ats) (reached : AtPhase) :
    ∃ updated, (later.updateStatus (Pass.inPhase resource reached)).1 = .ok updated := by
  obtain ⟨version, hversion⟩ := horderly.versioned hstored
  have hfound : Assoc.get? later.ats (Pass.inPhase resource reached).key = some resource := by
    rw [hats, show (Pass.inPhase resource reached).key = resource.key from rfl,
      horderly.keyed hstored]
    exact hstored
  have hcurrent : resource.metadata.resourceVersion =
      (Pass.inPhase resource reached).metadata.resourceVersion := rfl
  unfold Shelf.updateStatus
  simp only [hfound, ← hcurrent, ne_eq, not_true_eq_false, if_false, hversion]
  exact ⟨_, rfl⟩

end Simulation.Shelf

namespace Pass

open Simulation

/-! ## How a command stands -/

def Unstarted (resource : At) : Prop :=
  resource.phase = AtPhase.unset.text ∨ resource.phase = AtPhase.pending.text

/-- The command is running, or it is not started and its schedule has come. -/
def Due (resource : At) (now : DateTime) : Prop :=
  resource.phase = AtPhase.running.text ∨
    Unstarted resource ∧ Schedule.DueBy resource.spec.schedule now

/-- The command is not started and its schedule is some microseconds ahead. -/
def WaitsFor (resource : At) (now : DateTime) (delay : Int) : Prop :=
  Unstarted resource ∧ ∃ target, Schedule.parse resource.spec.schedule = .ok target ∧
    now.instant < target.instant ∧ delay = target.instant - now.instant

/-- The command is not started and its schedule cannot be read. -/
def Misstated (resource : At) (fault : ScheduleFault) : Prop :=
  Unstarted resource ∧ Schedule.parse resource.spec.schedule = .error fault

variable {resource : At} {now : DateTime} {task : Task}

theorem Unstarted.ne_running (hunstarted : Unstarted resource) :
    resource.phase ≠ AtPhase.running.text := by
  rcases hunstarted with hphase | hphase
  · rw [hphase]
    decide
  · rw [hphase]
    decide

theorem Unstarted.open (hunstarted : Unstarted resource) : Open resource.phase := by
  rcases hunstarted with hunset | hpending
  · exact Or.inl hunset
  · exact Or.inr (Or.inl hpending)

theorem Due.open (hdue : Due resource now) : Open resource.phase := by
  rcases hdue with hrunning | ⟨hunstarted, -⟩
  · exact Or.inr (Or.inr hrunning)
  · exact hunstarted.open

theorem Due.not_waitsFor (hdue : Due resource now) (delay : Int) :
    ¬ WaitsFor resource now delay := by
  rintro ⟨hunstarted, target, hparse, hahead, -⟩
  rcases hdue with hrunning | ⟨-, moment, hmoment, hcome⟩
  · exact hunstarted.ne_running hrunning
  · obtain rfl := Except.ok.inj (hparse.symm.trans hmoment)
    omega

theorem Due.not_misstated (hdue : Due resource now) (fault : ScheduleFault) :
    ¬ Misstated resource fault := by
  rintro ⟨hunstarted, hmalformed⟩
  rcases hdue with hrunning | ⟨-, moment, hmoment, -⟩
  · exact hunstarted.ne_running hrunning
  · cases hmalformed.symm.trans hmoment

theorem WaitsFor.delay_unique {delay other : Int} (hwaits : WaitsFor resource now delay)
    (hother : WaitsFor resource now other) : delay = other := by
  obtain ⟨-, target, hparse, -, rfl⟩ := hwaits
  obtain ⟨-, moment, hmoment, -, rfl⟩ := hother
  obtain rfl := Except.ok.inj (hparse.symm.trans hmoment)
  rfl

theorem WaitsFor.not_misstated {delay : Int} (hwaits : WaitsFor resource now delay)
    (fault : ScheduleFault) : ¬ Misstated resource fault := by
  rintro ⟨-, hmalformed⟩
  obtain ⟨-, target, hparse, -⟩ := hwaits
  cases hmalformed.symm.trans hparse

theorem Misstated.fault_unique {fault other : ScheduleFault} (hmisstated : Misstated resource fault)
    (hother : Misstated resource other) : fault = other :=
  Except.error.inj (hmisstated.2.symm.trans hother.2)

theorem afterRead_of_unstarted (hunstarted : Unstarted resource) :
    afterRead now (.ok resource) = waitOrLaunch resource now := by
  rcases hunstarted with hphase | hphase
  · simp only [afterRead, hphase, AtPhase.ofText?_text]
  · simp only [afterRead, hphase, AtPhase.ofText?_text]

theorem waitOrLaunch_of_parse (hnow : InRange now.instant) {target : DateTime}
    (hparse : Schedule.parse resource.spec.schedule = .ok target) :
    waitOrLaunch resource now =
      if now.instant < target.instant then
        .finished { requeueAfter := some (target.instant - now.instant) }
      else .goOn (.findTask resource) := by
  have hpresent : now.toUtc? = some (DateTime.ofInstant now.instant) := if_pos hnow
  simp only [waitOrLaunch, Schedule.delay, hparse, hpresent, DateTime.instant_ofInstant hnow,
    sub_pos]

theorem waitOrLaunch_of_not_inRange (hnow : ¬ InRange now.instant) {target : DateTime}
    (hparse : Schedule.parse resource.spec.schedule = .ok target) :
    waitOrLaunch resource now = .failed (.other .outOfRange) := by
  have hpresent : now.toUtc? = none := if_neg hnow
  simp only [waitOrLaunch, Schedule.delay, hparse, hpresent]

/-- What a pass makes of the command that it has read. -/
inductive Reading (resource : At) (now : DateTime) : Progress → Prop
  | due (hdue : Due resource now) : Reading resource now (.goOn (.findTask resource))
  | waits {delay : Int} (hwaits : WaitsFor resource now delay) :
      Reading resource now (.finished { requeueAfter := some delay })
  | misstated {fault : ScheduleFault} (hmisstated : Misstated resource fault) :
      Reading resource now (.failed (.schedule (.malformed fault)))
  | shut (hshut : ¬ Open resource.phase) : Reading resource now (.finished {})

theorem reading_afterRead (hnow : InRange now.instant) (resource : At) :
    Reading resource now (afterRead now (.ok resource)) := by
  by_cases hunstarted : Unstarted resource
  · rw [afterRead_of_unstarted hunstarted]
    cases hparse : Schedule.parse resource.spec.schedule with
    | error fault =>
        have hfailed : waitOrLaunch resource now = .failed (.schedule (.malformed fault)) := by
          simp only [waitOrLaunch, Schedule.delay, hparse]
        rw [hfailed]
        exact .misstated ⟨hunstarted, hparse⟩
    | ok target =>
        rw [waitOrLaunch_of_parse hnow hparse]
        split
        next hahead => exact .waits ⟨hunstarted, target, hparse, hahead, rfl⟩
        next hcome => exact .due (Or.inr ⟨hunstarted, target, hparse, not_lt.mp hcome⟩)
  · by_cases hrunning : resource.phase = AtPhase.running.text
    · rw [afterRead_of_running hrunning]
      exact .due (Or.inl hrunning)
    · have hshut : ¬ Open resource.phase := by
        rintro (hunset | hpending | hphase)
        · exact hunstarted (Or.inl hunset)
        · exact hunstarted (Or.inr hpending)
        · exact hrunning hphase
      have hfinished : afterRead now (.ok resource) = .finished {} := by
        simp only [afterRead]
        split
        next hunset => exact absurd (Or.inl (AtPhase.text_of_ofText? hunset)) hunstarted
        next hpending => exact absurd (Or.inr (AtPhase.text_of_ofText? hpending)) hunstarted
        next hfound => exact absurd (AtPhase.text_of_ofText? hfound) hrunning
        next => rfl
        next => rfl
      rw [hfinished]
      exact .shut hshut

/-! ## The calls of a pass -/

section Calls

variable {shelf : Shelf} {key : ObjectKey} (wall : Shelf → DateTime)

/-- The phase that a command reaches with the task that is found, if any. -/
def reachedWith (found : Option Task) : AtPhase :=
  found.elim .running reachedBy

theorem reachedWith_cases (found : Option Task) :
    reachedWith found = .running ∨ reachedWith found = .done := by
  cases found with
  | none => exact Or.inl rfl
  | some task => exact reachedBy_cases task

/-- The calls at the end of the phases. -/
def closingCalls (resource : At) (reached : AtPhase) : List Call :=
  if reached.text = resource.phase then [] else [.updateAtStatus (inPhase resource reached)]

/-- The calls that follow on a look for the task. -/
def callsAfterLook (resource : At) (found : Option Task) : List Call :=
  found.elim [.createTask resource.newTask] (fun _ => []) ++
    closingCalls resource (reachedWith found)

/-- How a pass ends that has come to the end of the phases. -/
def closing (resource : At) (shelf : Shelf) (reached : AtPhase) : Except Fault Result :=
  if reached.text = resource.phase then .ok {}
  else (shelf.updateStatus (inPhase resource reached)).1.map fun _ => {}

theorem trace_store (resource : At) (reached : AtPhase) (shelf : Shelf) :
    (trace Shelf.service wall (.store resource reached) shelf).1 =
        [.updateAtStatus (inPhase resource reached)] ∧
      (trace Shelf.service wall (.store resource reached) shelf).2.1 =
        (shelf.updateStatus (inPhase resource reached)).1.map fun _ => {} := by
  cases hanswer : shelf.updateStatus (inPhase resource reached) with
  | mk answer later =>
      have hserved : Shelf.service (Stage.store resource reached).call shelf = (answer, later) :=
        hanswer
      cases answer with
      | error fault =>
          rw [trace_of_failed hserved rfl]
          exact ⟨rfl, rfl⟩
      | ok updated =>
          rw [trace_of_finished hserved rfl]
          exact ⟨rfl, rfl⟩

/-- A stage after which the phases are at their end. -/
theorem trace_of_reach {stage : Stage} {reached : AtPhase} (hopen : Open resource.phase)
    (hreached : reached = .running ∨ reached = .done) {answer : Except Fault stage.call.Reply}
    {later : Shelf} (hserved : Shelf.service stage.call shelf = (answer, later))
    (hnext : stage.next (wall later) answer = reach resource reached) :
    (trace Shelf.service wall stage shelf).1 = stage.call :: closingCalls resource reached ∧
      (trace Shelf.service wall stage shelf).2.1 = closing resource later reached := by
  rw [reach_of_open hopen hreached] at hnext
  unfold closing closingCalls
  split
  next hstays =>
    rw [if_pos hstays] at hnext
    rw [trace_of_finished hserved hnext]
    exact ⟨rfl, rfl⟩
  next hmoved =>
    rw [if_neg hmoved] at hnext
    obtain ⟨hcalls, hclosed⟩ := trace_store wall resource reached later
    rw [trace_of_goOn hserved hnext]
    exact ⟨congrArg (stage.call :: ·) hcalls, hclosed⟩

theorem trace_launch (hopen : Open resource.phase) (hfree : shelf.task? resource.taskKey = none) :
    ∃ later : Shelf, later.ats = shelf.ats ∧
      (trace Shelf.service wall (.launch resource) shelf).1 = callsAfterLook resource none ∧
      (trace Shelf.service wall (.launch resource) shelf).2.1 =
        closing resource later .running := by
  obtain ⟨created, later, hcreate, hats⟩ :=
    Shelf.create_of_free resource.newTask hfree
  have hserved : Shelf.service (Stage.launch resource).call shelf = (.ok created, later) := hcreate
  obtain ⟨hcalls, hclosed⟩ := trace_of_reach wall hopen (Or.inl rfl) hserved rfl
  exact ⟨later, hats, hcalls, hclosed⟩

theorem trace_findTask (shelf : Shelf) (hopen : Open resource.phase) :
    ∃ later : Shelf, later.ats = shelf.ats ∧
      (trace Shelf.service wall (.findTask resource) shelf).1 =
        .getTask resource.taskKey :: callsAfterLook resource (shelf.task? resource.taskKey) ∧
      (trace Shelf.service wall (.findTask resource) shelf).2.1 =
        closing resource later (reachedWith (shelf.task? resource.taskKey)) := by
  cases hfound : shelf.task? resource.taskKey with
  | none =>
      have hserved : Shelf.service (Stage.findTask resource).call shelf =
          (.error (.notFound .task resource.taskKey), shelf) :=
        Shelf.serve_getTask_of_missing hfound
      obtain ⟨later, hats, hcalls, hclosed⟩ := trace_launch wall hopen hfound
      rw [trace_of_goOn hserved rfl]
      exact ⟨later, hats, congrArg (Call.getTask resource.taskKey :: ·) hcalls, hclosed⟩
  | some task =>
      have hserved : Shelf.service (Stage.findTask resource).call shelf = (.ok task, shelf) :=
        Shelf.serve_getTask hfound
      obtain ⟨hcalls, hclosed⟩ := trace_of_reach wall hopen (reachedBy_cases task) hserved
        (afterFindTask_ok resource task)
      exact ⟨shelf, rfl, hcalls, hclosed⟩

/-- What a pass over the command of a key comes to. -/
inductive Course (shelf : Shelf) (key : ObjectKey) (now : DateTime) :
    List Call → Except Fault Result → Prop
  | missing (hmissing : shelf.at? key = none) : Course shelf key now [.getAt key] (.ok {})
  | shut {resource : At} (hstored : shelf.at? key = some resource)
      (hshut : ¬ Open resource.phase) : Course shelf key now [.getAt key] (.ok {})
  | waits {resource : At} {delay : Int} (hstored : shelf.at? key = some resource)
      (hwaits : WaitsFor resource now delay) :
      Course shelf key now [.getAt key] (.ok { requeueAfter := some delay })
  | misstated {resource : At} {fault : ScheduleFault} (hstored : shelf.at? key = some resource)
      (hmisstated : Misstated resource fault) :
      Course shelf key now [.getAt key] (.error (.schedule (.malformed fault)))
  | due {resource : At} {later : Shelf} (hstored : shelf.at? key = some resource)
      (hdue : Due resource now) (hats : later.ats = shelf.ats) :
      Course shelf key now
        (.getAt key :: .getTask resource.taskKey ::
          callsAfterLook resource (shelf.task? resource.taskKey))
        (closing resource later (reachedWith (shelf.task? resource.taskKey)))

theorem course_of_trace (hnow : InRange now.instant) (shelf : Shelf) (key : ObjectKey) :
    Course shelf key now (trace Shelf.service (fun _ => now) (.read key) shelf).1
      (trace Shelf.service (fun _ => now) (.read key) shelf).2.1 := by
  let wall : Shelf → DateTime := fun _ => now
  cases hstored : shelf.at? key with
  | none =>
      have hserved : Shelf.service (Stage.read key).call shelf =
          (.error (.notFound .at key), shelf) := Shelf.serve_getAt_of_missing hstored
      rw [trace_of_finished hserved rfl]
      exact .missing hstored
  | some resource =>
      have hserved : Shelf.service (Stage.read key).call shelf = (.ok resource, shelf) :=
        Shelf.serve_getAt hstored
      have hreading : Reading resource now ((Stage.read key).next (wall shelf) (.ok resource)) :=
        reading_afterRead hnow resource
      generalize hprogress : (Stage.read key).next (wall shelf) (.ok resource) = progress
        at hreading
      cases hreading with
      | due hdue =>
          obtain ⟨later, hats, hcalls, hclosed⟩ :=
            trace_findTask wall shelf hdue.open
          rw [trace_of_goOn hserved hprogress, hcalls, hclosed]
          exact .due hstored hdue hats
      | waits hwaits =>
          rw [trace_of_finished hserved hprogress]
          exact .waits hstored hwaits
      | misstated hmisstated =>
          rw [trace_of_failed hserved hprogress]
          exact .misstated hstored hmisstated
      | shut hshut =>
          rw [trace_of_finished hserved hprogress]
          exact .shut hstored hshut

end Calls

/-! ## What the calls and the end of a pass say -/

def Ended (task : Task) : Prop :=
  task.status.phase = .succeeded ∨ task.status.phase = .failed

theorem ended_iff (task : Task) : Ended task ↔ task.status.phase.isTerminal = true := by
  unfold Ended
  cases task.status.phase <;> simp [TaskPhase.isTerminal]

/-- The state machine: what a pass at a moment has to do. -/
structure Obeys (shelf : Shelf) (key : ObjectKey) (now : DateTime) (calls : List Call)
    (outcome : Except Fault Result) : Prop where
  once : calls.Nodup
  launches : ∀ task, .createTask task ∈ calls ↔
    ∃ resource, shelf.at? key = some resource ∧ Due resource now ∧
      shelf.task? resource.taskKey = none ∧ task = resource.newTask
  writes : ∀ written, .updateAtStatus written ∈ calls ↔
    ∃ resource, shelf.at? key = some resource ∧ Due resource now ∧
      ((written = inPhase resource .done ∧
          ∃ task, shelf.task? resource.taskKey = some task ∧ Ended task) ∨
        (written = inPhase resource .running ∧ Unstarted resource ∧
          ∀ task, shelf.task? resource.taskKey = some task → ¬ Ended task))
  writesLast : ∀ written, .updateAtStatus written ∈ calls →
    ∃ before, calls = before ++ [.updateAtStatus written] ∧
      ∀ other, .updateAtStatus other ∉ before
  waits : ∀ delay, outcome = .ok { requeueAfter := some delay } ↔
    ∃ resource, shelf.at? key = some resource ∧ WaitsFor resource now delay
  refuses : ∀ cause, outcome = .error (.schedule cause) ↔
    ∃ resource fault, shelf.at? key = some resource ∧ Misstated resource fault ∧
      cause = .malformed fault
  /-- A pass that waits or refuses has done no more than to read the command. -/
  reads : (∃ delay, outcome = .ok { requeueAfter := some delay }) ∨
    (∃ cause, outcome = .error (.schedule cause)) → calls = [.getAt key]
  forward : ∀ cause, outcome ≠ .error (.phase cause)
  /-- Where the status can be stored, a pass that does not wait and does not
  refuse ends well. -/
  endsWell : shelf.Orderly → outcome = .ok {} ∨
    (∃ delay, outcome = .ok { requeueAfter := some delay }) ∨
    ∃ cause, outcome = .error (.schedule cause)

section Obedience

variable {shelf : Shelf} {key : ObjectKey} {calls : List Call} {outcome : Except Fault Result}

theorem mem_closingCalls {reached : AtPhase} {call : Call} :
    call ∈ closingCalls resource reached ↔
      reached.text ≠ resource.phase ∧ call = .updateAtStatus (inPhase resource reached) := by
  unfold closingCalls
  split
  next hstays => simp [hstays]
  next hmoved => simp [hmoved]

theorem mem_callsAfterLook {found : Option Task} {call : Call} :
    call ∈ callsAfterLook resource found ↔
      (found = none ∧ call = .createTask resource.newTask) ∨
        (reachedWith found).text ≠ resource.phase ∧
          call = .updateAtStatus (inPhase resource (reachedWith found)) := by
  unfold callsAfterLook
  rw [List.mem_append, mem_closingCalls]
  cases found with
  | none => simp
  | some task => simp

theorem createTask_mem_callsAfterLook {found : Option Task} :
    .createTask task ∈ callsAfterLook resource found ↔
      found = none ∧ task = resource.newTask := by
  simp [mem_callsAfterLook]

theorem updateAtStatus_mem_callsAfterLook {found : Option Task} {written : At} :
    .updateAtStatus written ∈ callsAfterLook resource found ↔
      (reachedWith found).text ≠ resource.phase ∧
        written = inPhase resource (reachedWith found) := by
  simp [mem_callsAfterLook]

theorem nodup_callsAfterLook (resource : At) (found : Option Task) :
    (callsAfterLook resource found).Nodup := by
  unfold callsAfterLook closingCalls
  cases found with
  | none => split <;> simp
  | some task => split <;> simp

theorem callsAfterLook_writesLast {found : Option Task} {written : At}
    (hwritten : .updateAtStatus written ∈ callsAfterLook resource found) :
    ∃ before, callsAfterLook resource found = before ++ [.updateAtStatus written] ∧
      ∀ other, .updateAtStatus other ∉ before := by
  obtain ⟨hmoved, rfl⟩ := updateAtStatus_mem_callsAfterLook.mp hwritten
  unfold callsAfterLook closingCalls
  rw [if_neg hmoved]
  refine ⟨_, rfl, ?_⟩
  intro other hother
  cases found with
  | none => cases List.mem_singleton.mp hother
  | some task => cases hother

theorem reachedWith_eq_done {found : Option Task} :
    reachedWith found = .done ↔ ∃ task, found = some task ∧ Ended task := by
  cases found with
  | none => simp [reachedWith]
  | some task =>
      simp only [reachedWith, Option.elim_some, reachedBy, Option.some.injEq, exists_eq_left',
        ended_iff]
      split <;> simp_all

/-- Which phase is written over a command that is due. -/
theorem Due.moves_iff (hdue : Due resource now) (found : Option Task) (written : At) :
    ((reachedWith found).text ≠ resource.phase ∧
        written = inPhase resource (reachedWith found)) ↔
      ((written = inPhase resource .done ∧ ∃ task, found = some task ∧ Ended task) ∨
        (written = inPhase resource .running ∧ Unstarted resource ∧
          ∀ task, found = some task → ¬ Ended task)) := by
  have hnotDone : AtPhase.done.text ≠ resource.phase := by
    rcases hdue.open with hphase | hphase | hphase <;> rw [hphase] <;> decide
  have hnotRunning : AtPhase.running.text ≠ resource.phase ↔ Unstarted resource := by
    constructor
    · intro hne
      rcases hdue with hrunning | ⟨hunstarted, -⟩
      · exact absurd hrunning.symm hne
      · exact hunstarted
    · intro hunstarted
      exact hunstarted.ne_running.symm
  have hended : (∀ task, found = some task → ¬ Ended task) ↔ reachedWith found ≠ .done := by
    rw [Ne, reachedWith_eq_done]
    push Not
    rfl
  rw [← reachedWith_eq_done, hended, ← hnotRunning]
  rcases reachedWith_cases found with hreached | hreached
  · rw [hreached]
    simp [and_comm]
  · rw [hreached]
    simp [hnotDone]

theorem closing_cases (resource : At) (later : Shelf) (reached : AtPhase) :
    closing resource later reached = .ok {} ∨
      ∃ fault, closing resource later reached = .error fault ∧
        (later.updateStatus (inPhase resource reached)).1 = .error fault := by
  unfold closing
  split
  next => exact Or.inl rfl
  next =>
    cases hanswer : (later.updateStatus (inPhase resource reached)).1 with
    | error fault => exact Or.inr ⟨fault, rfl, rfl⟩
    | ok updated => exact Or.inl rfl

/-- A pass that does no more than to read a command which is not due. -/
theorem obeys_of_idle (hidle : ∀ resource, shelf.at? key = some resource → ¬ Due resource now)
    (hwaits : ∀ delay, outcome = .ok { requeueAfter := some delay } ↔
      ∃ resource, shelf.at? key = some resource ∧ WaitsFor resource now delay)
    (hrefuses : ∀ cause, outcome = .error (.schedule cause) ↔
      ∃ resource fault, shelf.at? key = some resource ∧ Misstated resource fault ∧
        cause = .malformed fault)
    (hends : outcome = .ok {} ∨ (∃ delay, outcome = .ok { requeueAfter := some delay }) ∨
      ∃ cause, outcome = .error (.schedule cause)) :
    Obeys shelf key now [.getAt key] outcome where
  once := List.nodup_singleton _
  launches task := by
    constructor
    · intro hmem
      cases List.mem_singleton.mp hmem
    · rintro ⟨resource, hstored, hdue, -⟩
      exact absurd hdue (hidle resource hstored)
  writes written := by
    constructor
    · intro hmem
      cases List.mem_singleton.mp hmem
    · rintro ⟨resource, hstored, hdue, -⟩
      exact absurd hdue (hidle resource hstored)
  writesLast written hmem := by cases List.mem_singleton.mp hmem
  waits := hwaits
  refuses := hrefuses
  reads _ := rfl
  forward cause hphase := by
    rcases hends with hok | ⟨delay, hok⟩ | ⟨refused, hrefused⟩
    · cases hphase.symm.trans hok
    · cases hphase.symm.trans hok
    · cases hphase.symm.trans hrefused
  endsWell _ := hends

theorem obeys_of_due {later : Shelf} (hstored : shelf.at? key = some resource)
    (hdue : Due resource now) (hats : later.ats = shelf.ats) :
    Obeys shelf key now
      (.getAt key :: .getTask resource.taskKey ::
        callsAfterLook resource (shelf.task? resource.taskKey))
      (closing resource later (reachedWith (shelf.task? resource.taskKey))) := by
  have hsame : ∀ {other : At}, shelf.at? key = some other → other = resource :=
    fun hother => Option.some.inj (hother.symm.trans hstored)
  have hclosing := closing_cases resource later (reachedWith (shelf.task? resource.taskKey))
  have hforeign : ∀ {fault : Fault},
      closing resource later (reachedWith (shelf.task? resource.taskKey)) = .error fault →
        fault.isOfResources = true ∨ ∃ cause, fault = .other cause := by
    intro fault hfault
    rcases hclosing with hok | ⟨found, hfound, hanswer⟩
    · cases hfault.symm.trans hok
    · obtain rfl := Except.error.inj (hfault.symm.trans hfound)
      exact Shelf.updateStatus_eq_error hanswer
  constructor
  case once =>
    have hnodup := nodup_callsAfterLook resource (shelf.task? resource.taskKey)
    simp [mem_callsAfterLook, hnodup]
  case launches =>
    intro task
    simp only [List.mem_cons, reduceCtorEq, false_or, createTask_mem_callsAfterLook]
    constructor
    · rintro ⟨hfree, rfl⟩
      exact ⟨resource, hstored, hdue, hfree, rfl⟩
    · rintro ⟨other, hother, -, hfree, rfl⟩
      obtain rfl := hsame hother
      exact ⟨hfree, rfl⟩
  case writes =>
    intro written
    simp only [List.mem_cons, reduceCtorEq, false_or, updateAtStatus_mem_callsAfterLook,
      hdue.moves_iff]
    constructor
    · intro hwritten
      exact ⟨resource, hstored, hdue, hwritten⟩
    · rintro ⟨other, hother, -, hwritten⟩
      obtain rfl := hsame hother
      exact hwritten
  case writesLast =>
    intro written hmem
    simp only [List.mem_cons, reduceCtorEq, false_or] at hmem
    obtain ⟨before, hbefore, hnone⟩ := callsAfterLook_writesLast hmem
    refine ⟨.getAt key :: .getTask resource.taskKey :: before, ?_, ?_⟩
    · rw [hbefore]
      rfl
    · intro other hother
      simp only [List.mem_cons, reduceCtorEq, false_or] at hother
      exact hnone other hother
  case waits =>
    intro delay
    constructor
    · intro hwaits
      rcases hclosing with hok | ⟨fault, hfault, -⟩
      · cases hwaits.symm.trans hok
      · cases hwaits.symm.trans hfault
    · rintro ⟨other, hother, hwaits⟩
      obtain rfl := hsame hother
      exact absurd hwaits (hdue.not_waitsFor delay)
  case refuses =>
    intro cause
    constructor
    · intro hrefused
      rcases hforeign hrefused with hclass | ⟨foreign, hother⟩
      · cases hclass
      · cases hother
    · rintro ⟨other, fault, hother, hmisstated, -⟩
      obtain rfl := hsame hother
      exact absurd hmisstated (hdue.not_misstated fault)
  case reads =>
    rintro (⟨delay, hwaits⟩ | ⟨cause, hrefused⟩)
    · rcases hclosing with hok | ⟨fault, hfault, -⟩
      · cases hwaits.symm.trans hok
      · cases hwaits.symm.trans hfault
    · rcases hforeign hrefused with hclass | ⟨foreign, hother⟩
      · cases hclass
      · cases hother
  case forward =>
    intro cause hphase
    rcases hforeign hphase with hclass | ⟨foreign, hother⟩
    · cases hclass
    · cases hother
  case endsWell =>
    intro horderly
    rcases hclosing with hok | ⟨fault, -, hanswer⟩
    · exact Or.inl hok
    · obtain ⟨updated, hupdated⟩ := horderly.updateStatus hstored hats
        (reachedWith (shelf.task? resource.taskKey))
      cases hanswer.symm.trans hupdated

theorem Course.obeys (hcourse : Course shelf key now calls outcome) :
    Obeys shelf key now calls outcome := by
  cases hcourse with
  | missing hmissing =>
      have hnone : ∀ {resource : At}, shelf.at? key ≠ some resource := by
        intro resource hstored
        cases hmissing.symm.trans hstored
      apply obeys_of_idle
      · intro resource hstored
        exact absurd hstored hnone
      · intro delay
        exact ⟨fun h => (nomatch h), fun ⟨_, hstored, _⟩ => absurd hstored hnone⟩
      · intro cause
        exact ⟨fun h => (nomatch h), fun ⟨_, _, hstored, _⟩ => absurd hstored hnone⟩
      · exact Or.inl rfl
  | @shut resource hstored hshut =>
      have hsame : ∀ {other : At}, shelf.at? key = some other → other = resource :=
        fun hother => Option.some.inj (hother.symm.trans hstored)
      apply obeys_of_idle
      · intro other hother hdue
        exact hshut (hsame hother ▸ hdue.open)
      · intro delay
        exact ⟨fun h => (nomatch h),
          fun ⟨_, hother, hwaits⟩ => absurd (hsame hother ▸ hwaits.1.open) hshut⟩
      · intro cause
        exact ⟨fun h => (nomatch h),
          fun ⟨_, _, hother, hmisstated, _⟩ => absurd (hsame hother ▸ hmisstated.1.open) hshut⟩
      · exact Or.inl rfl
  | @waits resource delay hstored hwaits =>
      have hsame : ∀ {other : At}, shelf.at? key = some other → other = resource :=
        fun hother => Option.some.inj (hother.symm.trans hstored)
      apply obeys_of_idle
      · intro other hother hdue
        obtain rfl := hsame hother
        exact hdue.not_waitsFor delay hwaits
      · intro other
        constructor
        · intro hother
          cases hother
          exact ⟨resource, hstored, hwaits⟩
        · rintro ⟨found, hfound, hlater⟩
          obtain rfl := hsame hfound
          rw [hwaits.delay_unique hlater]
      · intro cause
        exact ⟨fun h => (nomatch h), fun ⟨_, fault, hother, hmisstated, _⟩ =>
          absurd (hsame hother ▸ hmisstated) (hwaits.not_misstated fault)⟩
      · exact Or.inr (Or.inl ⟨delay, rfl⟩)
  | @misstated resource fault hstored hmisstated =>
      have hsame : ∀ {other : At}, shelf.at? key = some other → other = resource :=
        fun hother => Option.some.inj (hother.symm.trans hstored)
      apply obeys_of_idle
      · intro other hother hdue
        obtain rfl := hsame hother
        exact hdue.not_misstated fault hmisstated
      · intro delay
        exact ⟨fun h => (nomatch h), fun ⟨_, hother, hwaits⟩ =>
          absurd hmisstated ((hsame hother ▸ hwaits).not_misstated fault)⟩
      · intro cause
        constructor
        · intro hcause
          cases hcause
          exact ⟨resource, fault, hstored, hmisstated, rfl⟩
        · rintro ⟨found, other, hfound, hother, rfl⟩
          obtain rfl := hsame hfound
          rw [hmisstated.fault_unique hother]
      · exact Or.inr (Or.inr ⟨_, rfl⟩)
  | due hstored hdue hats => exact obeys_of_due hstored hdue hats

end Obedience

/-- A pass without a deadline over a client in memory does what the state machine
says, at every moment that UTC has. -/
theorem pass_obeys_state_machine (shelf : Shelf) (key : ObjectKey) {now : DateTime}
    (hnow : InRange now.instant) (readings : Nat → ℚ) :
    let pass := run (Scene.client Shelf.service) (fun _ => now) {} key { state := shelf, readings }
    Obeys shelf key now (callsOf pass.2.transcript) pass.1 := by
  intro pass
  have hpass : pass = _ :=
    runFrom_unhurried Shelf.service (fun _ => now) (.read key) { state := shelf, readings }
  have hcalls : callsOf pass.2.transcript =
      (trace Shelf.service (fun _ => now) (.read key) shelf).1 := by
    rw [hpass]
    exact callsOf_map_called _ _
  rw [hcalls, hpass]
  exact (course_of_trace hnow shelf key).obeys

/-- A new command whose schedule comes just now: its task is created, and the
command is running. -/
theorem pass_obeys_state_machine_of_new_command :
    let now : DateTime := ⟨⟨2024, 1, 1⟩, 0, 0, 0, 0, some 0⟩
    let command : At :=
      { metadata := { name := "a", resourceVersion := "1" }
        spec := ⟨"2024-01-01T00:00:00Z", "echo"⟩ }
    let shelf : Shelf :=
      { bench := { clock := ⟨0, now.instant, [], []⟩ }, ats := [(command.key, command)] }
    let pass := run (Scene.client Shelf.service) (fun _ => now) {} command.key
      { state := shelf, readings := fun _ => (0 : ℚ) }
    InRange now.instant ∧
      Obeys shelf command.key now (callsOf pass.2.transcript) pass.1 ∧
      .createTask command.newTask ∈ callsOf pass.2.transcript ∧
      .updateAtStatus (inPhase command .running) ∈ callsOf pass.2.transcript := by
  intro now command shelf pass
  have hnow : InRange now.instant := by decide
  have hobeys := pass_obeys_state_machine shelf command.key hnow fun _ => 0
  have hunstarted : Unstarted command := Or.inl rfl
  have hdue : Due command now := by
    apply Or.inr
    refine ⟨hunstarted, ?_⟩
    decide +kernel
  have hstored : shelf.at? command.key = some command := by
    simp [Shelf.at?, shelf, Assoc.get?]
  refine ⟨hnow, hobeys, ?_, ?_⟩
  · exact (hobeys.launches _).mpr ⟨command, hstored, hdue, rfl, rfl⟩
  · refine (hobeys.writes _).mpr ⟨command, hstored, hdue, Or.inr ⟨rfl, hunstarted, ?_⟩⟩
    intro task htask
    cases htask

end Pass

end OneShot
