import OneShot.Proofs.Reconcile.Attempts
import OneShot.Proofs.Store.Announcements
import OneShot.Simulation.Dispatcher

/-!
# What a worker knows

A worker takes a key, makes a pass over it call by call, settles what came of
the pass, and gives the key back.  At every moment in between, unless the key
is flagged for another pass, what the worker has learned about the command
still holds of the store.  One lemma for each stage says that the next answer
keeps this, or that the call itself has told of a change.
-/

namespace OneShot

open Calendar

variable {τ : Type}

/-- What a worker is at. -/
inductive Post (τ : Type) where
  | idle
  | passing (key : ObjectKey) (deadline : Deadline τ) (stage : Pass.Stage)
  /-- The pass is over, and its outcome has yet to be settled. -/
  | settling (key : ObjectKey) (outcome : PassOutcome τ)
  /-- The outcome is settled, and the key has yet to be given back. -/
  | leaving (key : ObjectKey)

def Post.key? : Post τ → Option ObjectKey
  | idle => none
  | passing key _ _ | settling key _ | leaving key => some key

/-! ## Outcomes -/

/-- What came of a pass; a follow-up is asked for in the unit of the queue. -/
def Pass.outcome (seconds : Int → τ) : Except Fault Pass.Result → PassOutcome τ
  | .ok result => .finished ((result.requeueAfter.filter (0 < ·)).map seconds)
  | .error fault => if fault.isConflict then .conflict else .failed

/-- The workers of a world classify what came of their passes in this way. -/
theorem Pass.outcome_eq (answer : Except Fault Pass.Result) :
    Pass.outcome secondsOfMicros answer =
      match answer with
      | .ok result => Simulation.outcomeOfDelay result.requeueAfter
      | .error fault => Simulation.outcomeOfFault fault := by
  cases answer with
  | error fault => rfl
  | ok result =>
      obtain ⟨followUp⟩ := result
      cases followUp with
      | none => rfl
      | some micros =>
          by_cases hlater : 0 < micros
          · simp [outcome, Simulation.outcomeOfDelay, hlater]
          · simp only [outcome, Simulation.outcomeOfDelay, Option.filter_some, hlater,
              decide_false, Bool.false_eq_true, if_false, Option.map_none]

def Post.after (seconds : Int → τ) (key : ObjectKey) (deadline : Deadline τ) :
    Pass.Progress → Post τ
  | .goOn following => .passing key deadline following
  | .finished result => .settling key (Pass.outcome seconds (.ok result))
  | .failed fault => .settling key (Pass.outcome seconds (.error fault))

@[simp] theorem Post.key?_after (seconds : Int → τ) (key : ObjectKey) (deadline : Deadline τ)
    (progress : Pass.Progress) : (Post.after seconds key deadline progress).key? = some key := by
  cases progress <;> rfl

/-! ## Faults that tell the truth -/

/-- A fault does not pretend that an object is missing, or that it is there
already, where the pass would leave the command at that. -/
def Pass.Stage.bears (store : Store) : Pass.Stage → Fault → Bool
  | .read key, fault => !fault.isNotFound || (store.atRow? key).isNone
  | .findTask resource, fault =>
      !fault.isNotFound || resource.phase != AtPhase.running.text ||
        (store.taskRow? resource.taskKey).isNone
  | .launch resource, fault =>
      !fault.isAlreadyExists || resource.phase != AtPhase.running.text ||
        (store.taskRow? resource.taskKey).isSome
  | .store _ _, _ => true

/-- Whatever goes wrong with the call of a stage, its fault tells the truth
about what the call leaves behind. -/
def Pass.Stage.honest (store : Store) (now : DateTime) (stage : Pass.Stage) (mishap : Mishap) :
    Bool :=
  match mishap with
  | .nothing => true
  | .unsent fault | .unheard fault =>
      stage.bears (store.attempt now stage.call mishap).store fault

/-! ## What holds of a post -/

/-- The row of a command, if it is still there, is in the phase of a copy. -/
def Store.InPhaseOf (store : Store) (resource : At) : Prop :=
  ∀ row, store.atRow? resource.key = some row → row.phase = resource.phase

/-- What a pass over a key has learned before the call of a stage. -/
def Pass.Stage.Sound (store : Store) (key : ObjectKey) : Pass.Stage → Prop
  | .read found => found = key
  | .findTask resource => resource.key = key ∧ store.InPhaseOf resource
  | .launch resource =>
      resource.key = key ∧ store.InPhaseOf resource ∧
        (resource.phase = AtPhase.running.text → store.taskRow? key.forTask = none)
  | .store resource _ => resource.key = key

/-- What a worker knows: the pass knows its part, and once it is over without
a wish for another one, the command needs no work. -/
def Post.Sound (store : Store) : Post τ → Prop
  | idle => True
  | passing key _ stage => stage.Sound store key
  | settling key (.finished none) => ¬ store.NeedsWork key
  | settling _ _ => True
  | leaving key => ¬ store.NeedsWork key

variable {before after store : Store} {key : ObjectKey}

theorem Store.InPhaseOf.of_undisturbed {resource : At} (hphase : before.InPhaseOf resource)
    (hsame : Store.Undisturbed before after resource.key) : after.InPhaseOf resource := by
  intro row hrow
  rcases hsame.command with heq | hnone
  · exact hphase row (heq ▸ hrow)
  · rw [hnone] at hrow
    cases hrow

theorem Post.Sound.of_undisturbed {post : Post τ} (hsound : post.Sound before)
    (hkey : post.key? = some key) (hsame : Store.Undisturbed before after key) :
    post.Sound after := by
  cases post with
  | idle => trivial
  | passing held deadline stage =>
      cases hkey
      cases stage with
      | read found => exact hsound
      | findTask resource =>
          obtain ⟨rfl, hphase⟩ := hsound
          exact ⟨rfl, hphase.of_undisturbed hsame⟩
      | launch resource =>
          obtain ⟨rfl, hphase, hnone⟩ := hsound
          exact ⟨rfl, hphase.of_undisturbed hsame,
            fun hrunning => hsame.task.trans (hnone hrunning)⟩
      | store resource reached => exact hsound
  | settling held outcome =>
      cases hkey
      cases outcome with
      | finished followUp =>
          cases followUp with
          | none => exact fun hneeds => hsound (hneeds.of_undisturbed hsame)
          | some delay => trivial
      | conflict => trivial
      | failed => trivial
  | leaving held =>
      cases hkey
      exact fun hneeds => hsound (hneeds.of_undisturbed hsame)

theorem Post.sound_failed (store : Store) (seconds : Int → τ) (key : ObjectKey)
    (deadline : Deadline τ) (fault : Fault) :
    (Post.after seconds key deadline (.failed fault)).Sound store := by
  simp only [Post.after, Pass.outcome]
  split <;> trivial

/-! ## What the next answer leaves of it -/

section Answers

variable {now : DateTime} {resource : At} (seconds : Int → τ) (deadline : Deadline τ)

/-- A pass that ends by storing a phase ends without it only where the command
is in that phase already. -/
theorem Post.sound_reach {reached : AtPhase} (hkey : resource.key = key)
    (hstay : reached.text = Pass.startPhase resource.phase → ¬ store.NeedsWork key) :
    (Post.after seconds key deadline (Pass.reach resource reached)).Sound store := by
  unfold Pass.reach
  split
  next hsame => exact hstay hsame
  next =>
    split
    next => exact hkey
    next fault _ => exact sound_failed store seconds key deadline fault

theorem Post.sound_waitOrLaunch (hkey : resource.key = key) (hphase : store.InPhaseOf resource) :
    (Post.after seconds key deadline (Pass.waitOrLaunch resource now)).Sound store := by
  unfold Pass.waitOrLaunch
  split
  next => exact sound_failed store seconds key deadline _
  next => exact sound_failed store seconds key deadline _
  next delay _ =>
    split
    next hlater =>
      simp only [Post.after, Pass.outcome, Option.filter_some, hlater, decide_true, if_true,
        Option.map_some]
      trivial
    next => exact ⟨hkey, hphase⟩

theorem Store.not_needsWork_of_phase (hphase : store.InPhaseOf resource)
    (hsettled : AtPhase.ofText? resource.phase = some .done ∨
      AtPhase.ofText? resource.phase = none) : ¬ store.NeedsWork resource.key := by
  rintro ⟨row, hrow, hneeds⟩
  rw [hphase row hrow] at hneeds
  rcases hsettled with h | h <;> simp [h] at hneeds

theorem Store.not_needsWork_of_missing (hnone : store.atRow? key = none) :
    ¬ store.NeedsWork key := by
  rintro ⟨row, hrow, -⟩
  rw [hnone] at hrow
  cases hrow

theorem Store.inPhaseOf_of_getAt (hread : store.getAt key = .ok resource) :
    resource.key = key ∧ store.InPhaseOf resource := by
  obtain ⟨row, hrow, hshows⟩ := getAt_eq_ok hread
  have hkey : resource.key = key := hshows.key.trans (key_of_atRow? hrow)
  refine ⟨hkey, fun found hfound => ?_⟩
  rw [hkey, hrow, Option.some.injEq] at hfound
  rw [← hfound, hshows.phase]

theorem Post.sound_afterRead {answer : Except Fault At}
    (hok : ∀ resource, answer = .ok resource → store.getAt key = .ok resource)
    (hmissing : ∀ fault, answer = .error fault → fault.isNotFound = true →
      store.atRow? key = none) :
    (Post.after seconds key deadline (Pass.afterRead now answer)).Sound store := by
  cases answer with
  | error fault =>
      simp only [Pass.afterRead]
      split
      next hgone => exact Store.not_needsWork_of_missing (hmissing fault rfl hgone)
      next => exact sound_failed store seconds key deadline fault
  | ok resource =>
      obtain ⟨rfl, hphase⟩ := Store.inPhaseOf_of_getAt (hok resource rfl)
      simp only [Pass.afterRead]
      split
      next => exact sound_waitOrLaunch seconds deadline rfl hphase
      next => exact sound_waitOrLaunch seconds deadline rfl hphase
      next => exact ⟨rfl, hphase⟩
      next hdone => exact Store.not_needsWork_of_phase hphase (Or.inl hdone)
      next hunknown => exact Store.not_needsWork_of_phase hphase (Or.inr hunknown)

theorem Store.not_needsWork_of_running {task : Task} (hphase : store.InPhaseOf resource)
    (hrunning : resource.phase = AtPhase.running.text)
    (htask : store.getTask resource.taskKey = .ok task)
    (hgoes : task.status.phase.isTerminal = false) : ¬ store.NeedsWork resource.key := by
  rintro ⟨row, hrow, hneeds⟩
  rw [hphase row hrow, hrunning, AtPhase.ofText?_text] at hneeds
  obtain ⟨taskRow, htaskRow, hshows⟩ := getTask_eq_ok htask
  rcases hneeds with h | h | ⟨-, hended⟩
  · cases h
  · cases h
  · have hterminal := hended taskRow htaskRow
    rw [← hshows.phase, hgoes] at hterminal
    cases hterminal

theorem Pass.eq_text_of_startPhase {stored : String} {reached : AtPhase}
    (hreached : reached ≠ .pending) (h : reached.text = startPhase stored) :
    stored = reached.text := by
  unfold startPhase at h
  split at h
  next => exact absurd (AtPhase.text_inj h) hreached
  next => exact h.symm

theorem Post.sound_afterFindTask (hkey : resource.key = key) (hphase : store.InPhaseOf resource)
    {answer : Except Fault Task}
    (hok : ∀ task, answer = .ok task → store.getTask resource.taskKey = .ok task)
    (hmissing : ∀ fault, answer = .error fault → fault.isNotFound = true →
      resource.phase = AtPhase.running.text → store.taskRow? resource.taskKey = none) :
    (Post.after seconds key deadline (Pass.afterFindTask resource answer)).Sound store := by
  subst hkey
  cases answer with
  | error fault =>
      simp only [Pass.afterFindTask]
      split
      next hgone => exact ⟨rfl, hphase, hmissing fault rfl hgone⟩
      next => exact sound_failed store seconds resource.key deadline fault
  | ok task =>
      simp only [Pass.afterFindTask]
      split
      next =>
        refine sound_reach seconds deadline rfl fun hsame => ?_
        have hdone := Pass.eq_text_of_startPhase (by decide) hsame
        refine Store.not_needsWork_of_phase hphase (Or.inl ?_)
        rw [hdone, AtPhase.ofText?_text]
      next hgoes =>
        refine sound_reach seconds deadline rfl fun hsame => ?_
        have hrunning := Pass.eq_text_of_startPhase (by decide) hsame
        exact Store.not_needsWork_of_running hphase hrunning (hok task rfl)
          (by simpa using hgoes)

/-- A task that turns out to be there already takes a command on that has not
been started. -/
theorem Post.sound_afterLaunch {fault : Fault}
    (hexists : fault.isAlreadyExists = true → resource.phase ≠ AtPhase.running.text) :
    (Post.after seconds resource.key deadline
      (Pass.afterLaunch resource (.error fault))).Sound store := by
  simp only [Pass.afterLaunch]
  split
  next hthere =>
    refine sound_reach seconds deadline rfl fun hsame => ?_
    exact absurd (Pass.eq_text_of_startPhase (by decide) hsame) (hexists hthere)
  next => exact sound_failed store seconds resource.key deadline fault

end Answers

/-! ## What the call of a stage leaves of it -/

section Calls

variable {now : DateTime} {stage : Pass.Stage} {mishap : Mishap}

theorem Pass.Stage.error_of_honest (hhonest : stage.honest store now mishap = true) {fault : Fault}
    (hanswer : (store.attempt now stage.call mishap).answer = .error fault) :
    (store.serve now stage.call).answer = .error fault ∨
      stage.bears (store.attempt now stage.call mishap).store fault = true := by
  cases mishap with
  | nothing => exact Or.inl hanswer
  | unsent other =>
      cases hanswer
      exact Or.inr hhonest
  | unheard other =>
      cases hanswer
      exact Or.inr hhonest

theorem Store.attempt_store_of_reads {call : Call} (hreads : call.reads = true)
    (store : Store) (now : DateTime) (mishap : Mishap) :
    (store.attempt now call mishap).store = store := by
  cases call with
  | getAt key | getTask key => cases mishap <;> rfl
  | listAts ns | listTasks ns => cases mishap <;> rfl
  | _ => cases hreads

theorem Store.attempt_told (hgood : store.Orderly) {call : Call} (hderives : call.Derives)
    (now : DateTime) (mishap : Mishap) (key : ObjectKey) :
    (∃ event ∈ (store.attempt now call mishap).events, key ∈ event.affected) ∨
      Store.Undisturbed store (store.attempt now call mishap).store key := by
  rcases store.attempt_cases now call mishap with ⟨fault, -, hquiet⟩ | ⟨-, hstore, hevents⟩
  · exact Or.inr (Store.undisturbed_of_quiet hquiet key)
  · rw [hstore, hevents]
    exact (store.serve_change now call).told hgood hderives key

theorem Store.attempt_orderly (hgood : store.Orderly) {call : Call} (hderives : call.Derives)
    (now : DateTime) (mishap : Mishap) : (store.attempt now call mishap).store.Orderly := by
  rcases store.attempt_cases now call mishap with ⟨fault, -, hquiet⟩ | ⟨-, hstore, -⟩
  · exact ⟨hquiet.ats ▸ hgood.keyed, hquiet.tasks ▸ hgood.made⟩
  · rw [hstore]
    exact (store.serve_change now call).orderly hgood hderives

theorem Store.told_of_updateAtStatus {resource updated : At}
    (hdone : (store.updateAtStatus resource).answer = .ok updated) :
    ∃ event ∈ (store.updateAtStatus resource).events, resource.key ∈ event.affected := by
  have hchange := store.updateAtStatus_change resource
  generalize store.updateAtStatus resource = effect at *
  cases hchange with
  | refused _ hanswer =>
      rw [hdone] at hanswer
      cases hanswer
  | read _ hreads => cases hreads
  | moveAt hrow hversion hkey hstore hanswer hevents =>
      rw [hevents, ← hkey]
      exact ⟨_, List.mem_cons_self, mem_affected_atEvent .modified _⟩

theorem Store.told_of_createTask {resource : At} {created : Task}
    (hdone : (store.createTask now resource.newTask).answer = .ok created) :
    ∃ event ∈ (store.createTask now resource.newTask).events, resource.key ∈ event.affected := by
  have hchange := store.createTask_change now resource.newTask
  generalize store.createTask now resource.newTask = effect at *
  cases hchange with
  | refused _ hanswer =>
      rw [hdone] at hanswer
      cases hanswer
  | read _ hreads => cases hreads
  | addTask hfree hkey howned hshows hats htasks hanswer hevents =>
      rw [hevents]
      exact ⟨_, List.mem_cons_self,
        (TaskRow.madeFor_of_ownedAs hkey howned).affected hshows .added⟩

/-- The call of a stage tells of a change of the command, or what the worker
knows afterwards holds. -/
theorem Pass.Stage.Sound.afterAttempt (hsound : stage.Sound store key) (hgood : store.Orderly)
    (hhonest : stage.honest store now mishap = true) (seconds : Int → τ)
    (deadline : Deadline τ) :
    (∃ event ∈ (store.attempt now stage.call mishap).events, key ∈ event.affected) ∨
      (Post.after seconds key deadline
        (stage.next now (store.attempt now stage.call mishap).answer)).Sound
        (store.attempt now stage.call mishap).store := by
  cases stage with
  | read found =>
      cases hsound
      right
      rw [Store.attempt_store_of_reads rfl]
      refine Post.sound_afterRead seconds deadline
        (fun resource h => (store.attempt_eq_ok now (.getAt key) mishap h).2)
        fun fault h hgone => ?_
      rcases error_of_honest hhonest h with hserved | hbears
      · exact Store.atRow?_of_getAt_isNotFound hserved hgone
      · rw [Store.attempt_store_of_reads rfl] at hbears
        simpa [bears, hgone] using hbears
  | findTask resource =>
      obtain ⟨rfl, hphase⟩ := hsound
      right
      rw [Store.attempt_store_of_reads rfl]
      refine Post.sound_afterFindTask seconds deadline rfl hphase
        (fun task h => (store.attempt_eq_ok now (.getTask resource.taskKey) mishap h).2)
        fun fault h hgone hrunning => ?_
      rcases error_of_honest hhonest h with hserved | hbears
      · exact Store.taskRow?_of_getTask_isNotFound hserved hgone
      · rw [Store.attempt_store_of_reads rfl] at hbears
        simpa [bears, hgone, hrunning] using hbears
  | launch resource =>
      obtain ⟨rfl, hphase, hnone⟩ := hsound
      have hderives : (launch resource).call.Derives := ⟨resource, rfl⟩
      cases hanswer : (store.attempt now (launch resource).call mishap).answer with
      | ok task =>
          obtain ⟨rfl, hserved⟩ := store.attempt_eq_ok now (launch resource).call mishap hanswer
          exact Or.inl (Store.told_of_createTask hserved)
      | error fault =>
          rcases Store.attempt_told hgood hderives now mishap resource.key with htold | hsame
          · exact Or.inl htold
          · right
            refine Post.sound_afterLaunch seconds deadline fun hexists hrunning => ?_
            rcases error_of_honest hhonest hanswer with hserved | hbears
            · have htaken := store.taskRow?_of_createTask_isAlreadyExists now hserved hexists
              exact Option.isSome_iff_ne_none.mp htaken (hnone hrunning)
            · have htaken : ((store.attempt now (launch resource).call mishap).store.taskRow?
                  resource.taskKey).isSome = true := by
                simpa [bears, hexists, hrunning] using hbears
              exact Option.isSome_iff_ne_none.mp htaken (hsame.task.trans (hnone hrunning))
  | store resource reached =>
      cases hsound
      cases hanswer :
          (store.attempt now (Pass.Stage.store resource reached).call mishap).answer with
      | error fault => exact Or.inr (Post.sound_failed _ seconds resource.key deadline fault)
      | ok updated =>
          obtain ⟨rfl, hserved⟩ :=
            store.attempt_eq_ok now (Pass.Stage.store resource reached).call mishap hanswer
          left
          exact Store.told_of_updateAtStatus hserved

end Calls

end OneShot
