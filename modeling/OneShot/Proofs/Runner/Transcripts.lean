import OneShot.Proofs.Runner.Work

/-!
# Transcripts of runs

A run is watched while it goes on.  Its transcript has the steps that were made,
each with its answer: calls, and processes that were started.  The run goes on
as it would if nobody watched, `runFrom_watched`.
-/

namespace OneShot.Run

open Calendar

variable {σ τ : Type}

/-- A step that was made, and the answer to it. -/
structure Answered where
  action : Action
  answer : action.Answer

namespace Answered

/-- A call that succeeded. -/
def replied (call : Call) (reply : call.Reply) : Answered :=
  ⟨.call call, .ok reply⟩

def started (command : List String) (ending : ProcessEnd) : Answered :=
  ⟨.start command, ending⟩

/-- Whether the step is no call that failed. -/
def gotThrough : Answered → Bool
  | ⟨.call _, .error _⟩ => false
  | _ => true

def stored? : Answered → Option (ObjectKey × TaskStatus)
  | ⟨.call (.updateTaskStatus key status), .ok _⟩ => some (key, status)
  | _ => none

def ending? : Answered → Option ProcessEnd
  | ⟨.start _, ending⟩ => some ending
  | ⟨.call _, _⟩ => none

@[simp] theorem stored?_started (command : List String) (ending : ProcessEnd) :
    (started command ending).stored? = none := rfl

@[simp] theorem ending?_started (command : List String) (ending : ProcessEnd) :
    (started command ending).ending? = some ending := rfl

theorem gotThrough_call {call : Call} {answer : Except Fault call.Reply} :
    gotThrough ⟨.call call, answer⟩ = true ↔ ∃ reply, answer = .ok reply := by
  cases answer with
  | ok reply => simp [gotThrough]
  | error fault => simp [gotThrough]

end Answered

/-- The statuses that were stored, the oldest first. -/
def storedIn (steps : List Answered) : List (ObjectKey × TaskStatus) :=
  steps.filterMap Answered.stored?

def endingsIn (steps : List Answered) : List ProcessEnd :=
  steps.filterMap Answered.ending?

@[simp] theorem storedIn_append (earlier later : List Answered) :
    storedIn (earlier ++ later) = storedIn earlier ++ storedIn later :=
  List.filterMap_append

@[simp] theorem storedIn_starts (command : List String) (endings : List ProcessEnd) :
    storedIn (endings.map (Answered.started command)) = [] := by
  simp [storedIn]

@[simp] theorem endingsIn_append (earlier later : List Answered) :
    endingsIn (earlier ++ later) = endingsIn earlier ++ endingsIn later :=
  List.filterMap_append

@[simp] theorem endingsIn_starts (command : List String) (endings : List ProcessEnd) :
    endingsIn (endings.map (Answered.started command)) = endings := by
  simp [endingsIn, List.filterMap_map, Function.comp_def]

structure Watched (σ : Type) where
  state : σ
  steps : List Answered := []

namespace Watched

def client (client : Client σ τ) : Client (Watched σ) τ := fun call patience watched =>
  let (answer, state) := client call patience watched.state
  (answer, { state, steps := watched.steps ++ [⟨.call call, answer⟩] })

def launcher (launch : Launcher σ) : Launcher (Watched σ) := fun command watched =>
  let (ending, state) := launch command watched.state
  (ending, { state, steps := watched.steps ++ [⟨.start command, ending⟩] })

end Watched

theorem perform_watched (client : Client σ τ) (launch : Launcher σ) (action : Action)
    (watched : Watched σ) :
    perform (Watched.client client) (Watched.launcher launch) action watched =
      ((perform client launch action watched.state).1,
        { state := (perform client launch action watched.state).2
          steps := watched.steps ++ [⟨action, (perform client launch action watched.state).1⟩] }) := by
  cases action <;> rfl

/-- The steps of a run from a stage on, the oldest first. -/
def transcriptFrom (client : Client σ τ) (launch : Launcher σ) (maxAttempts : Nat) (stage : Stage)
    (state : σ) : List Answered :=
  (runFrom (Watched.client client) (Watched.launcher launch) maxAttempts stage { state }).2.steps

def transcript (client : Client σ τ) (launch : Launcher σ) (maxAttempts : Nat) (key : ObjectKey)
    (state : σ) : List Answered :=
  transcriptFrom client launch maxAttempts (.read key) state

/-- A run that is watched ends as it would unwatched, and notes its transcript. -/
theorem runFrom_watched (client : Client σ τ) (launch : Launcher σ) (maxAttempts : Nat)
    (stage : Stage) (watched : Watched σ) :
    runFrom (Watched.client client) (Watched.launcher launch) maxAttempts stage watched =
      ((runFrom client launch maxAttempts stage watched.state).1,
        { state := (runFrom client launch maxAttempts stage watched.state).2
          steps := watched.steps ++
            transcriptFrom client launch maxAttempts stage watched.state }) := by
  rw [transcriptFrom, runFrom_eq client, runFrom_eq (Watched.client client) _ _ _ watched,
    runFrom_eq (Watched.client client) _ _ _ { state := watched.state }]
  simp only [perform_watched]
  cases hnext : stage.next maxAttempts (perform client launch stage.action watched.state).1 with
  | goOn following =>
      have hheight := Stage.next_height hnext
      -- The rest of the run is watched from one more step on, in the run itself and in the
      -- run that its transcript is taken from.
      simp only
      rw [runFrom_watched client launch maxAttempts following,
        runFrom_watched client launch maxAttempts following]
      simp only [List.nil_append, List.append_assoc]
  | finished phase => rfl
  | failed fault => rfl
termination_by stage.height maxAttempts

section Steps

variable {client : Client σ τ} {launch : Launcher σ} {maxAttempts : Nat}
  {stage following : Stage} {state : σ}

theorem transcriptFrom_eq (client : Client σ τ) (launch : Launcher σ) (maxAttempts : Nat)
    (stage : Stage) (state : σ) :
    transcriptFrom client launch maxAttempts stage state =
      ⟨stage.action, (perform client launch stage.action state).1⟩ ::
        match stage.next maxAttempts (perform client launch stage.action state).1 with
        | .goOn following =>
            transcriptFrom client launch maxAttempts following
              (perform client launch stage.action state).2
        | .finished _ | .failed _ => [] := by
  rw [transcriptFrom, runFrom_eq]
  simp only [perform_watched]
  cases stage.next maxAttempts (perform client launch stage.action state).1 with
  | goOn following =>
      simp only
      rw [runFrom_watched]
      rfl
  | finished phase => rfl
  | failed fault => rfl

section Performed

variable {answer : stage.action.Answer} {after : σ}
  (hperform : perform client launch stage.action state = (answer, after))
include hperform

theorem transcriptFrom_of_goOn (hgo : stage.next maxAttempts answer = .goOn following) :
    transcriptFrom client launch maxAttempts stage state =
      ⟨stage.action, answer⟩ :: transcriptFrom client launch maxAttempts following after := by
  rw [transcriptFrom_eq, hperform, hgo]

theorem transcriptFrom_of_failed {fault : Fault}
    (hfailed : stage.next maxAttempts answer = .failed fault) :
    transcriptFrom client launch maxAttempts stage state = [⟨stage.action, answer⟩] := by
  rw [transcriptFrom_eq, hperform, hfailed]

theorem runFrom_of_goOn (hgo : stage.next maxAttempts answer = .goOn following) :
    runFrom client launch maxAttempts stage state =
      runFrom client launch maxAttempts following after := by
  rw [runFrom_eq, hperform, hgo]

end Performed

theorem gotThrough_first
    (hcalls : ∀ step ∈ transcriptFrom client launch maxAttempts stage state,
      step.gotThrough = true) :
    Answered.gotThrough ⟨stage.action, (perform client launch stage.action state).1⟩ = true := by
  rw [transcriptFrom_eq] at hcalls
  exact hcalls _ List.mem_cons_self

end Steps

/-! ## A store of one's own -/

/-- The client works on a store that nothing else writes to, the processes of the run
included. -/
structure Alone (now : DateTime) (view : σ → Store) (client : Client σ τ)
    (launch : Launcher σ) : Prop where
  answer : ∀ call state,
    (client call .unstated state).1 = ((view state).serve now call).answer
  store : ∀ call state,
    view (client call .unstated state).2 = ((view state).serve now call).store
  launch : ∀ command state, view (launch command state).2 = view state

section Alone

variable {now : DateTime} {view : σ → Store} {client : Client σ τ} {launch : Launcher σ}

theorem Alone.write (halone : Alone now view client launch) {key : ObjectKey} {task : Task}
    {state : σ} (hread : (view state).getTask key = .ok task) (status : TaskStatus) :
    Answered.gotThrough ⟨.call (.updateTaskStatus key status),
        (client (.updateTaskStatus key status) .unstated state).1⟩ = true ∧
      ∃ updated, (view (client (.updateTaskStatus key status) .unstated state).2).getTask key =
        .ok updated := by
  obtain ⟨updated, hanswer, hafter⟩ := Store.updateTaskStatus_of_getTask hread status
  constructor
  · exact Answered.gotThrough_call.mpr ⟨updated, (halone.answer _ state).trans hanswer⟩
  · refine ⟨updated, ?_⟩
    rw [halone.store]
    exact hafter

theorem Alone.step (halone : Alone now view client launch) {stage : Stage} {task : Task}
    {state : σ} (hread : (view state).getTask stage.key = .ok task) :
    Answered.gotThrough ⟨stage.action, (perform client launch stage.action state).1⟩ = true ∧
      ∃ later, (view (perform client launch stage.action state).2).getTask stage.key =
        .ok later := by
  cases stage with
  | read key =>
      constructor
      · exact Answered.gotThrough_call.mpr ⟨task, (halone.answer (.getTask key) state).trans hread⟩
      · exact ⟨task, (congrArg (Store.getTask · key) (halone.store (.getTask key) state)).trans
          hread⟩
  | mark key found => exact halone.write hread { phase := .running }
  | attempt key found further =>
      exact ⟨rfl, task, (congrArg (Store.getTask · key) (halone.launch _ state)).trans hread⟩
  | report key status => exact halone.write hread status

/-- No call of a run fails on a store that has its task. -/
theorem Alone.gotThrough (halone : Alone now view client launch) (maxAttempts : Nat)
    (stage : Stage) (state : σ) {task : Task}
    (hread : (view state).getTask stage.key = .ok task) :
    ∀ step ∈ transcriptFrom client launch maxAttempts stage state, step.gotThrough = true := by
  obtain ⟨hfirst, later, hlater⟩ := halone.step hread
  rw [transcriptFrom_eq]
  refine List.forall_mem_cons.mpr ⟨hfirst, ?_⟩
  split
  next following hgo =>
    have hheight := Stage.next_height hgo
    rw [← Stage.next_key hgo] at hlater
    exact halone.gotThrough maxAttempts following _ hlater
  next => exact List.forall_mem_nil _
  next => exact List.forall_mem_nil _
termination_by stage.height maxAttempts

end Alone

/-- A store answers the calls of its only client. -/
def ownStore (now : DateTime) : Client Store Unit := fun call _ store =>
  ((store.serve now call).answer, (store.serve now call).store)

/-! ## Scripts of outcomes -/

section Script

/-- A client beside a count that it leaves alone. -/
def beside (client : Client σ τ) : Client (σ × Nat) τ := fun call patience state =>
  let (answer, after) := client call patience state.1
  (answer, after, state.2)

/-- The processes end as a script says, one after the other, whatever else they do. -/
def scripted (script : Nat → ProcessEnd) (effect : List String → σ → σ) : Launcher (σ × Nat) :=
  fun command state => (script state.2, effect command state.1, state.2 + 1)

variable (client : Client σ τ) (script : Nat → ProcessEnd) (effect : List String → σ → σ)

theorem endingsIn_scripted_cons (action : Action) (state : σ × Nat) :
    ∃ begun,
      (perform (beside client) (scripted script effect) action state).2.2 = state.2 + begun ∧
      ∀ rest, endingsIn
          (⟨action, (perform (beside client) (scripted script effect) action state).1⟩ :: rest) =
        ((List.range begun).map fun index => script (state.2 + index)) ++ endingsIn rest := by
  cases action with
  | call call => exact ⟨0, rfl, fun _ => rfl⟩
  | start command => exact ⟨1, rfl, fun _ => rfl⟩

/-- The processes of a run end as the script says, from where it had come to. -/
theorem endingsIn_scripted (maxAttempts : Nat) (stage : Stage) (state : σ × Nat) :
    ∃ count,
      endingsIn (transcriptFrom (beside client) (scripted script effect) maxAttempts stage state) =
        (List.range count).map fun index => script (state.2 + index) := by
  obtain ⟨begun, hbegun, hfirst⟩ :=
    endingsIn_scripted_cons client script effect stage.action state
  rw [transcriptFrom_eq, hfirst]
  split
  next following hgo =>
    have hheight := Stage.next_height hgo
    obtain ⟨count, hcount⟩ := endingsIn_scripted maxAttempts following
      (perform (beside client) (scripted script effect) stage.action state).2
    -- The rest of the run goes on with the script where the step has left it.
    refine ⟨begun + count, ?_⟩
    rw [hcount, hbegun, List.range_add, List.map_append, List.map_map]
    simp only [Function.comp_def, Nat.add_assoc]
  next => exact ⟨begun, List.append_nil _⟩
  next => exact ⟨begun, List.append_nil _⟩
termination_by stage.height maxAttempts

end Script

theorem alone_scripted (now : DateTime) (script : Nat → ProcessEnd) :
    Alone now Prod.fst (beside (ownStore now)) (scripted script fun _ store => store) :=
  ⟨fun _ _ => rfl, fun _ _ => rfl, fun _ _ => rfl⟩

end OneShot.Run
