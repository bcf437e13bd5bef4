import OneShot.Proofs.Runner.History
import OneShot.Proofs.Runner.Transcripts
import OneShot.Runner.Programs

/-!
# Attempts of a run

The command of a task is started until it succeeds, cannot be started, or has
failed as often as it may.  A run whose calls succeed therefore has a transcript
of one form, `Attempted`: failed attempts, the last attempt, and the report of
the outcome that the last attempt gives, if it gives one.

A start that fails in a way that nobody foresaw gives none.  The run ends there,
and the task that it has marked as running stays so.
-/

namespace OneShot.Run

open Calendar Answered

/-! ## Attempts from a stage on -/

/-- The steps of some attempts and what follows them, and how the run ends: attempts
that failed, as many as may be, and a last one. -/
structure Attempted (key : ObjectKey) (task : Task) (further : Nat) (failed : List ProcessEnd)
    (last : ProcessEnd) (steps : List Answered) (ended : Except Fault (Option TaskPhase)) :
    Prop where
  failures : ∀ ending ∈ failed, ending.Failed
  limited : failed.length ≤ further
  exhausted : last.Failed → failed.length = further
  concluded :
    (∃ status stored, last.status? = some status ∧ ended = .ok (some status.phase) ∧
      steps = (failed ++ [last]).map (started task.container.command) ++
        [replied (.updateTaskStatus key status) stored]) ∨
    ∃ fault, last = .crashed fault ∧ ended = .error fault ∧
      steps = (failed ++ [last]).map (started task.container.command)

section Course

variable {σ τ : Type} {client : Client σ τ} {launch : Launcher σ} {maxAttempts further : Nat}
  {key : ObjectKey} {task : Task} {status : TaskStatus} {state : σ}
  {steps : List Answered} {failed : List ProcessEnd} {last ending : ProcessEnd}
  {ended : Except Fault (Option TaskPhase)}

theorem Attempted.again (hattempted : Attempted key task further failed last steps ended)
    (hending : ending.Failed) :
    Attempted key task (further + 1) (ending :: failed) last
      (started task.container.command ending :: steps) ended where
  failures := List.forall_mem_cons.mpr ⟨hending, hattempted.failures⟩
  limited := Nat.succ_le_succ hattempted.limited
  exhausted := fun hlast => congrArg Nat.succ (hattempted.exhausted hlast)
  concluded := by
    rcases hattempted.concluded with
      ⟨status, stored, hstatus, hended, rfl⟩ | ⟨fault, hfault, hended, rfl⟩
    · exact Or.inl ⟨status, stored, hstatus, hended, rfl⟩
    · exact Or.inr ⟨fault, hfault, hended, rfl⟩

theorem report_of_gotThrough
    (hcalls : ∀ step ∈ transcriptFrom client launch maxAttempts (.report key status) state,
      step.gotThrough = true) :
    ∃ stored,
      transcriptFrom client launch maxAttempts (.report key status) state =
        [replied (.updateTaskStatus key status) stored] ∧
      (runFrom client launch maxAttempts (.report key status) state).1 =
        .ok (some status.phase) := by
  obtain ⟨stored, hstored⟩ := gotThrough_call.mp (gotThrough_first hcalls)
  have hperform : (perform client launch (Stage.report key status).action state).1 =
      .ok stored := hstored
  refine ⟨stored, ?_, ?_⟩
  · rw [transcriptFrom_eq, hperform]
    rfl
  · rw [runFrom_eq, hperform]
    rfl

/-- Attempts are made until one decides, or none may follow. -/
theorem attempted_of_gotThrough (further : Nat) (state : σ)
    (hcalls : ∀ step ∈ transcriptFrom client launch maxAttempts (.attempt key task further) state,
      step.gotThrough = true) :
    ∃ failed last, Attempted key task further failed last
      (transcriptFrom client launch maxAttempts (.attempt key task further) state)
      (runFrom client launch maxAttempts (.attempt key task further) state).1 := by
  -- By recursion on the attempts that may follow: only a failure with some of them left is
  -- not the last attempt.
  let stage : Stage := .attempt key task further
  obtain ⟨ending, after, hperform⟩ :
      ∃ ending after, perform client launch stage.action state = (ending, after) := ⟨_, _, rfl⟩
  rcases afterAttempt_eq key task further ending with
    ⟨left, rfl, hfailed, hagain⟩ | ⟨status, hstatus, hlast, hreport⟩ | ⟨fault, hfault, hcrashed⟩
  · have hgo : stage.next maxAttempts ending = .goOn (.attempt key task left) := hagain
    rw [transcriptFrom_of_goOn hperform hgo] at hcalls ⊢
    rw [runFrom_of_goOn hperform hgo]
    obtain ⟨-, hcalls⟩ := List.forall_mem_cons.mp hcalls
    obtain ⟨failed, last, hattempted⟩ := attempted_of_gotThrough left after hcalls
    exact ⟨ending :: failed, last, hattempted.again hfailed⟩
  · have hgo : stage.next maxAttempts ending = .goOn (.report key status) := hreport
    rw [transcriptFrom_of_goOn hperform hgo] at hcalls ⊢
    rw [runFrom_of_goOn hperform hgo]
    obtain ⟨-, hcalls⟩ := List.forall_mem_cons.mp hcalls
    obtain ⟨stored, hsteps, hended⟩ := report_of_gotThrough hcalls
    rw [hsteps]
    exact ⟨[], ending, List.forall_mem_nil _, Nat.zero_le further, fun h => (hlast h).symm,
      Or.inl ⟨status, stored, hstatus, hended, rfl⟩⟩
  · have hend : stage.next maxAttempts ending = .failed fault := hcrashed
    rw [transcriptFrom_of_failed hperform hend, runFrom_eq, hperform, hend]
    refine ⟨[], ending, List.forall_mem_nil _, Nat.zero_le further, ?_,
      Or.inr ⟨fault, hfault, rfl, rfl⟩⟩
    rintro ⟨code, errors, hcode, hexited⟩
    cases hfault.symm.trans hexited
termination_by further

/-- A run that finds its task waiting reads it, marks it as running, and makes attempts. -/
theorem attempted_of_run (hread : (client (.getTask key) .unstated state).1 = .ok task)
    (hpending : task.status.phase = .pending)
    (hcalls : ∀ step ∈ transcript client launch maxAttempts key state, step.gotThrough = true) :
    ∃ marked steps failed last,
      transcript client launch maxAttempts key state =
        replied (.getTask key) task ::
          replied (.updateTaskStatus key { phase := .running }) marked :: steps ∧
      Attempted key task (attemptsFor task maxAttempts - 1) failed last steps
        (run client launch maxAttempts key state).1 := by
  rw [transcript] at hcalls ⊢
  rw [run]
  obtain ⟨found, hfound⟩ : ∃ after, perform client launch (Stage.read key).action state =
      (.ok task, after) := ⟨_, Prod.ext hread rfl⟩
  have hmark : (Stage.read key).next maxAttempts (.ok task) = .goOn (.mark key task) :=
    if_pos hpending
  rw [transcriptFrom_of_goOn hfound hmark] at hcalls ⊢
  rw [runFrom_of_goOn hfound hmark]
  obtain ⟨-, hcalls⟩ := List.forall_mem_cons.mp hcalls
  obtain ⟨marked, hmarked⟩ := gotThrough_call.mp (gotThrough_first hcalls)
  obtain ⟨after, hafter⟩ : ∃ after, perform client launch (Stage.mark key task).action found =
      (.ok marked, after) := ⟨_, Prod.ext hmarked rfl⟩
  have hattempt : (Stage.mark key task).next maxAttempts (.ok marked) =
      .goOn (.attempt key task (attemptsFor task maxAttempts - 1)) := rfl
  rw [transcriptFrom_of_goOn hafter hattempt] at hcalls ⊢
  rw [runFrom_of_goOn hafter hattempt]
  obtain ⟨-, hcalls⟩ := List.forall_mem_cons.mp hcalls
  obtain ⟨failed, last, hattempted⟩ := attempted_of_gotThrough _ after hcalls
  exact ⟨marked, _, failed, last, rfl, hattempted⟩

theorem Attempted.endingsIn_eq (hattempted : Attempted key task further failed last steps ended) :
    endingsIn steps = failed ++ [last] := by
  rcases hattempted.concluded with ⟨status, stored, -, -, rfl⟩ | ⟨fault, -, -, rfl⟩
  · rw [endingsIn_append, endingsIn_starts]
    exact List.append_nil _
  · exact endingsIn_starts _ _

/-- The only attempt that can crash is the last one. -/
theorem Attempted.crashed_iff (hattempted : Attempted key task further failed last steps ended)
    (fault : Fault) : .crashed fault ∈ endingsIn steps ↔ last = .crashed fault := by
  rw [hattempted.endingsIn_eq, List.mem_append, List.mem_singleton]
  constructor
  · rintro (hmem | hlast)
    · obtain ⟨code, errors, -, heq⟩ := hattempted.failures _ hmem
      cases heq
    · exact hlast.symm
  · intro hlast
    exact Or.inr hlast.symm

end Course

theorem ProcessEnd.isTerminal_of_status? {ending : ProcessEnd} {status : TaskStatus}
    (hstatus : ending.status? = some status) : status.phase.isTerminal = true := by
  cases ending with
  | exited code errors =>
      simp only [ProcessEnd.status?] at hstatus
      split at hstatus <;> cases hstatus <;> rfl
  | notStarted text =>
      cases hstatus
      rfl
  | crashed fault => cases hstatus

/-! ## A task that was marked as running -/

/-- A run whose calls succeed stores an outcome after it has marked its task as running,
unless a start crashes: then the run ends with the fault, and the mark is all that it
has stored. -/
theorem ends_task_unless_crashed {σ τ : Type} (client : Client σ τ) (launch : Launcher σ)
    (maxAttempts : Nat) (key : ObjectKey) (task : Task) (state : σ)
    (hread : (client (.getTask key) .unstated state).1 = .ok task)
    (hpending : task.status.phase = .pending)
    (hcalls : ∀ step ∈ transcript client launch maxAttempts key state, step.gotThrough = true) :
    let steps := transcript client launch maxAttempts key state
    let ended := (run client launch maxAttempts key state).1
    ((∀ fault, .crashed fault ∉ endingsIn steps) →
      ∃ status, status.phase.isTerminal = true ∧
        storedIn steps = [(key, { phase := .running }), (key, status)] ∧
        jobEnd ended = .ok (some status.phase)) ∧
    ∀ fault, .crashed fault ∈ endingsIn steps →
      storedIn steps = [(key, { phase := .running })] ∧ ended = .error fault := by
  intro steps ended
  obtain ⟨marked, rest, failed, last, hsteps, hattempted⟩ :=
    attempted_of_run hread hpending hcalls
  have hendings : endingsIn steps = endingsIn rest := (congrArg endingsIn hsteps).trans rfl
  have hstored : storedIn steps = (key, { phase := .running }) :: storedIn rest :=
    (congrArg storedIn hsteps).trans rfl
  rw [hendings, hstored]
  rcases hattempted.concluded with
    ⟨status, stored, hstatus, hended, hrest⟩ | ⟨fault, hfault, hended, hrest⟩
  · constructor
    · intro _
      refine ⟨status, ProcessEnd.isTerminal_of_status? hstatus, ?_, congrArg jobEnd hended⟩
      rw [hrest, storedIn_append, storedIn_starts]
      rfl
    · intro fault hcrashed
      rw [hattempted.crashed_iff] at hcrashed
      rw [hcrashed] at hstatus
      cases hstatus
  · constructor
    · intro hnone
      exact absurd ((hattempted.crashed_iff fault).mpr hfault) (hnone fault)
    · intro other hcrashed
      rw [hattempted.crashed_iff, hfault] at hcrashed
      cases hcrashed
      rw [hrest, storedIn_starts]
      exact ⟨rfl, hended⟩

/-- A command that fails at first, on a store of its own. -/
theorem ends_task_unless_crashed_at_second_attempt :
    let now : DateTime := ⟨⟨2024, 1, 2⟩, 0, 0, 0, 0, some 0⟩
    let task : Task := { metadata := { name := "a-pod" }, container := ⟨"", "busybox", ["ls"]⟩ }
    let store : Store := { tasks := [task.row "uid-1" now], issued := 1 }
    let script : Nat → ProcessEnd := fun index =>
      if index = 0 then .exited 1 none else .exited 0 none
    let client := beside (ownStore now)
    let launch := scripted script fun _ store => store
    let steps := transcript client launch 3 task.key (store, 0)
    ∃ status, status.phase.isTerminal = true ∧
      storedIn steps = [(task.key, { phase := .running }), (task.key, status)] ∧
      jobEnd (run client launch 3 task.key (store, 0)).1 = .ok (some status.phase) := by
  intro now task store script client launch steps
  have hread : store.getTask task.key = .ok (task.stored "uid-1" now) := by decide +kernel
  have hcalls := (alone_scripted now script).gotThrough 3 (.read task.key) (store, 0) hread
  obtain ⟨hends, -⟩ := ends_task_unless_crashed client launch 3 task.key
    (task.stored "uid-1" now) (store, 0) hread rfl hcalls
  apply hends
  intro fault hcrashed
  obtain ⟨count, hcount⟩ := endingsIn_scripted (ownStore now) script (fun _ store => store) 3
    (.read task.key) (store, 0)
  obtain ⟨index, -, hindex⟩ := List.mem_map.mp (hcount ▸ hcrashed)
  simp only [script] at hindex
  split at hindex <;> cases hindex

/-- An argument with a null character makes the start of a process crash.  The task has
been marked as running by then, and no other status follows. -/
theorem task_left_running_by_null_character :
    ¬ ∀ (maxAttempts : Nat) (key : ObjectKey) (task : Task) (store : Store) (now : DateTime),
      1 ≤ maxAttempts → store.getTask key = .ok task → task.status.phase = .pending →
      let launch : Launcher Store := fun command store => (Programs.launch command, store)
      let steps := transcript (ownStore now) launch maxAttempts key store
      (∀ step ∈ steps, step.gotThrough = true) →
        ∃ status, status.phase.isTerminal = true ∧ (key, status) ∈ storedIn steps := by
  intro hends
  let now : DateTime := ⟨⟨2024, 1, 2⟩, 0, 0, 0, 0, some 0⟩
  let given : Task :=
    { metadata := { name := "a-pod" }
      container := ⟨"", "busybox", ["echo", "a\x00b"]⟩ }
  let task : Task := given.stored "uid-1" now
  let store : Store := { tasks := [given.row "uid-1" now], issued := 1 }
  let marked : Store := (store.updateTaskStatus given.key { phase := .running }).store
  let launch : Launcher Store := fun command store => (Programs.launch command, store)
  have hread : store.getTask given.key = .ok task := by decide +kernel
  obtain ⟨running, hrunning, -⟩ :=
    Store.updateTaskStatus_of_getTask hread { phase := .running }
  have hfound : perform (ownStore now) launch (Stage.read given.key).action store =
      (.ok task, store) := Prod.ext hread rfl
  have hmarked : perform (ownStore now) launch (Stage.mark given.key task).action store =
      (.ok running, marked) := Prod.ext hrunning rfl
  have hlaunch : Programs.launch task.container.command =
      .crashed (.other (.value "embedded null byte")) := by decide +kernel
  have hcrashed : perform (ownStore now) launch
      (Stage.attempt given.key task (attemptsFor task 3 - 1)).action marked =
        (.crashed (.other (.value "embedded null byte")), marked) := Prod.ext hlaunch rfl
  have hstored : storedIn (transcript (ownStore now) launch 3 given.key store) =
      [(given.key, { phase := .running })] := by
    rw [transcript, transcriptFrom_of_goOn hfound rfl, transcriptFrom_of_goOn hmarked rfl,
      transcriptFrom_of_failed hcrashed rfl]
    rfl
  have halone : Alone now id (ownStore now) launch :=
    ⟨fun _ _ => rfl, fun _ _ => rfl, fun _ _ => rfl⟩
  obtain ⟨status, hterminal, hmem⟩ := hends 3 given.key task store now (by decide) hread rfl
    (halone.gotThrough 3 (.read given.key) store hread)
  rw [hstored, List.mem_singleton] at hmem
  cases hmem
  cases hterminal

/-! ## The outcome of the attempts -/

theorem failureMessage_cases (code : Int) (errors : Option String) :
    failureMessage code errors ≠ "" ∧
      (failureMessage code errors = Text.trim (errors.getD "") ∨
        Text.trim (errors.getD "") = "" ∧
          failureMessage code errors = "exit status " ++ Text.intText code) := by
  unfold failureMessage
  simp only
  split
  next hblank => exact ⟨by simp, Or.inr ⟨String.isEmpty_iff.mp hblank, rfl⟩⟩
  next hsaid => exact ⟨by simpa using hsaid, Or.inl rfl⟩

/-- What the end of the last process says of the outcome that is stored. -/
structure ProcessEnd.Yields (ending : ProcessEnd) (status : TaskStatus) : Prop where
  succeeded : status.phase = .succeeded ↔ ∃ errors, ending = .exited 0 errors
  plain : status.phase = .succeeded → status.reason = none ∧ status.message = none
  unstarted : ∀ text,
    status = { phase := .failed, reason := some "StartError", message := some text } ↔
      ending = .notStarted text
  failed : ∀ code errors, code ≠ 0 → ending = .exited code errors →
    ∃ message, message ≠ "" ∧
      status = { phase := .failed, reason := some "Error", message := some message } ∧
      (message = Text.trim (errors.getD "") ∨
        Text.trim (errors.getD "") = "" ∧ message = "exit status " ++ Text.intText code)

theorem ProcessEnd.yields_of_status? {ending : ProcessEnd} {status : TaskStatus}
    (hstatus : ending.status? = some status) : ending.Yields status := by
  cases ending with
  | exited code errors =>
      by_cases hcode : code = 0
      · simp only [status?, if_pos hcode, Option.some.injEq] at hstatus
        subst hstatus hcode
        constructor
        · simp
        · simp
        · simp
        · rintro other said hother heq
          cases heq
          exact absurd rfl hother
      · simp only [status?, if_neg hcode, Option.some.injEq] at hstatus
        subst hstatus
        constructor
        · simp [hcode]
        · simp
        · simp
        · rintro other said hother heq
          cases heq
          obtain ⟨hsaid, hmessage⟩ := failureMessage_cases code errors
          exact ⟨_, hsaid, rfl, hmessage⟩
  | notStarted text =>
      cases hstatus
      constructor
      · simp
      · simp
      · simp
      · rintro code errors hcode heq
        cases heq
  | crashed fault => cases hstatus

/-- The first processes of a script, told apart into the last one and those before. -/
theorem script_of_append {script : Nat → ProcessEnd} {failed : List ProcessEnd}
    {last : ProcessEnd} {count : Nat} (hall : failed ++ [last] = (List.range count).map script) :
    count = failed.length + 1 ∧ failed = (List.range failed.length).map script ∧
      last = script failed.length := by
  have hcount : count = failed.length + 1 := by
    simpa using (congrArg List.length hall).symm
  rw [hcount, List.range_succ, List.map_append] at hall
  obtain ⟨hfailed, hlast⟩ := List.append_inj' hall rfl
  exact ⟨hcount, hfailed, List.singleton_inj.mp hlast⟩

theorem attemptsFor_eq (task : Task) (maxAttempts : Nat) :
    attemptsFor task maxAttempts = if task.restartPolicy = .never then 1 else maxAttempts := by
  unfold attemptsFor
  cases task.restartPolicy <;> rfl

/-- A run whose calls succeed starts its command until the script has it succeed or not
start, or as often as it may be started.  It writes that the task is running, and then
the outcome that the last process gives. -/
theorem attempts_follow_script {σ τ : Type} (client : Client σ τ)
    (effect : List String → σ → σ) (script : Nat → ProcessEnd) (maxAttempts : Nat)
    (key : ObjectKey) (task : Task) (state : σ) (hattempts : 1 ≤ maxAttempts)
    (hread : (client (.getTask key) .unstated state).1 = .ok task)
    (hpending : task.status.phase = .pending)
    (hscript : ∀ index fault, script index ≠ .crashed fault)
    (hcalls : ∀ step ∈
      transcript (beside client) (scripted script effect) maxAttempts key (state, 0),
        step.gotThrough = true) :
    let steps := transcript (beside client) (scripted script effect) maxAttempts key (state, 0)
    let ended := (run (beside client) (scripted script effect) maxAttempts key (state, 0)).1
    let limit := if task.restartPolicy = .never then 1 else maxAttempts
    ∃ last status marked stored,
      last < limit ∧ (∀ index < last, (script index).Failed) ∧
        ((script last).Failed → last + 1 = limit) ∧
      steps = [replied (.getTask key) task,
          replied (.updateTaskStatus key { phase := .running }) marked] ++
        ((List.range (last + 1)).map fun index =>
          started task.container.command (script index)) ++
        [replied (.updateTaskStatus key status) stored] ∧
      (script last).Yields status ∧ ended = .ok (some status.phase) := by
  intro steps ended limit
  have hfound : (beside client (.getTask key) .unstated (state, 0)).1 = .ok task := hread
  obtain ⟨marked, rest, failed, last, hsteps, hattempted⟩ :=
    attempted_of_run hfound hpending hcalls
  obtain ⟨count, hcount⟩ :=
    endingsIn_scripted client script effect maxAttempts (.read key) (state, 0)
  have hendings : failed ++ [last] = (List.range count).map script := by
    rw [← hattempted.endingsIn_eq]
    refine (congrArg endingsIn hsteps).symm.trans (hcount.trans ?_)
    simp only [Nat.zero_add]
  -- These are the first processes of the script, so that their number tells them all.
  obtain ⟨rfl, hfailed, hlast⟩ := script_of_append hendings
  have hlimit : attemptsFor task maxAttempts = limit := attemptsFor_eq task maxAttempts
  have hpositive : 1 ≤ limit := by
    simp only [limit]
    split <;> omega
  have hbound := hattempted.limited
  rw [hlimit] at hbound
  rcases hattempted.concluded with
    ⟨status, stored, hstatus, hended, hrest⟩ | ⟨fault, hfault, -, -⟩
  · refine ⟨failed.length, status, marked, stored, by omega, ?_, ?_, ?_, ?_, hended⟩
    · intro index hindex
      have hmem : script index ∈ failed := by
        rw [hfailed]
        exact List.mem_map_of_mem (List.mem_range.mpr hindex)
      exact hattempted.failures _ hmem
    · intro hagain
      have hspent := hattempted.exhausted (hlast ▸ hagain)
      rw [hlimit] at hspent
      omega
    · rw [hendings, List.map_map] at hrest
      exact hsteps.trans (congrArg (fun rest => [_, _] ++ rest) hrest)
    · rw [← hlast]
      exact ProcessEnd.yields_of_status? hstatus
  · exact absurd (hlast.symm.trans hfault) (hscript _ fault)

/-- A command that fails at first is started twice, with a third attempt to spare. -/
theorem attempts_follow_script_to_second_attempt :
    let now : DateTime := ⟨⟨2024, 1, 2⟩, 0, 0, 0, 0, some 0⟩
    let task : Task := { metadata := { name := "a-pod" }, container := ⟨"", "busybox", ["ls"]⟩ }
    let store : Store := { tasks := [task.row "uid-1" now], issued := 1 }
    let script : Nat → ProcessEnd := fun index =>
      if index = 0 then .exited 2 (some "not yet\n") else .exited 0 none
    let client := beside (ownStore now)
    let launch := scripted script fun _ store => store
    endingsIn (transcript client launch 3 task.key (store, 0)) =
        [.exited 2 (some "not yet\n"), .exited 0 none] ∧
      (run client launch 3 task.key (store, 0)).1 = .ok (some .succeeded) := by
  intro now task store script client launch
  have hread : store.getTask task.key = .ok (task.stored "uid-1" now) := by decide +kernel
  have hscript : ∀ index fault, script index ≠ .crashed fault := by
    intro index fault hcrashed
    simp only [script] at hcrashed
    split at hcrashed <;> cases hcrashed
  have hcalls := (alone_scripted now script).gotThrough 3 (.read task.key) (store, 0) hread
  obtain ⟨last, status, marked, stored, -, hbefore, hagain, hsteps, hyields, hended⟩ :=
    attempts_follow_script (ownStore now) (fun _ store => store) script 3 task.key
      (task.stored "uid-1" now) store (by decide) hread rfl hscript hcalls
  have hfirst : (script 0).Failed := ⟨2, some "not yet\n", by decide, rfl⟩
  have hsecond : ¬ (script 1).Failed := by
    rintro ⟨code, errors, hcode, heq⟩
    cases heq
    exact hcode rfl
  obtain rfl : last = 1 := by
    by_contra hne
    rcases Nat.lt_or_gt_of_ne hne with hlt | hgt
    · obtain rfl : last = 0 := by omega
      exact absurd (hagain hfirst) (by decide)
    · exact hsecond (hbefore 1 hgt)
  constructor
  · rw [hsteps]
    rfl
  · rw [hended, hyields.succeeded.mpr ⟨none, rfl⟩]

end OneShot.Run
