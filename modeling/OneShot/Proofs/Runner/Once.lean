import OneShot.Proofs.Runner.Work

/-!
# Attempts are begun once for a task

A task whose attempts were begun does not wait any more, or it is not stored any
more, and a uid does not come back.  A task that a worker has read and not yet
marked is the only one of its uid at a worker, because the key of a uid stays
the same and no two workers hold jobs for one key.  So the attempts are begun
at most once for each uid, and for tasks only that were read as waiting.
-/

namespace OneShot

open Calendar

/-! ## What is known of the row of a uid -/

namespace Store

/-- The uid was given out, and if a task with it is stored, `P` holds of the row. -/
structure Tracks (store : Store) (uid : String) (P : TaskRow → Prop) : Prop where
  issued : ∃ number ≤ store.issued, uid = uidText number
  row : ∀ row ∈ store.tasks, row.uid = uid → P row

variable {store : Store} {uid : String} {key : ObjectKey} {P : TaskRow → Prop} {task : Task}
  {status : TaskStatus}

theorem taskPhase_moved (row : TaskRow) (status : TaskStatus) :
    (row.moved status).taskPhase = status.phase := by
  unfold TaskRow.taskPhase TaskRow.moved
  rw [TaskPhase.ofText?_text]
  rfl

/-- What survives a change of status that does not reset a task is known after
every call that resets none. -/
theorem Tracks.serve (htracks : store.Tracks uid P)
    (hP : ∀ row status, status.phase ≠ .pending → P row → P (row.moved status))
    (now : DateTime) {call : Call} (hcall : call.resets = false) :
    (store.serve now call).store.Tracks uid P := by
  obtain ⟨number, hnumber, huid⟩ := htracks.issued
  have hle := store.issued_le_serve now call
  refine ⟨⟨number, Nat.le_trans hnumber hle, huid⟩, fun row hrow hsame => ?_⟩
  rcases (store.serve_tasks now call).origin hrow with
    hold | ⟨status, old, hold, hmoves, rfl⟩ | ⟨task, -, -, rfl, -⟩
  · exact htracks.row row hold hsame
  · rw [hmoves, Call.resets, decide_eq_false_iff_not] at hcall
    exact hP old status hcall (htracks.row old hold hsame)
  · exact absurd hsame.symm (ne_next_uid htracks.issued)

theorem Tracks.key_serve (htracks : store.Tracks uid fun row => row.key = key) (now : DateTime)
    {call : Call} (hcall : call.resets = false) :
    (store.serve now call).store.Tracks uid fun row => row.key = key :=
  htracks.serve (fun _ _ _ hkey => hkey) now hcall

theorem Tracks.begun_serve (htracks : store.Tracks uid fun row => row.taskPhase ≠ .pending)
    (now : DateTime) {call : Call} (hcall : call.resets = false) :
    (store.serve now call).store.Tracks uid fun row => row.taskPhase ≠ .pending :=
  htracks.serve (fun row status hstatus _ => by rwa [taskPhase_moved]) now hcall

/-- A status that is written under the key of a task is the status of the task,
if that is still stored. -/
theorem Tracks.begun_of_marked (htracks : store.Tracks uid fun row => row.key = key)
    {updated : Task} (hdone : (store.updateTaskStatus key status).answer = .ok updated)
    (hstatus : status.phase ≠ .pending) :
    (store.updateTaskStatus key status).store.Tracks uid fun row => row.taskPhase ≠ .pending := by
  have hchange := store.updateTaskStatus_change key status
  generalize store.updateTaskStatus key status = effect at *
  cases hchange with
  | refused _ hanswer =>
      rw [hdone] at hanswer
      cases hanswer
  | read _ hreads => cases hreads
  | moveTask hrow hshows hwritten =>
      rw [hwritten]
      refine ⟨htracks.issued, fun row hmem hsame => ?_⟩
      obtain ⟨old, hold, rfl⟩ := List.mem_map.mp hmem
      by_cases hkey : old.key = key
      · rw [if_pos hkey]
        have hphase := taskPhase_moved old status
        unfold TaskRow.moved at hphase
        rw [hphase]
        exact hstatus
      · rw [if_neg hkey] at hsame
        exact absurd (htracks.row old hold hsame) hkey

theorem Intact.row_of_getTask (hstore : store.Intact) (hread : store.getTask key = .ok task) :
    ∃ row ∈ store.tasks, row.uid = task.metadata.uid ∧ row.key = key ∧
      row.taskPhase = task.status.phase ∧
      store.Tracks task.metadata.uid fun row => row.key = key := by
  obtain ⟨row, hrow, hshown⟩ := toTask_of_getTask hread
  have hmem : row ∈ store.tasks := List.mem_of_find?_eq_some hrow
  have huid : task.metadata.uid = row.uid := TaskRow.uid_of_toTask hshown
  have hkey : row.key = key := key_of_taskRow? hrow
  refine ⟨row, hmem, huid.symm, hkey, (TaskRow.shows_of_toTask hshown).phase.symm, ?_⟩
  constructor
  · obtain ⟨number, hnumber, hissued⟩ := hstore.taskIssued row hmem
    exact ⟨number, hnumber, huid.trans hissued⟩
  · intro other hother hsame
    rw [hstore.eq_of_uid hother hmem (hsame.trans huid), hkey]

end Store

/-! ## The invariant -/

namespace TaskRunner

variable {ι : Type} {runner next : TaskRunner ι} {worker : ι} {read read' : Task → Prop}
  {key : ObjectKey} {task : Task}

def launchedUids (runner : TaskRunner ι) : List String :=
  runner.launched.map (·.metadata.uid)

/-- What holds of a runner, `read` telling of the tasks that were read as waiting. -/
structure Sound (read : Task → Prop) (runner : TaskRunner ι) : Prop where
  store : runner.store.Intact
  apart : runner.pool.Apart runner.held runner.ended
  marked : ∀ worker key task, runner.stages worker = some (.mark key task) →
    read task ∧ (runner.store.Tracks task.metadata.uid fun row => row.key = key) ∧
      task.metadata.uid ∉ runner.launchedUids
  distinct : ∀ one other key key' task task', runner.stages one = some (.mark key task) →
    runner.stages other = some (.mark key' task') → task.metadata.uid = task'.metadata.uid →
      one = other
  reported : ∀ worker key status, runner.stages worker = some (.report key status) →
    status.phase ≠ .pending
  attempted : ∀ worker key task further,
    runner.stages worker = some (.attempt key task further) → task ∈ runner.launched
  once : runner.launchedUids.Nodup
  begun : ∀ task ∈ runner.launched,
    read task ∧ runner.store.Tracks task.metadata.uid fun row => row.taskPhase ≠ .pending

theorem sound_start {store : Store} (hstore : store.Intact) :
    Sound read ({ store } : TaskRunner ι) where
  store := hstore
  apart := JobPool.apart_empty
  marked := by simp
  distinct := by simp
  reported := by simp
  attempted := by simp
  once := List.nodup_nil
  begun := by simp

theorem Sound.mono (hsound : Sound read runner) (hread : ∀ task, read task → read' task) :
    Sound read' runner :=
  { hsound with
    marked := fun worker key task hmark =>
      (hsound.marked worker key task hmark).imp_left (hread task)
    begun := fun task htask => (hsound.begun task htask).imp_left (hread task) }

theorem Sound.afterServe (hsound : Sound read runner) (now : DateTime) {call : Call}
    (hcall : call.resets = false) :
    Sound read { runner with store := (runner.store.serve now call).store } :=
  { hsound with
    store := hsound.store.serve now call
    marked := by
      intro worker key task hmark
      obtain ⟨hread, htracks, hnot⟩ := hsound.marked worker key task hmark
      exact ⟨hread, htracks.key_serve now hcall, hnot⟩
    begun := by
      intro task htask
      obtain ⟨hread, htracks⟩ := hsound.begun task htask
      exact ⟨hread, htracks.begun_serve now hcall⟩ }

theorem Sound.afterPool (hsound : Sound read runner) {pool : JobPool} {ended : List ObjectKey}
    (listed : List Task) (hapart : pool.Apart runner.held ended) :
    Sound read { runner with pool, listed, ended } :=
  { hsound with apart := hapart }

variable [DecidableEq ι]

/-- A worker goes to a stage in which no task is about to be marked. -/
theorem Sound.afterPlace (hsound : Sound read runner) {place : Option Run.Stage}
    {pool : JobPool} {ended : List ObjectKey}
    (hapart : pool.Apart (Function.update runner.held worker (place.map Run.Stage.key)) ended)
    (hmark : ∀ key task, place ≠ some (.mark key task))
    (hreport : ∀ key status, place = some (.report key status) → status.phase ≠ .pending)
    (hattempt : ∀ key task further, place = some (.attempt key task further) →
      task ∈ runner.launched) :
    Sound read
      { runner with pool, ended, stages := Function.update runner.stages worker place } := by
  have hbefore : ∀ {other key task},
      Function.update runner.stages worker place other = some (.mark key task) →
        runner.stages other = some (.mark key task) := by
    intro other key task hother
    rcases update_cases hother with ⟨-, hplace⟩ | ⟨-, hbefore⟩
    · exact absurd hplace (hmark key task)
    · exact hbefore
  constructor
  · exact hsound.store
  · unfold held
    rw [held_update]
    exact hapart
  · exact fun other key task hother => hsound.marked other key task (hbefore hother)
  · intro one other key key' task task' hone hother
    exact hsound.distinct one other key key' task task' (hbefore hone) (hbefore hother)
  · intro other key status hother
    rcases update_cases hother with ⟨-, hplace⟩ | ⟨-, hold⟩
    · exact hreport key status hplace
    · exact hsound.reported other key status hold
  · intro other key task further hother
    rcases update_cases hother with ⟨-, hplace⟩ | ⟨-, hold⟩
    · exact hattempt key task further hplace
    · exact hsound.attempted other key task further hold
  · exact hsound.once
  · exact hsound.begun

omit [DecidableEq ι] in
theorem held_of_stage {stage : Run.Stage} (hstage : runner.stages worker = some stage) :
    runner.held worker = some stage.key := by
  rw [held, hstage, Option.map_some]

theorem apart_same_key {stage following : Run.Stage} (hsound : Sound read runner)
    (hstage : runner.stages worker = some stage) (hkey : following.key = stage.key) :
    runner.pool.Apart
      (Function.update runner.held worker ((some following).map Run.Stage.key)) runner.ended := by
  have hsame : Function.update runner.held worker ((some following).map Run.Stage.key) =
      runner.held := by
    rw [Option.map_some, hkey, ← held_of_stage hstage, Function.update_eq_self]
  rw [hsame]
  exact hsound.apart

omit [DecidableEq ι] in
theorem Sound.unlaunched_of_read (hsound : Sound read runner)
    (hread : runner.store.getTask key = .ok task) (hpending : task.status.phase = .pending) :
    task.metadata.uid ∉ runner.launchedUids := by
  obtain ⟨row, hrow, huid, -, hphase, -⟩ := hsound.store.row_of_getTask hread
  intro hlaunched
  obtain ⟨earlier, hearlier, hsame⟩ := List.mem_map.mp hlaunched
  have hbegun := (hsound.begun earlier hearlier).2
  exact hbegun.row row hrow (huid.trans hsame.symm) (hphase.trans hpending)

omit [DecidableEq ι] in
/-- The key of a uid stays the same, so a worker that is about to mark a task
with the uid of a stored one holds the key of that one. -/
theorem Sound.alone_of_read (hsound : Sound read runner)
    (hstage : runner.stages worker = some (.read key))
    (hread : runner.store.getTask key = .ok task) {other : ι} {key' : ObjectKey} {task' : Task}
    (hother : runner.stages other = some (.mark key' task'))
    (hsame : task'.metadata.uid = task.metadata.uid) : other = worker := by
  obtain ⟨row, hrow, huid, hkey, -, -⟩ := hsound.store.row_of_getTask hread
  have hplace := (hsound.marked other key' task' hother).2.1.row row hrow (huid.trans hsame.symm)
  have hheld : runner.held other = some key := by
    rw [held_of_stage hother, ← hkey, hplace]
    rfl
  exact hsound.apart.holders other worker key hheld (held_of_stage hstage)

/-- A worker has found a task that waits. -/
theorem Sound.afterFound (hsound : Sound read runner)
    (hstage : runner.stages worker = some (.read key))
    (hread : runner.store.getTask key = .ok task) (hpending : task.status.phase = .pending)
    (hnoted : read task) :
    Sound read
      { runner with
        stages := Function.update runner.stages worker (some (.mark key task)) } := by
  obtain ⟨row, -, -, -, -, htracks⟩ := hsound.store.row_of_getTask hread
  have hnew := hsound.unlaunched_of_read hread hpending
  constructor
  · exact hsound.store
  · unfold held
    rw [held_update]
    exact apart_same_key hsound hstage rfl
  · intro other key' task' hother
    rcases update_cases hother with ⟨-, hplace⟩ | ⟨-, hbefore⟩
    · cases hplace
      exact ⟨hnoted, htracks, hnew⟩
    · exact hsound.marked other key' task' hbefore
  · intro one other key₁ key₂ task₁ task₂ hone hother hsame
    rcases update_cases hone with ⟨rfl, hplace⟩ | ⟨-, hbefore⟩
    · cases hplace
      rcases update_cases hother with ⟨rfl, -⟩ | ⟨-, hbefore'⟩
      · rfl
      · exact (hsound.alone_of_read hstage hread hbefore' hsame.symm).symm
    · rcases update_cases hother with ⟨rfl, hplace⟩ | ⟨-, hbefore'⟩
      · cases hplace
        exact hsound.alone_of_read hstage hread hbefore hsame
      · exact hsound.distinct one other key₁ key₂ task₁ task₂ hbefore hbefore' hsame
  · intro other key' status hother
    rcases update_cases hother with ⟨-, hplace⟩ | ⟨-, hbefore⟩
    · cases hplace
    · exact hsound.reported other key' status hbefore
  · intro other key' task' further hother
    rcases update_cases hother with ⟨-, hplace⟩ | ⟨-, hbefore⟩
    · cases hplace
    · exact hsound.attempted other key' task' further hbefore
  · exact hsound.once
  · exact hsound.begun

/-- A worker has marked its task, and begins with the attempts. -/
theorem Sound.afterMarked (hsound : Sound read runner)
    (hstage : runner.stages worker = some (.mark key task))
    (hbegun : runner.store.Tracks task.metadata.uid fun row => row.taskPhase ≠ .pending)
    (further : Nat) :
    Sound read
      { runner with
        stages := Function.update runner.stages worker (some (.attempt key task further))
        launched := runner.launched ++ [task] } := by
  obtain ⟨hnoted, -, hnew⟩ := hsound.marked worker key task hstage
  have hbefore : ∀ {other key' task'},
      Function.update runner.stages worker (some (.attempt key task further)) other =
        some (.mark key' task') →
          other ≠ worker ∧ runner.stages other = some (.mark key' task') := by
    intro other key' task' hother
    rcases update_cases hother with ⟨-, hplace⟩ | hbefore
    · cases hplace
    · exact hbefore
  constructor
  · exact hsound.store
  · unfold held
    rw [held_update]
    exact apart_same_key hsound hstage rfl
  · intro other key' task' hother
    obtain ⟨hne, hmark⟩ := hbefore hother
    obtain ⟨hread, htracks, hnot⟩ := hsound.marked other key' task' hmark
    refine ⟨hread, htracks, fun hlaunched => ?_⟩
    unfold launchedUids at hlaunched
    rw [List.map_append, List.map_singleton] at hlaunched
    rcases List.mem_append.mp hlaunched with hold | hlast
    · exact hnot hold
    · exact hne (hsound.distinct other worker key' key task' task hmark hstage
        (List.mem_singleton.mp hlast))
  · intro one other key₁ key₂ task₁ task₂ hone hother
    exact hsound.distinct one other key₁ key₂ task₁ task₂ (hbefore hone).2 (hbefore hother).2
  · intro other key' status hother
    rcases update_cases hother with ⟨-, hplace⟩ | ⟨-, hold⟩
    · cases hplace
    · exact hsound.reported other key' status hold
  · intro other key' task' left hother
    rcases update_cases hother with ⟨-, hplace⟩ | ⟨-, hold⟩
    · cases hplace
      exact List.mem_append_right _ List.mem_cons_self
    · exact List.mem_append_left _ (hsound.attempted other key' task' left hold)
  · unfold launchedUids
    rw [List.map_append, List.map_singleton]
    exact hsound.once.append (List.nodup_singleton _) (List.disjoint_singleton.mpr hnew)
  · exact List.forall_mem_append.mpr
      ⟨hsound.begun, List.forall_mem_singleton.mpr ⟨hnoted, hbegun⟩⟩

/-! ## Steps and runs -/

omit [DecidableEq ι] in
/-- No stage of a run resets its task. -/
theorem Sound.resets_written (hsound : Sound read runner) {stage : Run.Stage}
    {status : TaskStatus} (hstage : runner.stages worker = some stage)
    (hwritten : stage.written? = some status) :
    (Call.updateTaskStatus stage.key status).resets = false := by
  rw [Call.resets, decide_eq_false_iff_not]
  cases stage with
  | read key => cases hwritten
  | attempt key task further => cases hwritten
  | mark key task =>
      cases hwritten
      simp
  | report key reported =>
      cases hwritten
      exact hsound.reported worker key status hstage

theorem Sound.moveOn (hsound : Sound read runner) {stage : Run.Stage}
    (hstage : runner.stages worker = some stage) {maxAttempts : Nat} {now : DateTime}
    {mishap : Mishap} {ending : Run.ProcessEnd}
    (hread : ∀ key task, mishap = .nothing → stage = .read key →
      runner.store.getTask key = .ok task → task.status.phase = .pending → read task) :
    Sound read (runner.moveOn worker stage
      (stage.progress maxAttempts now mishap ending runner.store)) := by
  cases hprogress : stage.progress maxAttempts now mishap ending runner.store with
  | mk progress store =>
  have hstore : Sound read { runner with store } := by
    have hafter : store = (stage.work now mishap ending runner.store).2 :=
      (congrArg Prod.snd hprogress).symm
    rcases Run.work_store stage now mishap ending runner.store with
      hsame | ⟨status, hstatus, hserved⟩
    · rw [hafter, hsame]
      exact hsound
    · rw [hafter, hserved]
      exact hsound.afterServe now (hsound.resets_written hstage hstatus)
  have hdone : Sound read
      { runner with
        store
        stages := Function.update runner.stages worker none
        ended := runner.ended ++ [stage.key] } :=
    hstore.afterPlace (hsound.apart.finish (held_of_stage hstage)) (by simp) (by simp) (by simp)
  cases progress with
  | finished phase => exact hdone
  | failed fault => exact hdone
  | goOn following =>
      have hgoes := Run.goesOn_of_progress hprogress
      have hapart := apart_same_key hstore hstage hgoes.key
      cases hgoes with
      | @found key task hheard hfound hpending =>
          simp only [TaskRunner.moveOn, Run.Stage.launches, List.append_nil]
          exact hsound.afterFound hstage hfound hpending (hread key task hheard rfl hfound hpending)
      | @marked key task updated further hmarked =>
          have htracks := (hsound.marked worker key task hstage).2.1
          exact hstore.afterMarked hstage (htracks.begun_of_marked hmarked (by simp)) further
      | @again key task further =>
          simp only [TaskRunner.moveOn, Run.Stage.launches, List.append_nil]
          refine hsound.afterPlace hapart (by simp) (by simp) ?_
          rintro key' task' left hplace
          cases hplace
          exact hsound.attempted worker key task (further + 1) hstage
      | @ended key task further status hterminal =>
          simp only [TaskRunner.moveOn, Run.Stage.launches, List.append_nil]
          refine hsound.afterPlace hapart (by simp) ?_ (by simp)
          rintro key' status' hplace hpending
          cases hplace
          rw [hpending] at hterminal
          cases hterminal

/-- A worker reads a task. -/
def Reads (task : Task) (runner : TaskRunner ι) (move : TaskRunnerMove ι) : Prop :=
  ∃ worker now ending key, move = .proceed worker now .nothing ending ∧
    runner.stages worker = some (.read key) ∧ runner.store.getTask key = .ok task

/-- A task was read by a worker as one that waits. -/
def ReadWaiting (maxAttempts : Nat) (start : TaskRunner ι) (moves : List (TaskRunnerMove ι))
    (task : Task) : Prop :=
  task.status.phase = .pending ∧
    Sometime (step? maxAttempts) (fun runner move _ => Reads task runner move) start moves

variable {maxAttempts : Nat} {start : TaskRunner ι} {moves : List (TaskRunnerMove ι)}
  {move : TaskRunnerMove ι}

theorem ReadWaiting.snoc (hread : ReadWaiting maxAttempts start moves task) :
    ReadWaiting maxAttempts start (moves ++ [move]) task :=
  ⟨hread.1, hread.2.snoc fun _ _ _ hreads => hreads⟩

theorem Sound.step (hplay : play (step? maxAttempts) start moves = some runner)
    (hbefore : Sound (ReadWaiting maxAttempts start moves) runner)
    (hstep : runner.step? maxAttempts move = some next) :
    Sound (ReadWaiting maxAttempts start (moves ++ [move])) next := by
  have hsound : Sound (ReadWaiting maxAttempts start (moves ++ [move])) runner :=
    hbefore.mono fun _ hread => hread.snoc
  cases step_cases hstep with
  | called request hresets => exact hsound.afterServe request.now hresets
  | listed hanswer => exact hsound.afterPool _ hsound.apart
  | unlisted hanswer => exact hsound
  | offered hlisted => exact hsound.afterPool _ (hsound.apart.submitPending [_])
  | heard event => exact hsound.afterPool runner.listed (hsound.apart.handle event)
  | asked key => exact hsound.afterPool runner.listed (hsound.apart.submit key)
  | @begun worker key pool hfree hbegin =>
      have hidle : runner.held worker = none := by rw [held, hfree, Option.map_none]
      exact hsound.afterPlace (hsound.apart.begin hbegin hidle) (by simp) (by simp) (by simp)
  | @went worker stage now mishap ending hstage =>
      refine hsound.moveOn hstage fun key task hheard hread hfound hpending => ?_
      subst hheard hread
      exact ⟨hpending, sometime_last hplay ⟨worker, now, ending, key, rfl, hstage, hfound⟩⟩
  | released hended => exact hsound.afterPool runner.listed (hsound.apart.release hended)
  | stopped => exact hsound.afterPool runner.listed hsound.apart.stop

theorem sound_of_play {store : Store} (hstore : store.Intact)
    (hplay : play (step? maxAttempts) ({ store } : TaskRunner ι) moves = some runner) :
    Sound (ReadWaiting maxAttempts { store } moves) runner := by
  refine play_records (P := fun moves runner => Sound (ReadWaiting maxAttempts { store } moves)
    runner) (sound_start hstore) ?_ hplay
  intro earlier config move next hearlier hbefore hstep
  exact hbefore.step hearlier hstep

/-- No matter how the steps of a runner and the calls of others come together,
the attempts are begun at most once for a uid, and for tasks only that a worker
has read as waiting; and a process is started in such attempts only. -/
theorem attempts_begun_once {requests : List TimedCall} {store : Store}
    (hstore : play Store.handle? {} requests = some store)
    (hplay : play (step? maxAttempts) ({ store } : TaskRunner ι) moves = some runner) :
    (runner.launched.map (·.metadata.uid)).Nodup ∧
      (∀ task ∈ runner.launched, task.status.phase = .pending ∧
        Sometime (step? maxAttempts) (fun earlier move _ => Reads task earlier move)
          ({ store } : TaskRunner ι) moves) ∧
      ∀ worker key task further, runner.stages worker = some (.attempt key task further) →
        task ∈ runner.launched := by
  have hsound := sound_of_play (Store.intact_of_play hstore) hplay
  exact ⟨hsound.once, fun task htask => (hsound.begun task htask).1, hsound.attempted⟩

/-- A task is removed and created again under its key between the read and the
mark of its run, the outcome of the run is lost, and the event of another task is
heard again after the mark of its run has failed. -/
theorem attempts_begun_once_in_disorder :
    let now : DateTime := ⟨⟨2024, 1, 2⟩, 0, 0, 0, 0, some 0⟩
    let resource : At := { metadata := { name := "a" }, spec := ⟨"2024-01-01T00:00:00Z", "echo"⟩ }
    let task : Task := (resource.stored "uid-1" now).newTask
    let other : Task := { task with metadata := { name := "b-pod" } }
    let added : Task → TaskRunnerMove Bool := fun task =>
      .hear { kind := .task, type := .added, key := task.key }
    let goes : Bool → Mishap → TaskRunnerMove Bool := fun worker mishap =>
      .proceed worker now mishap (.exited 0 none)
    let lost : Fault := .transient .database
    let moves : List (TaskRunnerMove Bool) :=
      [.list now .nothing, added task, .offer, .begin true, goes true .nothing,
        .call ⟨now, .deleteAt resource.key⟩, .call ⟨now, .createTask task⟩, added task,
        goes true .nothing, goes true .nothing, goes true (.unheard lost), .release task.key,
        .submit task.key, .begin false, goes false .nothing, .call ⟨now, .createTask other⟩,
        added other, .begin true, goes true .nothing, goes true (.unsent lost),
        .release other.key, added other, .begin true, goes true .nothing, goes true .nothing]
    ∃ store runner,
      play Store.handle? {} [⟨now, .createAt resource⟩, ⟨now, .createTask task⟩] = some store ∧
        play (step? 3) { store } moves = some runner ∧
        runner.launched.map (·.metadata.uid) = ["uid-2", "uid-4"] ∧
        ∀ task ∈ runner.launched, task.status.phase = .pending := by
  intro now resource task other added goes lost moves
  let store : Store :=
    { ats := [resource.row "uid-1" now], tasks := [task.row "uid-2" now], issued := 2 }
  have hstore : play Store.handle? {} [⟨now, .createAt resource⟩, ⟨now, .createTask task⟩] =
      some store := by decide +kernel
  obtain ⟨runner, hplay, huids⟩ :
      ∃ runner ∈ play (step? 3) ({ store } : TaskRunner Bool) moves,
        runner.launched.map (·.metadata.uid) = ["uid-2", "uid-4"] := by
    decide +kernel
  obtain ⟨-, hread, -⟩ := attempts_begun_once hstore hplay
  exact ⟨store, runner, hstore, hplay, huids, fun task htask => (hread task htask).1⟩

end TaskRunner

end OneShot
