import OneShot.Proofs.Reconcile.OpenRace
import OneShot.Proofs.Store.Columns

/-!
# A command is done when its own task has ended

A pass finds the task by its name alone.  The task is the command's own as long
as no command is removed while a pass is still on its way with a copy of it:
such a pass may leave a task behind for a command that is gone, or write to the
one that has come in its place.
-/

namespace OneShot

open Calendar

/-- A task is controlled by the command of a uid. -/
structure TaskRow.OwnedBy (row : TaskRow) (uid : String) : Prop where
  uid : row.ownerUid = some uid
  controller : row.ownerController = true

/-- The task that is found for a key is controlled by the command of the key. -/
def Store.TasksOwned (store : Store) (key : ObjectKey) : Prop :=
  ∀ task ∈ store.tasks, task.key = key.forTask →
    ∃ row, store.atRow? key = some row ∧ task.OwnedBy row.uid

namespace Store

variable {before : Store} {key : ObjectKey} {call : Call} {effect : Effect call.Reply}

theorem Change.uid_kept (hchange : Change before call effect) (hstore : before.Identified)
    {row : AtRow} (hrow : before.atRow? key = some row) :
    (∃ later, effect.store.atRow? key = some later ∧ later.uid = row.uid) ∨
      (effect.store.atRow? key = none ∧ call = .deleteAt key ∧ effect.answer.isOk = true) := by
  rcases hchange.atRow?_of_some hstore hrow with
    ⟨hsame, -⟩ | ⟨resource, -, hlater⟩ | ⟨spec, -, hlater⟩ | hgone
  · exact Or.inl ⟨row, hsame, rfl⟩
  · exact Or.inl ⟨_, hlater, rfl⟩
  · exact Or.inl ⟨_, hlater, rfl⟩
  · exact Or.inr hgone

theorem Change.task_origin (hchange : Change before call effect) :
    ∀ task ∈ effect.store.tasks,
      (∃ old ∈ before.tasks, old.key = task.key ∧ old.ownerUid = task.ownerUid ∧
          old.ownerController = task.ownerController) ∨
        ∃ made, call = .createTask made ∧ task.key = made.key ∧
          task.OwnedAs made.metadata.storedOwner? := by
  intro task htask
  have hthere : task ∈ before.tasks → ∃ old ∈ before.tasks, old.key = task.key ∧
      old.ownerUid = task.ownerUid ∧ old.ownerController = task.ownerController :=
    fun hmem => ⟨task, hmem, rfl, rfl, rfl⟩
  cases hchange with
  | refused hquiet => exact Or.inl (hthere (hquiet.tasks ▸ htask))
  | read hquiet => exact Or.inl (hthere (hquiet.tasks ▸ htask))
  | addAt hfree hkey hshows hats htasks => exact Or.inl (hthere (htasks ▸ htask))
  | moveAt hrow hversion hkey hwritten =>
      rw [hwritten] at htask
      exact Or.inl (hthere htask)
  | editAt hkey hwritten =>
      rw [hwritten] at htask
      exact Or.inl (hthere htask)
  | removeAt hresource howned hats htasks =>
      rw [htasks] at htask
      exact Or.inl (hthere (List.mem_of_mem_filter htask))
  | addTask hfree hkey howned hshows hats htasks =>
      rw [htasks, List.mem_append, List.mem_singleton] at htask
      rcases htask with hold | rfl
      · exact Or.inl (hthere hold)
      · exact Or.inr ⟨_, rfl, hkey, howned⟩
  | moveTask hrow hshows hwritten =>
      rw [hwritten] at htask
      obtain ⟨old, hold, rfl⟩ := List.mem_map.mp htask
      refine Or.inl ⟨old, hold, ?_⟩
      split <;> exact ⟨rfl, rfl, rfl⟩

/-- A command goes, and its tasks go with it. -/
theorem Change.removed (hchange : Change before call effect) (hstore : before.Identified)
    (hcall : call = .deleteAt key) (hdone : effect.answer.isOk = true) :
    effect.store.atRow? key = none ∧ ∃ row, before.atRow? key = some row ∧
      ∀ task ∈ effect.store.tasks, task.ownerUid ≠ some row.uid := by
  subst hcall
  cases hchange with
  | refused hquiet hanswer =>
      rw [hanswer] at hdone
      cases hdone
  | read hquiet hreads => cases hreads
  | removeAt hresource howned hats htasks =>
      obtain ⟨row, hrow, hshows⟩ := getAt_eq_ok hresource
      refine ⟨by rw [hstore.atRow?_remove hresource hats, if_pos rfl], row, hrow,
        fun task htask => ?_⟩
      rw [htasks] at htask
      rw [← hshows.uid]
      simpa using (List.mem_filter.mp htask).2

theorem Change.tasksOwned (hchange : Change before call effect) (hstore : before.Identified)
    (howned : before.TasksOwned key)
    (hcreates : ∀ task, call = .createTask task → task.key = key.forTask →
      ∃ (resource : At) (row : AtRow), task = resource.newTask ∧
        before.atRow? key = some row ∧ row.uid = resource.metadata.uid) :
    effect.store.TasksOwned key := by
  intro task htask hkey
  rcases hchange.task_origin task htask with
    ⟨old, hold, hplace, huid, hcontroller⟩ | ⟨made, hcall, hplace, hmade⟩
  · obtain ⟨row, hrow, hmine⟩ := howned old hold (hplace.trans hkey)
    rcases hchange.uid_kept hstore hrow with ⟨later, hlater, hsame⟩ | ⟨-, hcall, hdone⟩
    · refine ⟨later, hlater, ?_, hcontroller.symm.trans hmine.controller⟩
      rw [← huid, hmine.uid, hsame]
    · obtain ⟨-, gone, hgone, hnone⟩ := hchange.removed hstore hcall hdone
      rw [hrow, Option.some.injEq] at hgone
      subst hgone
      exact absurd (huid.symm.trans hmine.uid) (hnone task htask)
  · obtain ⟨resource, row, rfl, hrow, hsame⟩ := hcreates made hcall (hplace.symm.trans hkey)
    rcases hchange.uid_kept hstore hrow with ⟨later, hlater, huid⟩ | ⟨-, hremoves, -⟩
    · refine ⟨later, hlater, ?_, hmade.controller⟩
      rw [hmade.uid, huid, hsame]
      rfl
    · rw [hcall] at hremoves
      cases hremoves

/-- A pass does not remove commands. -/
theorem Identified.uid_kept_of_attempt {store : Store} (hstore : store.Identified) (now : DateTime)
    (stage : Pass.Stage) (mishap : Mishap) {row : AtRow} (hrow : store.atRow? key = some row) :
    ∃ later, (store.attempt now stage.call mishap).store.atRow? key = some later ∧
      later.uid = row.uid := by
  rcases store.attempt_store_cases now stage.call mishap with hsame | hserved
  · exact ⟨row, by rw [hsame, hrow], rfl⟩
  · rw [hserved]
    rcases (store.serve_change now stage.call).uid_kept hstore hrow with hlater | ⟨-, hcall, -⟩
    · exact hlater
    · exact absurd hcall (stage.call_ne_deleteAt key)

end Store

namespace Race

variable {ι : Type} [DecidableEq ι]

/-- A user removes the command of a key while a pass is on its way with a copy
of it. -/
def RemovedUnderway (key : ObjectKey) (race : Race ι) (move : RaceMove ι)
    (_ : List (RaceMove ι)) : Prop :=
  Hears (Store.Removes key) race move ∧
    ∃ pass trip resource, race.trips pass = some trip ∧ trip.stage.resource? = some resource ∧
      resource.key = key

/-- A pass finds a task for its command, and it is still the same pass
afterwards. -/
def Finds (pass : ι) (resource : At) (task : Task) (race : Race ι) (move : RaceMove ι)
    (after : List (RaceMove ι)) : Prop :=
  (∃ seen, race.trips pass = some ⟨.findTask resource, seen⟩) ∧
    race.store.getTask resource.taskKey = .ok task ∧ move = .proceed pass .nothing ∧
      Unbroken pass after

/-- A pass has found a task that has ended and that its command controls. -/
def FoundOwn (start : Race ι) (moves : List (RaceMove ι)) (pass : ι) (resource : At) : Prop :=
  ∃ task owner, Sometime openStep? (Finds pass resource task) start moves ∧
    task.status.phase.isTerminal = true ∧ task.metadata.controllerOwner? = some owner ∧
      owner.uid = resource.metadata.uid

/-- The copies that passes have of the command of a key are copies of the one
that is stored, and its task is its own. -/
structure InHand (start : Race ι) (key : ObjectKey) (moves : List (RaceMove ι)) (race : Race ι) :
    Prop where
  copies : ∀ pass trip resource, race.trips pass = some trip →
    trip.stage.resource? = some resource → resource.key = key →
      ∃ row, race.store.atRow? key = some row ∧ row.uid = resource.metadata.uid
  tasks : race.store.TasksOwned key
  found : ∀ pass trip resource, race.trips pass = some trip →
    trip.stage = .store resource .done → resource.key = key → FoundOwn start moves pass resource

inductive Custody (start : Race ι) (key : ObjectKey) (moves : List (RaceMove ι))
    (race : Race ι) : Prop where
  | inHand (hinHand : InHand start key moves race)
  | lost (hnone : race.store.atRow? key = none)
      (hremoved : Sometime openStep? (RemovedUnderway key) start moves)
  | replaced (hreplaced :
      Followed openStep? (RemovedUnderway key) (Hears (Store.Creates key)) start moves)

variable {start race next : Race ι} {moves : List (RaceMove ι)} {move last : RaceMove ι}
  {pass : ι} {resource : At} {key : ObjectKey}

theorem FoundOwn.snoc (hfound : FoundOwn start moves pass resource)
    (hlast : ∀ key, last ≠ .start pass key) :
    FoundOwn start (moves ++ [last]) pass resource := by
  obtain ⟨task, owner, hfinds, hended, howner, huid⟩ := hfound
  refine ⟨task, owner, hfinds.snoc ?_, hended, howner, huid⟩
  rintro config found after ⟨htrip, hread, hmove, hunbroken⟩
  exact ⟨htrip, hread, hmove, hunbroken.snoc hlast⟩

theorem InHand.afterCall (hplay : play openStep? start moves = some race)
    (hstore : race.store.Identified) (hinHand : InHand start key moves race) {call : Call}
    (hstep : race.openStep? (.call call) = some next) :
    Custody start key (moves ++ [.call call]) next := by
  simp only [openStep?] at hstep
  split at hstep
  next hbyUsers =>
    cases hstep
    have hchange := race.store.serve_change race.now call
    have htasks : (race.store.serve race.now call).store.TasksOwned key := by
      refine hchange.tasksOwned hstore hinHand.tasks ?_
      rintro task rfl
      cases hbyUsers
    by_cases hremoves : race.store.Removes key ⟨race.now, call⟩
    · have hnone := (hchange.removed hstore hremoves.1 hremoves.2).1
      by_cases hcopy : ∃ pass trip resource, race.trips pass = some trip ∧
          trip.stage.resource? = some resource ∧ resource.key = key
      · exact .lost hnone (sometime_last hplay ⟨⟨call, rfl, hremoves⟩, hcopy⟩)
      · refine .inHand ⟨fun pass trip resource htrip hresource hkey => ?_, htasks,
          fun pass trip resource htrip hstage hkey => ?_⟩
        · exact absurd ⟨pass, trip, resource, htrip, hresource, hkey⟩ hcopy
        · exact absurd ⟨pass, trip, resource, htrip, by rw [hstage]; rfl, hkey⟩ hcopy
    · refine .inHand ⟨fun pass trip resource htrip hresource hkey => ?_, htasks,
        fun pass trip resource htrip hstage hkey => ?_⟩
      · obtain ⟨row, hrow, huid⟩ := hinHand.copies pass trip resource htrip hresource hkey
        rcases hchange.uid_kept hstore hrow with ⟨later, hlater, hsame⟩ | ⟨-, hgone⟩
        · exact ⟨later, hlater, hsame.trans huid⟩
        · exact absurd hgone hremoves
      · exact (hinHand.found pass trip resource htrip hstage hkey).snoc (by simp)
  next => cases hstep

/-- A pass creates the task of the command that it has a copy of. -/
theorem InHand.keeps_tasks (hstore : race.store.Identified)
    (hinHand : InHand start key moves race) {trip : Trip} (htrip : race.trips pass = some trip)
    (mishap : Mishap) :
    (race.store.attempt race.now trip.stage.call mishap).store.TasksOwned key := by
  rcases race.store.attempt_store_cases race.now trip.stage.call mishap with hsame | hserved
  · rw [hsame]
    exact hinHand.tasks
  · rw [hserved]
    refine (race.store.serve_change race.now trip.stage.call).tasksOwned hstore hinHand.tasks
      fun task hcall hkey => ?_
    obtain ⟨resource, hstage, rfl⟩ := Pass.Stage.of_call_createTask hcall
    obtain ⟨row, hrow, huid⟩ := hinHand.copies pass trip resource htrip (by rw [hstage]; rfl)
      (ObjectKey.forTask_inj hkey)
    exact ⟨resource, row, rfl, hrow, huid⟩

/-- A pass that goes on to store the last phase has just found its own task. -/
theorem InHand.foundOwn (hplay : play openStep? start moves = some race)
    (hinHand : InHand start key moves race) {trip : Trip} {mishap : Mishap}
    (htrip : race.trips pass = some trip) (hkey : resource.key = key)
    (hleads : Pass.Leads race.store race.now mishap trip.stage (.store resource .done)) :
    FoundOwn start (moves ++ [.proceed pass mishap]) pass resource := by
  obtain ⟨hfinding, rfl, task, hread, hended⟩ := hleads.ended
  obtain ⟨stage, seen⟩ := trip
  simp only at hfinding
  subst hfinding
  obtain ⟨row, hrow, huid⟩ := hinHand.copies pass _ resource htrip rfl hkey
  obtain ⟨taskRow, htaskRow, hshows⟩ := Store.getTask_eq_ok hread
  have hplace : taskRow.key = key.forTask := hkey ▸ Store.key_of_taskRow? htaskRow
  obtain ⟨mine, hmine, howned⟩ :=
    hinHand.tasks taskRow (List.mem_of_find?_eq_some htaskRow) hplace
  rw [hrow, Option.some.injEq] at hmine
  subst hmine
  obtain ⟨owner, howner, hname, -, -⟩ := hshows.controllerOwner howned.uid howned.controller
  exact ⟨task, owner, sometime_last hplay ⟨⟨seen, htrip⟩, hread, rfl, unbroken_nil _⟩, hended,
    howner, hname.trans huid⟩

theorem InHand.afterProceed (hplay : play openStep? start moves = some race)
    (hstore : race.store.Identified) (hinHand : InHand start key moves race) {mishap : Mishap}
    (hstep : race.openStep? (.proceed pass mishap) = some next) :
    InHand start key (moves ++ [.proceed pass mishap]) next := by
  obtain ⟨trip, htrip, hnow, hnext, htrips⟩ := trips_of_proceed hstep
  have htasks : next.store.TasksOwned key := hnext ▸ hinHand.keeps_tasks hstore htrip mishap
  have hkept : ∀ row, race.store.atRow? key = some row →
      ∃ later, next.store.atRow? key = some later ∧ later.uid = row.uid := by
    intro row hrow
    rw [hnext]
    exact hstore.uid_kept_of_attempt race.now trip.stage mishap hrow
  refine ⟨fun other found resource hfound hresource hkey => ?_, htasks,
    fun other found resource hfound hstage hkey => ?_⟩
  · have hbefore : ∀ pass trip, race.trips pass = some trip →
        trip.stage.resource? = some resource →
          ∃ row, next.store.atRow? key = some row ∧ row.uid = resource.metadata.uid := by
      intro pass trip htrip hresource
      obtain ⟨row, hrow, huid⟩ := hinHand.copies pass trip resource htrip hresource hkey
      obtain ⟨later, hlater, hsame⟩ := hkept row hrow
      exact ⟨later, hlater, hsame.trans huid⟩
    rcases htrips other found hfound with ⟨-, hthere⟩ | ⟨rfl, hleads⟩
    · exact hbefore other found hthere hresource
    · obtain ⟨stage, seen⟩ := found
      obtain ⟨earlier, known⟩ := trip
      simp only at hleads hresource
      cases hleads with
      | read hclear hread hgo =>
          cases hresource
          obtain ⟨row, hrow, hshows⟩ := Store.getAt_eq_ok hread
          rw [← Store.key_of_atRow? hrow, ← hshows.key, hkey] at hrow
          obtain ⟨later, hlater, hsame⟩ := hkept row hrow
          exact ⟨later, hlater, hsame.trans hshows.uid.symm⟩
      | missed | found hclear hfound | launched =>
          cases hresource
          exact hbefore other _ htrip rfl
  · rcases htrips other found hfound with ⟨-, hthere⟩ | ⟨rfl, hleads⟩
    · exact (hinHand.found other found resource hthere hstage hkey).snoc (by simp)
    · rw [hstage] at hleads
      exact hinHand.foundOwn hplay htrip hkey hleads

theorem InHand.afterStart (hinHand : InHand start key moves race) {begun : ObjectKey}
    (hstep : race.openStep? (.start pass begun) = some next) :
    InHand start key (moves ++ [.start pass begun]) next := by
  have hstore : next.store = race.store := by
    cases hstep
    rfl
  refine ⟨fun other found resource hfound hresource hkey => ?_, hstore ▸ hinHand.tasks,
    fun other found resource hfound hstage hkey => ?_⟩
  · rw [hstore]
    rcases trips_of_start hstep hfound with ⟨-, hbefore⟩ | hnone
    · exact hinHand.copies other found resource hbefore hresource hkey
    · rw [hnone] at hresource
      cases hresource
  · rcases trips_of_start hstep hfound with ⟨hne, hbefore⟩ | hnone
    · refine (hinHand.found other found resource hbefore hstage hkey).snoc fun _ heq => ?_
      cases heq
      exact hne rfl
    · rw [hstage] at hnone
      cases hnone

/-- A key without a row gets one only when a user creates it. -/
theorem atRow?_of_openStep (hnone : race.store.atRow? key = none)
    (hstep : race.openStep? move = some next) :
    next.store.atRow? key = none ∨ Hears (Store.Creates key) race move := by
  cases move with
  | call call =>
      simp only [openStep?] at hstep
      split at hstep
      next =>
        cases hstep
        exact ((race.store.serve_change race.now call).atRow?_of_none hnone).imp_right
          fun h => ⟨call, rfl, h⟩
      next => cases hstep
  | clock now =>
      cases hstep
      exact Or.inl hnone
  | start pass key =>
      cases hstep
      exact Or.inl hnone
  | proceed pass mishap =>
      obtain ⟨trip, htrip, hnow, hnext, -⟩ := trips_of_proceed hstep
      left
      rw [hnext]
      rcases race.store.attempt_store_cases race.now trip.stage.call mishap with hsame | hserve
      · rwa [hsame]
      · rw [hserve]
        refine ((race.store.serve_change race.now trip.stage.call).atRow?_of_none
          hnone).resolve_right ?_
        rintro ⟨⟨resource, hcall, -⟩, -⟩
        cases hstage : trip.stage <;> rw [hstage] at hcall <;> cases hcall

theorem Custody.afterStep (hplay : play openStep? start moves = some race)
    (hstore : race.store.Identified) (hcustody : Custody start key moves race)
    (hstep : race.openStep? move = some next) : Custody start key (moves ++ [move]) next := by
  cases hcustody with
  | inHand hinHand =>
      cases move with
      | call call => exact hinHand.afterCall hplay hstore hstep
      | proceed pass mishap => exact .inHand (hinHand.afterProceed hplay hstore hstep)
      | start pass begun => exact .inHand (hinHand.afterStart hstep)
      | clock now =>
          cases hstep
          exact .inHand ⟨hinHand.copies, hinHand.tasks, fun pass trip resource htrip hstage hkey =>
            (hinHand.found pass trip resource htrip hstage hkey).snoc (by simp)⟩
  | lost hnone hremoved =>
      rcases atRow?_of_openStep hnone hstep with hstill | hcreates
      · exact .lost hstill (hremoved.snoc fun _ _ _ h => h)
      · exact .replaced (hremoved.followed (fun _ _ _ h => h) hplay hcreates)
  | replaced hreplaced => exact .replaced (hreplaced.snoc fun _ _ _ h => h)

theorem custody_of_play {now : DateTime}
    (hplay : play openStep? { store := {}, now } moves = some race) (key : ObjectKey) :
    race.store.Identified ∧ Custody { store := {}, now } key moves race := by
  refine play_records (P := fun moves race =>
    race.store.Identified ∧ Custody { store := {}, now } key moves race)
    ⟨Store.identified_empty, .inHand ⟨?_, ?_, ?_⟩⟩ ?_ hplay
  · intro pass trip resource htrip
    cases htrip
  · intro task htask
    cases htask
  · intro pass trip resource htrip
    cases htrip
  · rintro moves race move next hplay ⟨hstore, hcustody⟩ hstep
    exact ⟨identified_openStep hstore hstep, hcustody.afterStep hplay hstore hstep⟩

/-- When a pass gets to store that a command is done, the task that it has found
has ended, and the stored command is its controller.  Else the command was
removed while a pass was on its way with a copy of it, and created again. -/
theorem done_after_own_task {now : DateTime}
    (hplay : play openStep? { store := {}, now } moves = some race) {trip : Trip} {updated : At}
    (htrip : race.trips pass = some trip) (hstage : trip.stage = .store resource .done)
    (hdone : (race.store.updateAtStatus (Pass.inPhase resource .done)).answer = .ok updated) :
    (∃ task owner, Sometime openStep? (Finds pass resource task) { store := {}, now } moves ∧
        task.status.phase.isTerminal = true ∧ task.metadata.controllerOwner? = some owner ∧
        owner.uid = updated.metadata.uid) ∨
      Followed openStep? (RemovedUnderway resource.key) (Hears (Store.Creates resource.key))
        { store := {}, now } moves := by
  obtain ⟨hstore, hcustody⟩ := custody_of_play hplay resource.key
  have hread := Store.getAt_of_updateAtStatus hdone
  obtain ⟨after, hafter, hshows⟩ := Store.getAt_eq_ok hread
  have hchange := race.store.updateAtStatus_change (Pass.inPhase resource .done)
  cases hcustody with
  | inHand hinHand =>
      left
      obtain ⟨row, hrow, huid⟩ :=
        hinHand.copies pass trip resource htrip (by rw [hstage]; rfl) rfl
      obtain ⟨task, owner, hfinds, hended, howner, hsame⟩ :=
        hinHand.found pass trip resource htrip hstage rfl
      refine ⟨task, owner, hfinds, hended, howner, ?_⟩
      rcases hchange.uid_kept hstore hrow with ⟨later, hlater, hkept⟩ | ⟨-, hcall, -⟩
      · have heq : some after = some later := hafter.symm.trans hlater
        cases heq
        rw [hsame, hshows.uid, hkept, huid]
      · cases hcall
  | lost hnone hremoved =>
      rcases hchange.atRow?_of_none hnone with hstill | ⟨⟨created, hcall, -⟩, -⟩
      · have heq : some after = none := hafter.symm.trans hstill
        cases heq
      · cases hcall
  | replaced hreplaced => exact Or.inr hreplaced

/-- A command is launched and its task ends, while another command is removed
and created again under way. -/
theorem done_after_own_task_of_launched :
    let command : At :=
      { metadata := { name := "a" }, spec := ⟨"2024-01-01T00:00:00Z", "echo"⟩ }
    let other : At :=
      { metadata := { name := "b" }, spec := ⟨"2024-01-01T00:00:00Z", "ls"⟩ }
    let now : DateTime := ⟨⟨2024, 1, 2⟩, 0, 0, 0, 0, some 0⟩
    let read : At :=
      { command with
        metadata :=
          { name := "a", uid := "uid-1", resourceVersion := "2", created := some now }
        phase := "RUNNING" }
    let moves : List (RaceMove Bool) :=
      [.call (.createAt command), .call (.createAt other), .start false command.key,
        .start true other.key, .proceed true .nothing, .proceed false .nothing,
        .proceed false .nothing, .proceed false .nothing, .proceed false .nothing,
        .call (.deleteAt other.key), .call (.createAt other),
        .call (.updateTaskStatus command.key.forTask { phase := .succeeded }),
        .start false command.key, .proceed false .nothing, .proceed false .nothing]
    ∃ race updated, play openStep? ({ store := {}, now } : Race Bool) moves = some race ∧
      race.trips false = some ⟨.store read .done, some read⟩ ∧
      (race.store.updateAtStatus (Pass.inPhase read .done)).answer = .ok updated ∧
      ∃ task owner, Sometime openStep? (Finds false read task) { store := {}, now } moves ∧
        task.status.phase.isTerminal = true ∧ task.metadata.controllerOwner? = some owner ∧
        owner.uid = updated.metadata.uid := by
  intro command other now read moves
  let updated : At :=
    { read with metadata := { read.metadata with resourceVersion := "3" }, phase := "DONE" }
  obtain ⟨race, hrace, htrip, hupdated⟩ :
      ∃ race ∈ play openStep? ({ store := {}, now } : Race Bool) moves,
        race.trips false = some ⟨.store read .done, some read⟩ ∧
          (race.store.updateAtStatus (Pass.inPhase read .done)).answer = .ok updated := by
    decide +kernel
  refine ⟨race, updated, hrace, htrip, hupdated, ?_⟩
  refine (done_after_own_task hrace htrip rfl hupdated).resolve_right fun hreplaced => ?_
  obtain ⟨config, after, move, hmove, ⟨⟨call, rfl, hcall, -⟩, -⟩, -⟩ :=
    Sometime.exists_mem hreplaced
  have hremoval : call = .deleteAt read.key := hcall
  subst hremoval
  simp only [moves, List.mem_cons, RaceMove.call.injEq, Call.deleteAt.injEq, reduceCtorEq,
    List.not_mem_nil, or_false, false_or] at hmove
  exact absurd hmove (by decide)

/-- A command is removed while a pass is about to create its task, and created
again.  The task that is left behind ends, and the new command is done with it. -/
theorem done_after_task_of_another :
    let command : At :=
      { metadata := { name := "a" }, spec := ⟨"2024-01-01T00:00:00Z", "echo"⟩ }
    let now : DateTime := ⟨⟨2024, 1, 2⟩, 0, 0, 0, 0, some 0⟩
    let read : At :=
      { command with
        metadata :=
          { name := "a", uid := "uid-3", resourceVersion := "1", created := some now } }
    let moves : List (RaceMove Bool) :=
      [.call (.createAt command), .start false command.key, .proceed false .nothing,
        .proceed false .nothing, .call (.deleteAt command.key), .proceed false .nothing,
        .call (.createAt command),
        .call (.updateTaskStatus command.key.forTask { phase := .succeeded }),
        .start true command.key, .proceed true .nothing]
    ∃ finding race : Race Bool, ∃ task updated,
      play openStep? { store := {}, now } moves = some finding ∧
      finding.trips true = some ⟨.findTask read, some read⟩ ∧
      finding.store.getTask read.taskKey = .ok task ∧
      task.status.phase.isTerminal = true ∧
      finding.openStep? (.proceed true .nothing) = some race ∧
      race.trips true = some ⟨.store read .done, some read⟩ ∧
      (race.store.updateAtStatus (Pass.inPhase read .done)).answer = .ok updated ∧
      (task.metadata.controllerOwner?.map fun owner => owner.uid) = some "uid-1" ∧
      updated.metadata.uid = "uid-3" := by
  intro command now read moves
  let task : Task :=
    { { command with metadata := { command.metadata with uid := "uid-1" } }.newTask.stored
        "uid-2" now with status := { phase := .succeeded } }
  let found : Task := { task with metadata := { task.metadata with resourceVersion := "2" } }
  let updated : At :=
    { read with metadata := { read.metadata with resourceVersion := "2" }, phase := "DONE" }
  obtain ⟨finding, hfinding, htrip, htask⟩ :
      ∃ finding ∈ play openStep? ({ store := {}, now } : Race Bool) moves,
        finding.trips true = some ⟨.findTask read, some read⟩ ∧
          finding.store.getTask read.taskKey = .ok found := by
    decide +kernel
  obtain ⟨race, hplay, hended, hupdated⟩ :
      ∃ race ∈ play openStep? ({ store := {}, now } : Race Bool)
          (moves ++ [.proceed true .nothing]),
        race.trips true = some ⟨.store read .done, some read⟩ ∧
          (race.store.updateAtStatus (Pass.inPhase read .done)).answer = .ok updated := by
    decide +kernel
  have hrace : finding.openStep? (.proceed true .nothing) = some race :=
    (play_snoc hfinding _).symm.trans hplay
  exact ⟨finding, race, found, updated, hfinding, htrip, htask, rfl, hrace, hended, hupdated,
    by decide +kernel, rfl⟩

end Race

end OneShot
