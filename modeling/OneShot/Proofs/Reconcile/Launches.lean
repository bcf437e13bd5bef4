import OneShot.Proofs.Reconcile.OpenRace
import OneShot.Proofs.Store.Columns

/-!
# Tasks are launched when due

A pass holds the schedule of the copy that it has read against the clock, and
creates the task two calls later.  The clock does not go back, and no pass
takes a phase back, so the command is still to be launched by then, unless a
user has edited or removed it in between: the creation is not conditional on
the version that was read.
-/

namespace OneShot

open Calendar

/-- A request edits or removes the command of a key, and gets through. -/
def Store.Disturbs (key : ObjectKey) (store : Store) (request : TimedCall) : Prop :=
  (request.call = .deleteAt key ∨ ∃ spec, request.call = .updateAtSpec key spec) ∧
    (store.serve request.now request.call).answer.isOk = true

/-- The command of a key is there, and it has been started or its schedule has
come. -/
def Store.Launchable (store : Store) (now : DateTime) (key : ObjectKey) : Prop :=
  ∃ row, store.atRow? key = some row ∧
    (row.phase = AtPhase.running.text ∨ row.phase = AtPhase.done.text ∨
      Schedule.DueBy row.schedule now)

namespace Store

variable {store after : Store} {now later : DateTime} {key : ObjectKey}

instance : Decidable (store.Launchable now key) :=
  inferInstanceAs (Decidable (∃ row ∈ store.atRow? key,
    row.phase = AtPhase.running.text ∨ row.phase = AtPhase.done.text ∨
      Schedule.DueBy row.schedule now))

theorem Launchable.mono (hlaunchable : store.Launchable now key)
    (hle : now.instant ≤ later.instant) : store.Launchable later key := by
  obtain ⟨row, hrow, hready⟩ := hlaunchable
  exact ⟨row, hrow, hready.imp_right fun h => h.imp_right fun hdue => hdue.mono hle⟩

theorem launchable_of_read {resource : At} (hread : store.getAt key = .ok resource)
    (hready : Pass.Ready resource now) : store.Launchable now resource.key := by
  obtain ⟨row, hrow, hshown⟩ := toAt_of_getAt hread
  have hshows := AtRow.shows_of_toAt hshown
  refine ⟨row, by rw [hshows.key, key_of_atRow? hrow, hrow], ?_⟩
  rcases hready with hrunning | hdue
  · exact Or.inl (hshows.phase ▸ hrunning)
  · rw [AtRow.spec_of_toAt hshown] at hdue
    exact Or.inr (Or.inr hdue)

theorem Launchable.serve (hlaunchable : store.Launchable now key) (hstore : store.Identified)
    {call : Call} (hwrites : ∀ resource, call = .updateAtStatus resource →
      resource.phase = AtPhase.running.text ∨ resource.phase = AtPhase.done.text) :
    (store.serve now call).store.Launchable now key ∨ store.Disturbs key ⟨now, call⟩ := by
  obtain ⟨row, hrow, hready⟩ := hlaunchable
  rcases (store.serve_change now call).atRow?_of_some hstore hrow with
    ⟨hsame, -⟩ | ⟨resource, hcall, hlater⟩ | ⟨spec, ⟨hcall, hdone⟩, -⟩ | ⟨-, hcall, hdone⟩
  · exact Or.inl ⟨row, hsame, hready⟩
  · refine Or.inl ⟨_, hlater, ?_⟩
    rcases hwrites resource hcall with hrunning | hended
    · exact Or.inl hrunning
    · exact Or.inr (Or.inl hended)
  · exact Or.inr ⟨Or.inr ⟨spec, hcall⟩, hdone⟩
  · exact Or.inr ⟨Or.inl hcall, hdone⟩

end Store

namespace Race

variable {ι : Type} [DecidableEq ι]

/-- A move in a race with users; the clock does not go back. -/
def steadyStep? (race : Race ι) : RaceMove ι → Option (Race ι)
  | .clock now =>
      if race.now.instant ≤ now.instant then race.openStep? (.clock now) else none
  | .call call => race.openStep? (.call call)
  | .start pass key => race.openStep? (.start pass key)
  | .proceed pass mishap => race.openStep? (.proceed pass mishap)

variable {start race next : Race ι} {moves : List (RaceMove ι)} {move : RaceMove ι}
  {pass : ι} {resource : At}

omit [DecidableEq ι] in
theorem Reads.snoc {config : Race ι} {found last : RaceMove ι} {after : List (RaceMove ι)}
    (hreads : Reads pass resource config found after) (hlast : ∀ key, last ≠ .start pass key) :
    Reads pass resource config found (after ++ [last]) :=
  ⟨hreads.1, hreads.2.1, hreads.2.2.snoc hlast⟩

/-- What a pass that has read a command may count on. -/
inductive Standing (start : Race ι) (pass : ι) (resource : At) (moves : List (RaceMove ι))
    (race : Race ι) : Prop where
  | abreast (hread : Sometime steadyStep? (Reads pass resource) start moves)
      (hlaunchable : race.store.Launchable race.now resource.key)
  | overtaken (hovertaken : Followed steadyStep? (Reads pass resource)
      (Hears (Store.Disturbs resource.key)) start moves)

/-- A move in which the pass is not begun anew, and after which its command is
still to be launched or was disturbed. -/
theorem Standing.snoc (hplay : play steadyStep? start moves = some race)
    (hstanding : Standing start pass resource moves race)
    (hlast : ∀ key, move ≠ .start pass key)
    (hkeeps : race.store.Launchable race.now resource.key →
      next.store.Launchable next.now resource.key ∨
        Hears (Store.Disturbs resource.key) race move) :
    Standing start pass resource (moves ++ [move]) next := by
  cases hstanding with
  | abreast hread hlaunchable =>
      rcases hkeeps hlaunchable with hstill | hdisturbed
      · exact .abreast (hread.snoc fun _ _ _ h => h.snoc hlast) hstill
      · exact .overtaken (hread.followed (fun _ _ _ h => h.snoc hlast) hplay hdisturbed)
  | overtaken hovertaken => exact .overtaken (hovertaken.snoc fun _ _ _ h => h.snoc hlast)

structure Steady (start : Race ι) (moves : List (RaceMove ι)) (race : Race ι) : Prop where
  identified : race.store.Identified
  reached : ∀ pass trip resource phase, race.trips pass = some trip →
    trip.stage = .store resource phase → phase = .running ∨ phase = .done
  standing : ∀ pass trip resource, race.trips pass = some trip →
    trip.stage.resource? = some resource → Standing start pass resource moves race

theorem Steady.afterCall (hplay : play steadyStep? start moves = some race)
    (hsteady : Steady start moves race) {call : Call}
    (hstep : race.openStep? (.call call) = some next) :
    Steady start (moves ++ [.call call]) next := by
  have hidentified := identified_openStep hsteady.identified hstep
  simp only [openStep?] at hstep
  split at hstep
  next hbyUsers =>
    cases hstep
    refine ⟨hidentified, hsteady.reached, fun pass trip resource htrip hresource => ?_⟩
    refine (hsteady.standing pass trip resource htrip hresource).snoc hplay (by simp)
      fun hlaunchable => ?_
    have hwrites : ∀ written, call = .updateAtStatus written →
        written.phase = AtPhase.running.text ∨ written.phase = AtPhase.done.text := by
      rintro written rfl
      cases hbyUsers
    exact (hlaunchable.serve hsteady.identified hwrites).imp_right fun h => ⟨call, rfl, h⟩
  next => cases hstep

/-- A pass does not edit or remove commands, and it takes no phase back. -/
theorem Steady.keeps_launchable (hsteady : Steady start moves race) {trip : Trip}
    (htrip : race.trips pass = some trip) (mishap : Mishap) {key : ObjectKey}
    (hlaunchable : race.store.Launchable race.now key) :
    (race.store.attempt race.now trip.stage.call mishap).store.Launchable race.now key := by
  rcases race.store.attempt_store_cases race.now trip.stage.call mishap with hsame | hserved
  · rwa [hsame]
  · rw [hserved]
    refine (hlaunchable.serve hsteady.identified fun written hcall => ?_).resolve_right ?_
    · obtain ⟨resource, reached, hstage, rfl⟩ := Pass.Stage.of_call_updateAtStatus hcall
      rcases hsteady.reached pass trip resource reached htrip hstage with rfl | rfl
      · exact Or.inl rfl
      · exact Or.inr rfl
    · rintro ⟨hcall | ⟨spec, hcall⟩, -⟩
      · exact trip.stage.call_ne_deleteAt key hcall
      · exact trip.stage.call_ne_updateAtSpec key spec hcall

theorem Steady.afterProceed (hplay : play steadyStep? start moves = some race)
    (hsteady : Steady start moves race) {mishap : Mishap}
    (hstep : race.openStep? (.proceed pass mishap) = some next) :
    Steady start (moves ++ [.proceed pass mishap]) next := by
  have hidentified := identified_openStep hsteady.identified hstep
  obtain ⟨trip, htrip, hnow, hstore, htrips⟩ := trips_of_proceed hstep
  have hkeeps : ∀ key, race.store.Launchable race.now key →
      next.store.Launchable next.now key := by
    intro key hlaunchable
    rw [hnow, hstore]
    exact hsteady.keeps_launchable htrip mishap hlaunchable
  have hstays : ∀ other resource, Standing start other resource moves race →
      Standing start other resource (moves ++ [.proceed pass mishap]) next :=
    fun other resource hstanding => hstanding.snoc hplay (by simp)
      fun hlaunchable => Or.inl (hkeeps resource.key hlaunchable)
  refine ⟨hidentified, fun other found resource reached hfound hstage => ?_,
    fun other found resource hfound hresource => ?_⟩
  · rcases htrips other found hfound with ⟨-, hbefore⟩ | ⟨rfl, hleads⟩
    · exact hsteady.reached other found resource reached hbefore hstage
    · rw [hstage] at hleads
      exact hleads.reaches
  · rcases htrips other found hfound with ⟨-, hbefore⟩ | ⟨rfl, hleads⟩
    · exact hstays other resource (hsteady.standing other found resource hbefore hresource)
    · obtain ⟨stage, seen⟩ := found
      obtain ⟨earlier, known⟩ := trip
      simp only at hleads hresource
      cases hleads with
      | read hclear hread hgo =>
          cases hresource
          subst hclear
          refine .abreast (sometime_last hplay ⟨⟨_, known, htrip, hread⟩, rfl, unbroken_nil _⟩) ?_
          exact hkeeps _ (Store.launchable_of_read hread (Pass.ready_of_afterRead hgo))
      | missed | found hclear hfound | launched =>
          cases hresource
          exact hstays other _ (hsteady.standing other _ _ htrip rfl)

theorem Steady.afterStep (hplay : play steadyStep? start moves = some race)
    (hsteady : Steady start moves race) (hstep : race.steadyStep? move = some next) :
    Steady start (moves ++ [move]) next := by
  cases move with
  | call call => exact hsteady.afterCall hplay hstep
  | proceed pass mishap => exact hsteady.afterProceed hplay hstep
  | clock now =>
      simp only [steadyStep?] at hstep
      split at hstep
      next hle =>
        cases hstep
        refine ⟨hsteady.identified, hsteady.reached, fun pass trip resource htrip hresource => ?_⟩
        exact (hsteady.standing pass trip resource htrip hresource).snoc hplay (by simp)
          fun hlaunchable => Or.inl (hlaunchable.mono hle)
      next => cases hstep
  | start pass key =>
      have hstore : next.store = race.store ∧ next.now = race.now := by
        cases hstep
        exact ⟨rfl, rfl⟩
      refine ⟨hstore.1 ▸ hsteady.identified, fun other found resource reached hfound hstage => ?_,
        fun other found resource hfound hresource => ?_⟩
      · rcases trips_of_start hstep hfound with ⟨-, hbefore⟩ | hnone
        · exact hsteady.reached other found resource reached hbefore hstage
        · rw [hstage] at hnone
          cases hnone
      · rcases trips_of_start hstep hfound with ⟨hne, hbefore⟩ | hnone
        · refine (hsteady.standing other found resource hbefore hresource).snoc hplay
            (fun key heq => ?_) fun hlaunchable => Or.inl ?_
          · cases heq
            exact hne rfl
          · rwa [hstore.1, hstore.2]
        · rw [hnone] at hresource
          cases hresource

theorem steady_of_play {store : Store} (hstore : store.Identified) {now : DateTime}
    (hplay : play steadyStep? { store, now } moves = some race) :
    Steady { store, now } moves race := by
  refine play_records ⟨hstore, ?_, ?_⟩ (fun _ _ _ _ hplay h hstep => h.afterStep hplay hstep) hplay
  · intro pass trip resource phase htrip
    cases htrip
  · intro pass trip resource htrip
    cases htrip

/-- When a pass gets a task created, the command of its owner may be launched:
it is there, and it has been started or its schedule has come.  Else a user has
edited or removed it since the pass read it. -/
theorem launch_due_or_overtaken {store : Store} (hstore : store.Identified) {now : DateTime}
    (hplay : play steadyStep? { store, now } moves = some race) {trip : Trip} {created : Task}
    (htrip : race.trips pass = some trip) (hstage : trip.stage = .launch resource)
    (hcreated : (race.store.createTask race.now resource.newTask).answer = .ok created) :
    ∃ owner, created.metadata.controllerOwner? = some owner ∧
      ∃ key : ObjectKey, key = ⟨created.metadata.ns, owner.name⟩ ∧
        (race.store.Launchable race.now key ∨
          ∃ seen, seen.key = key ∧
            Followed steadyStep? (Reads pass seen) (Hears (Store.Disturbs key))
              { store, now } moves) := by
  obtain ⟨owner, howner, hkey⟩ : ∃ owner, created.metadata.controllerOwner? = some owner ∧
      resource.key = ⟨created.metadata.ns, owner.name⟩ := by
    have hchange := race.store.createTask_change race.now resource.newTask
    generalize race.store.createTask race.now resource.newTask = effect at *
    cases hchange with
    | refused _ hanswer =>
        rw [hcreated] at hanswer
        cases hanswer
    | read _ hreads => cases hreads
    | addTask hfree hkey howned hshows hats htasks hanswer =>
        rw [hcreated] at hanswer
        cases hanswer
        have hmade := TaskRow.madeFor_of_ownedAs hkey howned
        obtain ⟨owner, howner, -, -, hname⟩ := hshows.controllerOwner howned.uid hmade.controller
        rw [hmade.name, Option.getD_some] at hname
        have hns : created.metadata.ns = resource.key.ns := by
          have hplace := congrArg ObjectKey.ns (hshows.key.trans hmade.place)
          exact hplace
        exact ⟨owner, howner, by rw [hns, hname]⟩
  refine ⟨owner, howner, resource.key, hkey, ?_⟩
  cases (steady_of_play hstore hplay).standing pass trip resource htrip (by rw [hstage]; rfl) with
  | abreast hread hlaunchable => exact Or.inl hlaunchable
  | overtaken hovertaken => exact Or.inr ⟨resource, rfl, hovertaken⟩

/-- Two passes have found the same new command without a task; no user
interferes. -/
theorem launch_due_of_undisturbed :
    let command : At :=
      { metadata := { name := "a" }, spec := ⟨"2024-01-01T00:00:00Z", "echo"⟩ }
    let now : DateTime := ⟨⟨2024, 1, 2⟩, 0, 0, 0, 0, some 0⟩
    let read : At :=
      { command with
        metadata :=
          { name := "a", uid := "uid-1", resourceVersion := "1", created := some now } }
    let moves : List (RaceMove Bool) :=
      [.call (.createAt command), .start false command.key, .start true command.key,
        .proceed false .nothing, .proceed true .nothing, .proceed false .nothing,
        .proceed true .nothing]
    ∃ race created owner, play steadyStep? ({ store := {}, now } : Race Bool) moves = some race ∧
      race.trips true = some ⟨.launch read, some read⟩ ∧
      (race.store.createTask race.now read.newTask).answer = .ok created ∧
      created.metadata.controllerOwner? = some owner ∧
      race.store.Launchable race.now ⟨created.metadata.ns, owner.name⟩ := by
  intro command now read moves
  let created : Task := read.newTask.stored "uid-2" now
  obtain ⟨race, hrace, htrip, hcreated⟩ :
      ∃ race ∈ play steadyStep? ({ store := {}, now } : Race Bool) moves,
        race.trips true = some ⟨.launch read, some read⟩ ∧
          (race.store.createTask race.now read.newTask).answer = .ok created := by
    decide +kernel
  obtain ⟨owner, howner, key, rfl, hlaunchable | ⟨seen, -, hovertaken⟩⟩ :=
    launch_due_or_overtaken Store.identified_empty hrace htrip rfl hcreated
  · exact ⟨race, created, owner, hrace, htrip, hcreated, howner, hlaunchable⟩
  · obtain ⟨config, move, hmove, call, rfl, hdisturbs, -⟩ := hovertaken.exists_mem
    have hcreation : call = .createAt command := by simpa [moves] using hmove
    subst hcreation
    rcases hdisturbs with hcall | ⟨spec, hcall⟩ <;> cases hcall

/-- A pass has found that a new command without a task is due.  Then a user puts
its schedule off, or removes it, and the pass creates the task all the same. -/
theorem launched_though_disturbed :
    let command : At :=
      { metadata := { name := "a" }, spec := ⟨"2024-01-01T00:00:00Z", "echo"⟩ }
    let now : DateTime := ⟨⟨2024, 1, 2⟩, 0, 0, 0, 0, some 0⟩
    let read : At :=
      { command with
        metadata :=
          { name := "a", uid := "uid-1", resourceVersion := "1", created := some now } }
    let run : List (RaceMove Unit) → Option (Race Unit) := play steadyStep? { store := {}, now }
    let moves : Call → List (RaceMove Unit) := fun disturbance =>
      [.call (.createAt command), .start () command.key, .proceed () .nothing,
        .proceed () .nothing, .call disturbance]
    (¬ ∀ moves race resource seen created, run moves = some race →
        race.trips () = some ⟨.launch resource, seen⟩ →
        (race.store.createTask race.now resource.newTask).answer = .ok created →
          race.store.Launchable race.now resource.key) ∧
      (∃ race created,
        run (moves (.updateAtSpec command.key ⟨"2030-01-01T00:00:00Z", "echo"⟩)) = some race ∧
          race.trips () = some ⟨.launch read, some read⟩ ∧
          (race.store.createTask race.now read.newTask).answer = .ok created ∧
          ¬ race.store.Launchable race.now read.key) ∧
      ∃ race created, run (moves (.deleteAt command.key)) = some race ∧
        race.trips () = some ⟨.launch read, some read⟩ ∧
        (race.store.createTask race.now read.newTask).answer = .ok created ∧
        ¬ race.store.Launchable race.now read.key := by
  intro command now read run moves
  let created : Task := read.newTask.stored "uid-2" now
  obtain ⟨edited, hedits, hcopy, hlaunch, hwaiting⟩ :
      ∃ race ∈ run (moves (.updateAtSpec command.key ⟨"2030-01-01T00:00:00Z", "echo"⟩)),
        race.trips () = some ⟨.launch read, some read⟩ ∧
          (race.store.createTask race.now read.newTask).answer = .ok created ∧
            ¬ race.store.Launchable race.now read.key := by
    decide +kernel
  obtain ⟨race, hrun, htrip, hcreated, hnot⟩ :
      ∃ race ∈ run (moves (.deleteAt command.key)),
        race.trips () = some ⟨.launch read, some read⟩ ∧
          (race.store.createTask race.now read.newTask).answer = .ok created ∧
            ¬ race.store.Launchable race.now read.key := by
    decide +kernel
  refine ⟨fun hdue => ?_, ⟨edited, created, hedits, hcopy, hlaunch, hwaiting⟩,
    ⟨race, created, hrun, htrip, hcreated, hnot⟩⟩
  exact hnot (hdue _ race read _ created hrun htrip hcreated)

end Race

end OneShot
