import OneShot.Proofs.Reconcile.Attempts
import OneShot.Proofs.Store.Versions
import OneShot.Proofs.Runs
import Mathlib.Logic.Function.Basic

/-!
# Passes in a race

Any number of passes, over the same command or over others, run at once on one
store, while other clients create and edit commands and tasks.  A pass holds a
copy of the command that it has read, and the copy may be stale by the time it
is written back.  What saves the phase is that the row remembers: as long as
the version is the one that was read, so is the phase.
-/

namespace OneShot

open Calendar

/-- A pass on its way: what it is about to do, and the command as it was
answered to its read. -/
structure Trip where
  stage : Pass.Stage
  seen : Option At := none
  deriving DecidableEq

/-- Passes that share a store. -/
structure Race (ι : Type) where
  store : Store
  now : DateTime
  trips : ι → Option Trip := fun _ => none

/-- The moves in a race. -/
inductive RaceMove (ι : Type) where
  /-- Another client makes a call. -/
  | call (call : Call)
  | clock (now : DateTime)
  /-- A pass begins; what was left of an earlier one is given up. -/
  | start (pass : ι) (key : ObjectKey)
  /-- A pass makes its next call. -/
  | proceed (pass : ι) (mishap : Mishap)

/-- The calls of clients that leave the phases and the rows to others. -/
def Call.bystands : Call → Bool
  | updateAtStatus _ | deleteAt _ => false
  | _ => true

/-- The command that a pass has read, once an answer has come. -/
def Pass.Stage.noted : (stage : Pass.Stage) → Except Fault stage.call.Reply → Option At → Option At
  | .read _, .ok resource, _ => some resource
  | .read _, .error _, seen => seen
  | .findTask _, _, seen | .launch _, _, seen | .store _ _, _, seen => seen

/-- What is left of a pass after an answer. -/
def Trip.after (trip : Trip) (now : DateTime) (answer : Except Fault trip.stage.call.Reply) :
    Option Trip :=
  match trip.stage.next now answer with
  | .goOn following => some { stage := following, seen := trip.stage.noted answer trip.seen }
  | .finished _ | .failed _ => none

namespace Trip

/-- A pass knows the command that it works on from its read, and it only
stores phases that advance. -/
structure Sound (store : Store) (trip : Trip) : Prop where
  recalled : ∀ resource, trip.stage.resource? = some resource →
    trip.seen = some resource ∧ store.Recalls resource
  forward : ∀ resource reached, trip.stage = .store resource reached →
    AtPhase.Advances resource.phase reached.text

theorem sound_start (store : Store) (key : ObjectKey) : Sound store { stage := .read key } := by
  constructor
  · intro resource hresource
    cases hresource
  · intro resource reached hstage
    cases hstage

variable {store after : Store} {trip next : Trip} {now : DateTime}

theorem Sound.onward (hsound : trip.Sound store) (honward : store.Onward after) :
    trip.Sound after := by
  refine ⟨fun resource hresource => ?_, hsound.forward⟩
  obtain ⟨hseen, hrecalls⟩ := hsound.recalled resource hresource
  exact ⟨hseen, hrecalls.onward honward⟩

theorem Sound.attempt_onward (hsound : trip.Sound store) (now : DateTime) (mishap : Mishap) :
    store.Onward (store.attempt now trip.stage.call mishap).store := by
  rcases store.attempt_cases now trip.stage.call mishap with ⟨fault, -, hquiet⟩ | ⟨-, hstore, -⟩
  · exact .of_eq hquiet.ats
  · rw [hstore]
    refine (store.serve_change now trip.stage.call).onward ?_ ?_
    · intro key hcall
      cases hstage : trip.stage <;> simp [hstage, Pass.Stage.call] at hcall
    · intro written row hcall hrow hversion
      cases hstage : trip.stage with
      | read key => simp [hstage, Pass.Stage.call] at hcall
      | findTask resource => simp [hstage, Pass.Stage.call] at hcall
      | launch resource => simp [hstage, Pass.Stage.call] at hcall
      | store resource reached =>
          simp only [hstage, Pass.Stage.call, Call.updateAtStatus.injEq] at hcall
          subst hcall
          have hrecalls := (hsound.recalled resource (by rw [hstage]; rfl)).2
          have hphase : row.phase = resource.phase := hrecalls.phase_eq hrow hversion
          exact Or.inr (hphase ▸ hsound.forward resource reached hstage)

theorem sound_of_afterRead {key : ObjectKey} {seen : Option At} {mishap : Mishap}
    (hnext : Trip.after { stage := .read key, seen } now
      (store.attempt now (.getAt key) mishap).answer = some next) : next.Sound store := by
  simp only [Trip.after, Pass.Stage.next] at hnext
  split at hnext
  next following hgo =>
    cases hnext
    obtain ⟨resource, hanswer, rfl⟩ := Pass.afterRead_goOn hgo
    obtain ⟨-, hread⟩ := store.attempt_eq_ok now (.getAt key) mishap hanswer
    refine ⟨fun found hfound => ?_, fun _ _ hstage => by cases hstage⟩
    cases hfound
    rw [hanswer]
    exact ⟨rfl, Store.recalls_of_getAt hread⟩
  next => cases hnext
  next => cases hnext

theorem Sound.afterAnswer (hsound : trip.Sound store) {resource : At}
    (hresource : trip.stage.resource? = some resource)
    {answer : Except Fault trip.stage.call.Reply} (hnext : trip.after now answer = some next) :
    next.Sound store := by
  obtain ⟨hseen, hrecalls⟩ := hsound.recalled resource hresource
  -- What follows is a launch, or a store of a phase that advances.
  have hgoes : ∀ following seen, next = { stage := following, seen } → seen = trip.seen →
      (following = .launch resource ∨ ∃ reached, following = .store resource reached ∧
        AtPhase.Advances resource.phase reached.text) → next.Sound store := by
    rintro following seen rfl rfl (rfl | ⟨reached, rfl, hadvances⟩)
    · refine ⟨fun found hfound => ?_, fun _ _ hstage => by cases hstage⟩
      cases hfound
      exact ⟨hseen, hrecalls⟩
    · refine ⟨fun found hfound => ?_, fun found phase hstage => ?_⟩
      · cases hfound
        exact ⟨hseen, hrecalls⟩
      · cases hstage
        exact hadvances
  obtain ⟨stage, seen⟩ := trip
  unfold Trip.after at hnext
  split at hnext
  next following hgo =>
    cases hnext
    cases stage with
    | read key => cases hresource
    | findTask found =>
        cases hresource
        exact hgoes _ _ rfl rfl (Pass.afterFindTask_goOn hgo)
    | launch found =>
        cases hresource
        exact hgoes _ _ rfl rfl (Or.inr (Pass.afterLaunch_goOn hgo))
    | store found reached => exact absurd hgo Pass.afterStore_goOn
  next => cases hnext
  next => cases hnext

theorem Sound.afterAttempt (hsound : trip.Sound store) {mishap : Mishap}
    (hnext : trip.after now (store.attempt now trip.stage.call mishap).answer = some next) :
    next.Sound (store.attempt now trip.stage.call mishap).store := by
  refine Sound.onward ?_ (hsound.attempt_onward now mishap)
  cases hresource : trip.stage.resource? with
  | none =>
      obtain ⟨stage, seen⟩ := trip
      cases stage with
      | read key => exact sound_of_afterRead hnext
      | findTask resource => cases hresource
      | launch resource => cases hresource
      | store resource reached => cases hresource
  | some resource => exact hsound.afterAnswer hresource hnext

end Trip

namespace Race

variable {ι : Type} [DecidableEq ι]

def step? (race : Race ι) : RaceMove ι → Option (Race ι)
  | .call call =>
      if call.bystands then
        some { race with store := (race.store.serve race.now call).store }
      else none
  | .clock now => some { race with now }
  | .start pass key =>
      some { race with trips := Function.update race.trips pass (some { stage := .read key }) }
  | .proceed pass mishap =>
      (race.trips pass).map fun trip =>
        let effect := race.store.attempt race.now trip.stage.call mishap
        { race with
          store := effect.store
          trips := Function.update race.trips pass (trip.after race.now effect.answer) }

theorem step?_proceed {race : Race ι} {pass : ι} {trip : Trip} (htrip : race.trips pass = some trip)
    (mishap : Mishap) :
    race.step? (.proceed pass mishap) =
      let effect := race.store.attempt race.now trip.stage.call mishap
      some { race with
        store := effect.store
        trips := Function.update race.trips pass (trip.after race.now effect.answer) } := by
  simp only [step?, htrip, Option.map_some]

def Sound (race : Race ι) : Prop :=
  ∀ pass trip, race.trips pass = some trip → trip.Sound race.store

omit [DecidableEq ι] in
theorem sound_of_nobody (store : Store) (now : DateTime) : Sound ({ store, now } : Race ι) := by
  intro pass trip htrip
  cases htrip

theorem Sound.afterStep {race next : Race ι} (hsound : race.Sound) {move : RaceMove ι}
    (hstep : race.step? move = some next) : next.Sound ∧ race.store.Onward next.store := by
  cases move with
  | call call =>
      simp only [step?] at hstep
      split at hstep
      next hbystands =>
        cases hstep
        have honward : race.store.Onward (race.store.serve race.now call).store := by
          refine (race.store.serve_change race.now call).onward ?_ ?_
          · rintro key rfl
            cases hbystands
          · rintro resource row rfl
            cases hbystands
        exact ⟨fun pass trip htrip => (hsound pass trip htrip).onward honward, honward⟩
      next => cases hstep
  | clock now =>
      cases hstep
      exact ⟨hsound, .refl race.store⟩
  | start pass key =>
      cases hstep
      refine ⟨fun other trip htrip => ?_, .refl race.store⟩
      by_cases heq : other = pass
      · subst heq
        simp only [Function.update_self, Option.some.injEq] at htrip
        subst htrip
        exact Trip.sound_start race.store key
      · simp only [Function.update_of_ne heq] at htrip
        exact hsound other trip htrip
  | proceed pass mishap =>
      obtain ⟨trip, htrip, rfl⟩ := Option.map_eq_some_iff.mp hstep
      have honward := (hsound pass trip htrip).attempt_onward race.now mishap
      refine ⟨fun other found hfound => ?_, honward⟩
      by_cases heq : other = pass
      · subst heq
        simp only [Function.update_self] at hfound
        exact (hsound other trip htrip).afterAttempt hfound
      · simp only [Function.update_of_ne heq] at hfound
        exact (hsound other found hfound).onward honward

theorem play_onward {race later : Race ι} {moves : List (RaceMove ι)} (hsound : race.Sound)
    (hplay : play step? race moves = some later) : later.Sound ∧ race.store.Onward later.store :=
  play_keeps (P := fun now : Race ι => now.Sound ∧ race.store.Onward now.store)
    (fun _ _ _ h hstep => ⟨(h.1.afterStep hstep).1, h.2.trans (h.1.afterStep hstep).2⟩)
    ⟨hsound, .refl race.store⟩ hplay

/-- A write that a pass gets through moves the phase that the pass has read on
to a strictly later one. -/
theorem Sound.phase_advances {race next : Race ι} (hsound : race.Sound) {pass : ι} {trip : Trip}
    (htrip : race.trips pass = some trip) {resource updated : At} {reached : AtPhase}
    (hstage : trip.stage = .store resource reached)
    (hdone : (race.store.updateAtStatus (Pass.inPhase resource reached)).answer = .ok updated)
    {mishap : Mishap} (hreaches : mishap.reaches = true)
    (hstep : race.step? (.proceed pass mishap) = some next) :
    ∃ seen row later, trip.seen = some seen ∧ race.store.atRow? seen.key = some row ∧
      next.store.atRow? seen.key = some later ∧ row.phase = seen.phase ∧
        AtPhase.Advances row.phase later.phase := by
  obtain ⟨stage, seen⟩ := trip
  simp only at hstage
  subst hstage
  obtain ⟨hseen, hrecalls⟩ := (hsound pass _ htrip).recalled resource rfl
  have hadvances := (hsound pass _ htrip).forward resource reached rfl
  have hstore : next.store =
      (race.store.updateAtStatus (Pass.inPhase resource reached)).store := by
    simp only [step?, htrip, Option.map_some, Option.some.injEq] at hstep
    subst hstep
    cases mishap with
    | nothing => rfl
    | unsent fault => cases hreaches
    | unheard fault => rfl
  have hchange := race.store.updateAtStatus_change (Pass.inPhase resource reached)
  generalize race.store.updateAtStatus (Pass.inPhase resource reached) = effect at *
  cases hchange with
  | refused _ hanswer =>
      rw [hdone] at hanswer
      cases hanswer
  | read _ hreads => cases hreads
  | @moveAt _ _ _ row hrow hversion hkey hwritten hanswer hevents =>
      have hphase : row.phase = resource.phase := hrecalls.phase_eq hrow hversion
      refine ⟨resource, row, { row with phase := reached.text, version := row.version + 1 },
        hseen, hrow, ?_, hphase, ?_⟩
      · rw [hstore, hwritten]
        exact Store.atRow?_changeAt_self (by exact fun _ => rfl) hrow
      · exact hphase ▸ hadvances

/-- However passes and other clients are interleaved on a store from which no
command is removed: what a pass writes takes the phase that it has read to a
strictly later one, and between any two moments of a run the phase of each
command keeps its place in the order or moves up, the last phase is not left,
and an unknown phase is not overwritten. -/
theorem phases_move_forward (store : Store) (now : DateTime) {moves : List (RaceMove ι)}
    {race : Race ι} (hplay : play step? { store, now } moves = some race) :
    (∀ pass trip resource reached updated mishap next, race.trips pass = some trip →
        trip.stage = .store resource reached →
        (race.store.updateAtStatus (Pass.inPhase resource reached)).answer = .ok updated →
        mishap.reaches = true → race.step? (.proceed pass mishap) = some next →
          ∃ seen row later, trip.seen = some seen ∧ race.store.atRow? seen.key = some row ∧
            next.store.atRow? seen.key = some later ∧ row.phase = seen.phase ∧
              ∃ before after, AtPhase.rank? row.phase = some before ∧
                AtPhase.rank? later.phase = some after ∧ before < after) ∧
      ∀ following last key row, play step? race following = some last →
        race.store.atRow? key = some row →
          ∃ later, last.store.atRow? key = some later ∧
            (∀ rank, AtPhase.rank? row.phase = some rank →
              ∃ rank', AtPhase.rank? later.phase = some rank' ∧ rank ≤ rank') ∧
            (row.phase = AtPhase.done.text → later.phase = AtPhase.done.text) ∧
            (AtPhase.rank? row.phase = none → later.phase = row.phase) := by
  have hsound := (play_onward (sound_of_nobody store now) hplay).1
  constructor
  · intro pass trip resource reached updated mishap next htrip hstage hdone hreaches hstep
    exact hsound.phase_advances htrip hstage hdone hreaches hstep
  · intro following last key row hfollowing hrow
    obtain ⟨later, hlater, honward⟩ := (play_onward hsound hfollowing).2 key row hrow
    refine ⟨later, hlater, fun rank hrank => honward.phase.rank_le hrank, fun hdone => ?_,
      honward.phase.eq_of_unknown⟩
    exact AtPhase.Onward.eq_done (hdone ▸ honward.phase)

/-- Two passes have read the same new command.  The first one creates the task
and is about to store the phase, while the second one is still behind. -/
theorem phases_move_forward_of_rivals :
    let key : ObjectKey := ⟨"default", "a"⟩
    let command : At :=
      { metadata := { name := "a" }, spec := ⟨"2024-01-01T00:00:00Z", "echo"⟩ }
    let now : DateTime := ⟨⟨2024, 1, 2⟩, 0, 0, 0, 0, some 0⟩
    let read : At :=
      { command with
        metadata :=
          { name := "a", uid := "uid-1", resourceVersion := "1", created := some now } }
    let moves : List (RaceMove Bool) :=
      [.call (.createAt command), .start false key, .start true key, .proceed false .nothing,
        .proceed true .nothing, .proceed false .nothing, .proceed false .nothing]
    ∃ race next : Race Bool, play step? { store := {}, now } moves = some race ∧
      race.trips false = some ⟨.store read .running, some read⟩ ∧
      race.step? (.proceed false .nothing) = some next ∧
      (∃ seen row later, some read = some seen ∧ race.store.atRow? seen.key = some row ∧
        next.store.atRow? seen.key = some later ∧ row.phase = seen.phase ∧
          ∃ before after, AtPhase.rank? row.phase = some before ∧
            AtPhase.rank? later.phase = some after ∧ before < after) ∧
      ∃ row later, race.store.atRow? key = some row ∧ row.phase = "" ∧
        next.store.atRow? key = some later ∧
          ∃ rank', AtPhase.rank? later.phase = some rank' ∧ 0 ≤ rank' := by
  intro key command now read moves
  obtain ⟨race, hrace⟩ : ∃ race, play step? ({ store := {}, now } : Race Bool) moves = some race :=
    Option.isSome_iff_exists.mp (by decide +kernel)
  have htrip : race.trips false = some ⟨.store read .running, some read⟩ := by
    have hrun : (play step? ({ store := {}, now } : Race Bool) moves).bind
        (fun race => race.trips false) = some ⟨.store read .running, some read⟩ := by
      decide +kernel
    rwa [hrace] at hrun
  obtain ⟨updated, hupdated⟩ : ∃ updated,
      (race.store.updateAtStatus (Pass.inPhase read .running)).answer = .ok updated := by
    have hrun : (play step? ({ store := {}, now } : Race Bool) moves).any (fun race =>
        (race.store.updateAtStatus (Pass.inPhase read .running)).answer.isOk) = true := by
      decide +kernel
    rw [hrace, Option.any_some] at hrun
    cases hanswer : (race.store.updateAtStatus (Pass.inPhase read .running)).answer with
    | ok updated => exact ⟨updated, rfl⟩
    | error fault =>
        rw [hanswer] at hrun
        cases hrun
  obtain ⟨row, hrow, hphase⟩ : ∃ row, race.store.atRow? key = some row ∧ row.phase = "" := by
    have hrun : (play step? ({ store := {}, now } : Race Bool) moves).bind (fun race =>
        (race.store.atRow? key).map AtRow.phase) = some "" := by
      decide +kernel
    rw [hrace] at hrun
    exact Option.map_eq_some_iff.mp hrun
  obtain ⟨next, hnext⟩ : ∃ next, race.step? (.proceed false .nothing) = some next := by
    simp only [step?, htrip, Option.map_some]
    exact ⟨_, rfl⟩
  have hforward := phases_move_forward {} now hrace
  refine ⟨race, next, hrace, htrip, hnext, ?_, ?_⟩
  · exact hforward.1 false _ read .running updated .nothing next htrip rfl hupdated rfl hnext
  · obtain ⟨later, hlater, hrank, -, -⟩ :=
      hforward.2 [.proceed false .nothing] next key row (by simp [hnext]) hrow
    exact ⟨row, later, hrow, hphase, hlater, hrank 0 (by rw [hphase]; decide)⟩

end Race

end OneShot
