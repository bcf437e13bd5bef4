import OneShot.Proofs.Reconcile.Transcripts

/-!
# Passes under a deadline

A deadline takes nothing from a pass but a part at the end.  As long as the
clock shows moments before the deadline, the pass makes the calls that it makes
without one; at the first other moment it ends.
-/

namespace OneShot.Pass

open Calendar

variable {σ : Type}

/-- What a pass may observe whose deadline is a moment. -/
inductive Timely (moment : ℚ) : List (Observation ℚ) → Prop
  | nil : Timely moment []
  | expired {reading : ℚ} (hpast : moment ≤ reading) : Timely moment [.looked reading]
  | called {reading : ℚ} {rest : List (Observation ℚ)} (call : Call)
      (hahead : reading < moment) (hrest : Timely moment rest) :
      Timely moment (.looked reading :: .called call (.stated (some (moment - reading))) :: rest)

/-- The deadline made no difference to a pass. -/
structure SameCourse (free bound : Except Fault Result × Scene σ ℚ) : Prop where
  outcome : bound.1 = free.1
  calls : callsOf bound.2.transcript = callsOf free.2.transcript
  state : bound.2.state = free.2.state

/-- A pass was ended by a look at the clock that showed a moment past its
deadline, with calls still to make. -/
structure CutShort (deadline : Deadline ℚ) (free bound : Except Fault Result × Scene σ ℚ) :
    Prop where
  outcome : bound.1 = .error (.timedOut .expired)
  calls : ∃ missed, missed ≠ [] ∧
    callsOf free.2.transcript = callsOf bound.2.transcript ++ missed
  look : ∃ moment earlier reading, deadline.expiresAt = some moment ∧ moment ≤ reading ∧
    bound.2.transcript = earlier ++ [.looked reading]

/-- Just before a call the clock was read, it had not shown a moment past the
deadline, and what was left until the deadline is what the call was given. -/
structure GivenInTime (moment : ℚ) (before : List (Observation ℚ)) (patience : Patience ℚ) :
    Prop where
  look : ∃ earlier reading, before = earlier ++ [.looked reading] ∧
    patience = .stated (some (moment - reading)) ∧ 0 < moment - reading
  ahead : ∀ reading, Observation.looked reading ∈ before → reading < moment

variable {moment : ℚ} {transcript before after : List (Observation ℚ)} {call : Call}
  {patience : Patience ℚ}

theorem Timely.givenInTime (htimely : Timely moment transcript)
    (hsplit : transcript = before ++ .called call patience :: after) :
    GivenInTime moment before patience := by
  induction htimely generalizing before with
  | nil => simp at hsplit
  | expired hpast =>
      cases before with
      | nil => simp at hsplit
      | cons first others => simp at hsplit
  | @called reading rest made hahead hrest ih =>
      cases before with
      | nil => simp at hsplit
      | cons first others =>
          obtain ⟨rfl, hothers⟩ := List.cons.inj hsplit
          cases others with
          | nil =>
              obtain ⟨hmade, -⟩ := List.cons.inj hothers
              cases hmade
              constructor
              · exact ⟨[], reading, rfl, rfl, sub_pos.mpr hahead⟩
              · intro seen hseen
                cases List.mem_singleton.mp hseen
                exact hahead
          | cons second others =>
              obtain ⟨rfl, hrest⟩ := List.cons.inj hothers
              obtain ⟨⟨earlier, last, rfl, hgiven, hpositive⟩, hothers⟩ := ih hrest
              constructor
              · exact ⟨_ :: _ :: earlier, last, rfl, hgiven, hpositive⟩
              · intro seen hseen
                simp only [List.mem_cons, Observation.looked.injEq, reduceCtorEq,
                  false_or] at hseen
                rcases hseen with rfl | hseen
                · exact hahead
                · exact hothers seen hseen

section Runs

variable {service : Service σ} {wall : σ → DateTime} {stage : Stage} {scene : Scene σ ℚ}

theorem remaining_of_past (hpast : moment ≤ scene.readings 0) :
    ({ expiresAt := some moment } : Deadline ℚ).remaining scene =
      (.error {}, (Clock.read scene).2) := by
  simp only [Deadline.remaining, Clock.read, sub_nonpos, hpast, if_true]

theorem remaining_of_ahead (hahead : scene.readings 0 < moment) :
    ({ expiresAt := some moment } : Deadline ℚ).remaining scene =
      (.ok (some (moment - scene.readings 0)), (Clock.read scene).2) := by
  simp only [Deadline.remaining, Clock.read, sub_nonpos, not_le.mpr hahead, if_false]

/-- The scene after a call that was made in time. -/
def Scene.afterCall (scene : Scene σ ℚ) (service : Service σ) (moment : ℚ) (call : Call) :
    Scene σ ℚ :=
  (Scene.client service call (.stated (some (moment - scene.readings 0))) (Clock.read scene).2).2

theorem runFrom_of_ahead (hahead : scene.readings 0 < moment) :
    runFrom (Scene.client service) (fun seen : Scene σ ℚ => wall seen.state)
        { expiresAt := some moment } stage scene =
      match stage.next (wall (service stage.call scene.state).2)
          (service stage.call scene.state).1 with
      | .goOn following =>
          runFrom (Scene.client service) (fun seen : Scene σ ℚ => wall seen.state)
            { expiresAt := some moment } following
            (scene.afterCall service moment stage.call)
      | .finished result => (.ok result, scene.afterCall service moment stage.call)
      | .failed fault => (.error fault, scene.afterCall service moment stage.call) :=
  runFrom_of_left (remaining_of_ahead hahead)

theorem trace_ne_nil (stage : Stage) (state : σ) : (trace service wall stage state).1 ≠ [] := by
  cases hnext : stage.next (wall (service stage.call state).2)
      (service stage.call state).1 with
  | goOn following =>
      rw [trace_of_goOn rfl hnext]
      exact List.cons_ne_nil _ _
  | finished result =>
      rw [trace_of_finished rfl hnext]
      exact List.cons_ne_nil _ _
  | failed fault =>
      rw [trace_of_failed rfl hnext]
      exact List.cons_ne_nil _ _

/-- What a pass under a deadline goes on to observe, against the pass that
nobody hurries. -/
theorem runFrom_hurried (service : Service σ) (wall : σ → DateTime) (moment : ℚ) (stage : Stage)
    (scene : Scene σ ℚ) :
    let free := trace service wall stage scene.state
    let bound := runFrom (Scene.client service) (fun seen : Scene σ ℚ => wall seen.state)
      { expiresAt := some moment } stage scene
    ∃ seen, bound.2.transcript = scene.transcript ++ seen ∧ Timely moment seen ∧
      ((callsOf seen = free.1 ∧ bound.1 = free.2.1 ∧ bound.2.state = free.2.2) ∨
        ((∃ missed, missed ≠ [] ∧ free.1 = callsOf seen ++ missed) ∧
          (∃ earlier reading, moment ≤ reading ∧ seen = earlier ++ [.looked reading]) ∧
          bound.1 = .error (.timedOut .expired))) := by
  intro free bound
  induction hheight : stage.height using Nat.strong_induction_on generalizing stage scene with
  | _ height ih =>
      by_cases hpast : moment ≤ scene.readings 0
      · have hbound : bound = _ := runFrom_of_expired (remaining_of_past hpast)
        rw [hbound]
        refine ⟨[.looked (scene.readings 0)], rfl, .expired hpast, Or.inr ⟨?_, ?_, rfl⟩⟩
        · exact ⟨free.1, trace_ne_nil stage scene.state, rfl⟩
        · exact ⟨[], scene.readings 0, hpast, rfl⟩
      · have hahead : scene.readings 0 < moment := not_le.mp hpast
        have hbound : bound = _ := runFrom_of_ahead hahead
        have hmade : (scene.afterCall service moment stage.call).transcript =
            scene.transcript ++ [.looked (scene.readings 0),
              .called stage.call (.stated (some (moment - scene.readings 0)))] := by
          simp only [Scene.afterCall, Scene.client, Clock.read, List.append_assoc,
            List.cons_append, List.nil_append]
        cases hnext : stage.next (wall (service stage.call scene.state).2)
            (service stage.call scene.state).1 with
        | goOn following =>
            have hfree : free = _ := trace_of_goOn rfl hnext
            rw [hnext] at hbound
            have hlower : following.height < height := hheight ▸ Stage.next_height hnext
            obtain ⟨seen, hseen, htimely, hends⟩ :=
              ih following.height hlower following (scene.afterCall service moment stage.call) rfl
            rw [hbound, hfree]
            refine ⟨_, ?_, .called stage.call hahead htimely, ?_⟩
            · rw [hseen, hmade, List.append_assoc]
              rfl
            · rcases hends with ⟨hcalls, hends⟩ | ⟨⟨missed, hmissed, hcalls⟩, hlook, hends⟩
              · exact Or.inl ⟨congrArg (stage.call :: ·) hcalls, hends⟩
              · refine Or.inr ⟨⟨missed, hmissed, congrArg (stage.call :: ·) hcalls⟩, ?_, hends⟩
                obtain ⟨earlier, reading, hreading, rfl⟩ := hlook
                exact ⟨_ :: _ :: earlier, reading, hreading, rfl⟩
        | finished result =>
            have hfree : free = _ := trace_of_finished rfl hnext
            rw [hnext] at hbound
            rw [hbound, hfree]
            exact ⟨_, hmade, .called stage.call hahead .nil, Or.inl ⟨rfl, rfl, rfl⟩⟩
        | failed fault =>
            have hfree : free = _ := trace_of_failed rfl hnext
            rw [hnext] at hbound
            rw [hbound, hfree]
            exact ⟨_, hmade, .called stage.call hahead .nil, Or.inl ⟨rfl, rfl, rfl⟩⟩

/-- A deadline only cuts a pass short: it makes the calls of the pass without a
deadline and ends like it, or it is ended by a timeout with calls still to make,
and each call is made in time and with the time that is left for it. -/
theorem deadline_only_cuts_short (service : Service σ) (wall : σ → DateTime)
    (deadline : Deadline ℚ) (key : ObjectKey) (state : σ) (readings : Nat → ℚ) :
    let pass := fun limit : Deadline ℚ => run (Scene.client service)
      (fun scene : Scene σ ℚ => wall scene.state) limit key { state, readings }
    (SameCourse (pass {}) (pass deadline) ∨ CutShort deadline (pass {}) (pass deadline)) ∧
      ∀ moment, deadline.expiresAt = some moment → ∀ before call patience after,
        (pass deadline).2.transcript = before ++ .called call patience :: after →
          GivenInTime moment before patience := by
  intro pass
  obtain ⟨expiresAt⟩ := deadline
  cases expiresAt with
  | none =>
      constructor
      · exact Or.inl ⟨rfl, rfl, rfl⟩
      · intro moment hmoment
        cases hmoment
  | some moment =>
      have hfree : pass {} = _ := runFrom_unhurried service wall (.read key) { state, readings }
      obtain ⟨seen, hseen, htimely, hends⟩ :=
        runFrom_hurried service wall moment (.read key) { state, readings }
      have hfreeCalls : callsOf (pass {}).2.transcript =
          (trace service wall (.read key) state).1 := by
        rw [hfree]
        exact callsOf_map_called _ _
      have htranscript : (pass { expiresAt := some moment }).2.transcript = seen := hseen
      constructor
      · rcases hends with ⟨hcalls, hresult, hstate⟩ | ⟨⟨missed, hmissed, hcalls⟩, hlook, hresult⟩
        · apply Or.inl
          constructor
          · rw [hfree]
            exact hresult
          · rw [hfreeCalls, htranscript]
            exact hcalls
          · rw [hfree]
            exact hstate
        · apply Or.inr
          constructor
          · exact hresult
          · refine ⟨missed, hmissed, ?_⟩
            rw [hfreeCalls, htranscript]
            exact hcalls
          · obtain ⟨earlier, reading, hreading, hlast⟩ := hlook
            exact ⟨moment, earlier, reading, rfl, hreading, htranscript.trans hlast⟩
      · intro limit hlimit before call patience after hsplit
        cases hlimit
        exact htimely.givenInTime (htranscript.symm.trans hsplit)

end Runs

end OneShot.Pass
