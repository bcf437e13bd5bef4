import OneShot.Proofs.Controller.Posts
import OneShot.Proofs.Queue.Exclusion
import OneShot.Proofs.Queue.Settling

/-!
# No command is left behind

A controller watches a store: committed changes are delivered to it and put the
commands that they concern on its queue, and its workers make passes over them.
Users, other controllers and the tasks themselves change the store at any time,
calls fail, and clocks move.

A command is flagged while it is dirty or waits in the queue, while a change of
it has yet to be delivered, or while the initial sync has yet to add it.  The
invariant is that a command that needs work is flagged or in flight, and that
a worker knows what it knows, see `Post.Sound`, unless its command is flagged.
So a worker may forget a command only when that needs no work.
-/

namespace OneShot

open Calendar

variable {ι τ ω : Type}

/-- A store under the eyes of a controller. -/
structure Controller (ι τ ω : Type) where
  store : Store
  now : DateTime
  queue : WorkQueue ObjectKey τ
  clock : ω
  /-- The commands that the initial sync has listed and not yet added. -/
  backlog : List ObjectKey := []
  /-- The committed changes that have yet to be delivered. -/
  pending : List ChangeEvent := []
  posts : ι → Post τ := fun _ => .idle

/-- The moves around a controller. -/
inductive ControllerMove (ι τ ω : Type) where
  /-- Somebody makes a call, but for the creation of a task. -/
  | call (call : Call)
  /-- Another controller creates the task of a command. -/
  | launch (resource : At)
  /-- A committed change is delivered. -/
  | deliver (event : ChangeEvent)
  /-- The initial sync adds the next command. -/
  | sync
  | add (key : ObjectKey)
  | clock (now : DateTime) (clock : ω)
  | look (worker : ι) (deadline : Option τ)
  /-- A worker makes the next call of its pass. -/
  | proceed (worker : ι) (mishap : Mishap)
  | settle (worker : ι)
  | giveBack (worker : ι)

def Call.createsTask : Call → Bool
  | createTask _ => true
  | _ => false

theorem Call.derives_of_not_createsTask {call : Call} (h : call.createsTask = false) :
    call.Derives := by
  cases call <;> trivial

namespace Controller

/-- A controller that has subscribed and listed the commands there are. -/
def started (store : Store) (ats : List At) (limiter : Backoff ObjectKey τ) (now : DateTime)
    (clock : ω) : Controller ι τ ω :=
  { store, now, clock, queue := { limiter }, backlog := ats.map At.key }

section Steps

variable [DecidableEq ι] [Add τ] [Sub τ] [OfNat τ 0] [BEq τ] [LT τ] [DecidableLT τ] [LE τ]
variable [DecidableLE τ] [Clock ω τ]

def step? (policy : DispatchPolicy τ) (seconds : Int → τ) (controller : Controller ι τ ω) :
    ControllerMove ι τ ω → Option (Controller ι τ ω)
  | .call call =>
      if call.createsTask then none
      else
        let effect := controller.store.serve controller.now call
        some { controller with
          store := effect.store, pending := controller.pending ++ effect.events }
  | .launch resource =>
      let effect := controller.store.createTask controller.now resource.newTask
      some { controller with
        store := effect.store, pending := controller.pending ++ effect.events }
  | .deliver event =>
      if event ∈ controller.pending then
        some { controller with
          pending := controller.pending.erase event
          queue := event.affected.foldl WorkQueue.add controller.queue }
      else none
  | .sync =>
      match controller.backlog with
      | [] => none
      | key :: rest =>
          some { controller with backlog := rest, queue := controller.queue.add key }
  | .add key => some { controller with queue := controller.queue.add key }
  | .clock now clock => some { controller with now, clock }
  | .look worker deadline =>
      match controller.posts worker with
      | .idle =>
          let (finding, queue, clock) := controller.queue.look deadline controller.clock
          match finding.key? with
          | none => some { controller with queue, clock }
          | some key =>
              let (deadline, clock) := Deadline.after policy.timeout clock
              some { controller with
                queue, clock
                posts := Function.update controller.posts worker
                  (.passing key deadline (.read key)) }
      | _ => none
  | .proceed worker mishap =>
      match controller.posts worker with
      | .passing key deadline stage =>
          match deadline.remaining controller.clock with
          | (.error _, clock) =>
              some { controller with
                clock
                posts := Function.update controller.posts worker
                  (.after seconds key deadline (.failed (.timedOut .expired))) }
          | (.ok _, clock) =>
              let effect := controller.store.attempt controller.now stage.call mishap
              some { controller with
                clock
                store := effect.store
                pending := controller.pending ++ effect.events
                posts := Function.update controller.posts worker
                  (.after seconds key deadline (stage.next controller.now effect.answer)) }
      | _ => none
  | .settle worker =>
      match controller.posts worker with
      | .settling key outcome =>
          let (queue, clock) := controller.queue.settle policy key outcome controller.clock
          some { controller with
            queue, clock
            posts := Function.update controller.posts worker (.leaving key) }
      | _ => none
  | .giveBack worker =>
      match controller.posts worker with
      | .leaving key =>
          some { controller with
            queue := controller.queue.done key
            posts := Function.update controller.posts worker .idle }
      | _ => none

/-- Whether the fault of a call tells the truth, see `Pass.Stage.bears`. -/
def honest (controller : Controller ι τ ω) : ControllerMove ι τ ω → Bool
  | .proceed worker mishap =>
      match controller.posts worker with
      | .passing _ _ stage => stage.honest controller.store controller.now mishap
      | _ => true
  | _ => true

/-- What follows a move if no fault pretends that an object is missing or
there. -/
def honestStep? (policy : DispatchPolicy τ) (seconds : Int → τ) (controller : Controller ι τ ω)
    (move : ControllerMove ι τ ω) : Option (Controller ι τ ω) :=
  if controller.honest move then controller.step? policy seconds move else none

end Steps

/-! ## The invariant -/

def Flagged (controller : Controller ι τ ω) (key : ObjectKey) : Prop :=
  controller.queue.Expects key ∨ (∃ event ∈ controller.pending, key ∈ event.affected) ∨
    key ∈ controller.backlog

structure Sound (controller : Controller ι τ ω) : Prop where
  orderly : controller.store.Orderly
  consistent : controller.queue.Consistent
  accepting : controller.queue.shuttingDown = false
  staffed : Staffed controller.queue fun worker => (controller.posts worker).key?
  watched : ∀ worker key, (controller.posts worker).key? = some key →
    controller.Flagged key ∨ (controller.posts worker).Sound controller.store
  tracked : ∀ key, controller.store.NeedsWork key →
    controller.Flagged key ∨ key ∈ controller.queue.inFlight

variable {controller next : Controller ι τ ω}

/-- Whatever only adds flags is harmless. -/
theorem Sound.afterKeeps (hsound : controller.Sound) (hstore : next.store = controller.store)
    (hposts : next.posts = controller.posts) (hkeeps : controller.queue.Keeps next.queue)
    (hflags : ∀ key, controller.Flagged key → next.Flagged key) : next.Sound where
  orderly := hstore ▸ hsound.orderly
  consistent := hkeeps.consistent hsound.consistent
  accepting := hkeeps.shuttingDown.trans hsound.accepting
  staffed := hposts ▸ hsound.staffed.of_eq hkeeps.inFlight
  watched worker key hkey := by
    rw [hposts] at hkey ⊢
    rw [hstore]
    exact (hsound.watched worker key hkey).imp_left (hflags key)
  tracked key hneeds := by
    rw [hstore] at hneeds
    rw [hkeeps.inFlight]
    exact (hsound.tracked key hneeds).imp_left (hflags key)

theorem Flagged.afterEvents {events : List ChangeEvent} {key : ObjectKey}
    (hflagged : controller.Flagged key) (hqueue : next.queue = controller.queue)
    (hbacklog : next.backlog = controller.backlog)
    (hpending : next.pending = controller.pending ++ events) : next.Flagged key := by
  rcases hflagged with hexpects | ⟨event, hevent, haffected⟩ | hlisted
  · exact Or.inl (hqueue ▸ hexpects)
  · exact Or.inr (Or.inl ⟨event, hpending ▸ List.mem_append_left events hevent, haffected⟩)
  · exact Or.inr (Or.inr (hbacklog ▸ hlisted))

theorem flagged_of_told {events : List ChangeEvent} {key : ObjectKey}
    (htold : ∃ event ∈ events, key ∈ event.affected)
    (hpending : next.pending = controller.pending ++ events) : next.Flagged key := by
  obtain ⟨event, hevent, haffected⟩ := htold
  exact Or.inr (Or.inl ⟨event, hpending ▸ List.mem_append_right _ hevent, haffected⟩)

theorem Sound.afterChange (hsound : controller.Sound) {events : List ChangeEvent}
    (hqueue : next.queue = controller.queue) (hbacklog : next.backlog = controller.backlog)
    (hposts : next.posts = controller.posts)
    (hpending : next.pending = controller.pending ++ events) (horderly : next.store.Orderly)
    (htold : ∀ key, (∃ event ∈ events, key ∈ event.affected) ∨
      Store.Undisturbed controller.store next.store key) : next.Sound := by
  refine ⟨horderly, hqueue ▸ hsound.consistent, hqueue ▸ hsound.accepting, ?_, ?_, ?_⟩
  · rw [hqueue, hposts]
    exact hsound.staffed
  · intro worker key hkey
    rw [hposts] at hkey ⊢
    rcases htold key with htold | hsame
    · exact Or.inl (flagged_of_told htold hpending)
    · rcases hsound.watched worker key hkey with hflagged | hknown
      · exact Or.inl (hflagged.afterEvents hqueue hbacklog hpending)
      · exact Or.inr (hknown.of_undisturbed hkey hsame)
  · intro key hneeds
    rw [hqueue]
    rcases htold key with htold | hsame
    · exact Or.inl (flagged_of_told htold hpending)
    · exact (hsound.tracked key (hneeds.of_undisturbed hsame)).imp_left
        fun hflagged => hflagged.afterEvents hqueue hbacklog hpending

theorem Sound.afterDeliver (hsound : controller.Sound) (event : ChangeEvent) :
    Sound { controller with
      pending := controller.pending.erase event
      queue := event.affected.foldl WorkQueue.add controller.queue } := by
  have hkeeps := WorkQueue.foldl_add_keeps event.affected controller.queue
  refine hsound.afterKeeps rfl rfl hkeeps ?_
  rintro key (hexpects | ⟨other, hother, haffected⟩ | hlisted)
  · exact Or.inl (hkeeps.expects key hexpects)
  · by_cases heq : other = event
    · subst heq
      exact Or.inl (WorkQueue.foldl_add_expects haffected hsound.accepting)
    · exact Or.inr (Or.inl ⟨other, (List.mem_erase_of_ne heq).mpr hother, haffected⟩)
  · exact Or.inr (Or.inr hlisted)

theorem Sound.afterSync (hsound : controller.Sound) {key : ObjectKey} {rest : List ObjectKey}
    (hbacklog : controller.backlog = key :: rest) :
    Sound { controller with backlog := rest, queue := controller.queue.add key } := by
  have hkeeps := WorkQueue.add_keeps controller.queue key
  refine hsound.afterKeeps rfl rfl hkeeps ?_
  rintro other (hexpects | htold | hlisted)
  · exact Or.inl (hkeeps.expects other hexpects)
  · exact Or.inr (Or.inl htold)
  · rw [hbacklog] at hlisted
    rcases List.mem_cons.mp hlisted with rfl | hrest
    · exact Or.inl (Or.inl (WorkQueue.mem_dirty_add hsound.accepting other))
    · exact Or.inr (Or.inr hrest)

/-- What a look leaves of the queue before it takes a key, if it takes one. -/
structure Found (queue found : WorkQueue ObjectKey τ) : Prop where
  keeps : queue.Keeps found
  consistent : found.Consistent
  accepting : found.shuttingDown = false

theorem Sound.afterNothing (hsound : controller.Sound) {found : WorkQueue ObjectKey τ}
    (hfound : Found controller.queue found) (clock : ω) :
    Sound { controller with queue := found, clock } :=
  hsound.afterKeeps rfl rfl hfound.keeps fun key hflagged =>
    hflagged.imp_left (hfound.keeps.expects key)

section Looking

variable [Sub τ] [OfNat τ 0] [BEq τ] [LT τ] [DecidableLT τ] [LE τ] [DecidableLE τ]
variable [Clock ω τ]

theorem Sound.look_found (hsound : controller.Sound) {deadline : Option τ} {clock : ω}
    {finding : WorkQueue.Finding ObjectKey τ} {after : WorkQueue ObjectKey τ}
    (hlook : controller.queue.look deadline controller.clock = (finding, after, clock)) :
    ∃ found, Found controller.queue found ∧ found.Taking finding.key? after := by
  have hstart : Found controller.queue controller.queue :=
    ⟨.refl _, hsound.consistent, hsound.accepting⟩
  refine WorkQueue.look_taking (fun queue now _ hfound => ?_) hstart hlook
  refine ⟨hfound.keeps.trans ⟨fun h => h.afterPromote now, WorkQueue.promote_inFlight now,
    WorkQueue.promote_shuttingDown now, fun _ h => h.afterPromoteFrom hfound.accepting now _⟩,
    hfound.consistent.afterPromote now,
    (WorkQueue.promote_shuttingDown now).trans hfound.accepting⟩

end Looking

variable [DecidableEq ι]

theorem key?_update (posts : ι → Post τ) (worker : ι) (post : Post τ) :
    (fun other => (Function.update posts worker post other).key?) =
      Function.update (fun other => (posts other).key?) worker post.key? := by
  funext other
  by_cases heq : other = worker
  · subst heq
    simp
  · simp [heq]

theorem Sound.afterPost (hsound : controller.Sound) {worker : ι} {post : Post τ} {key : ObjectKey}
    (hkey : (controller.posts worker).key? = some key) (hsame : post.key? = some key)
    (hpost : controller.Flagged key ∨ post.Sound controller.store) :
    Sound { controller with posts := Function.update controller.posts worker post } := by
  have hholds : (fun other => (Function.update controller.posts worker post other).key?) =
      fun other => (controller.posts other).key? := by
    rw [key?_update, hsame, ← hkey]
    exact Function.update_eq_self worker _
  refine ⟨hsound.orderly, hsound.consistent, hsound.accepting, ?_, ?_, hsound.tracked⟩
  · exact hholds ▸ hsound.staffed
  · intro other held hheld
    by_cases heq : other = worker
    · subst heq
      simp only [Function.update_self] at hheld ⊢
      rw [hsame, Option.some.injEq] at hheld
      subst hheld
      exact hpost
    · simp only [Function.update_of_ne heq] at hheld ⊢
      exact hsound.watched other held hheld

/-! ## What every move keeps -/

theorem Sound.afterTaking (hsound : controller.Sound) {found after : WorkQueue ObjectKey τ}
    (hfound : Found controller.queue found) {key : ObjectKey}
    (hdeliver : found.deliver? = some (key, after)) {worker : ι}
    (hidle : controller.posts worker = .idle) (clock : ω) (deadline : Deadline τ) :
    Sound { controller with
      queue := after, clock
      posts := Function.update controller.posts worker (.passing key deadline (.read key)) } := by
  have htaking : found.Taking (some key) after := .delivered hdeliver
  have hfree : key ∉ controller.queue.inFlight :=
    hfound.keeps.inFlight ▸ htaking.not_inFlight hfound.consistent rfl
  -- Only the key that is taken may lose its flag.
  have hflags : ∀ other, other ≠ key → controller.Flagged other →
      Flagged { controller with
        queue := after, clock
        posts := Function.update controller.posts worker (.passing key deadline (.read key)) }
        other := by
    rintro other hne (hexpects | hrest)
    · refine Or.inl ((hfound.keeps.expects other hexpects).afterTaking htaking ?_)
      exact fun heq => hne (Option.some.inj heq).symm
    · exact Or.inr hrest
  refine ⟨hsound.orderly, htaking.consistent hfound.consistent, ?_, ?_, ?_, ?_⟩
  · exact (WorkQueue.shuttingDown_of_deliver? hdeliver).trans hfound.accepting
  · rw [key?_update]
    exact (hsound.staffed.of_eq hfound.keeps.inFlight).afterTaking hfound.consistent htaking worker
  · intro other held hheld
    by_cases heq : other = worker
    · subst heq
      simp only [Function.update_self] at hheld ⊢
      cases hheld
      exact Or.inr rfl
    · simp only [Function.update_of_ne heq] at hheld ⊢
      have hne : held ≠ key := fun h =>
        hfree (h ▸ hsound.staffed.inFlight other held hheld)
      exact (hsound.watched other held hheld).imp_left (hflags held hne)
  · intro other hneeds
    by_cases heq : other = key
    · exact Or.inr ((htaking.mem_inFlight other).mpr (Or.inl (heq ▸ rfl)))
    · refine (hsound.tracked other hneeds).imp (hflags other heq) fun hflying => ?_
      exact (htaking.mem_inFlight other).mpr (Or.inr (hfound.keeps.inFlight ▸ hflying))

/-- A worker gives a key back when its command is flagged, or needs no work. -/
theorem Sound.afterGiveBack (hsound : controller.Sound) {worker : ι} {key : ObjectKey}
    (hleaving : controller.posts worker = .leaving key) :
    Sound { controller with
      queue := controller.queue.done key
      posts := Function.update controller.posts worker .idle } := by
  have hholds : (controller.posts worker).key? = some key := by rw [hleaving]; rfl
  have hflying := hsound.staffed.inFlight worker key hholds
  have hflags : ∀ other, controller.Flagged other →
      Flagged { controller with
        queue := controller.queue.done key
        posts := Function.update controller.posts worker .idle } other :=
    fun other hflagged => hflagged.imp_left fun hexpects => hexpects.of_eq rfl rfl
  refine ⟨hsound.orderly, hsound.consistent.afterDone hflying, hsound.accepting, ?_, ?_, ?_⟩
  · rw [key?_update]
    exact hsound.staffed.afterDone hsound.consistent hholds
  · intro other held hheld
    by_cases heq : other = worker
    · subst heq
      simp [Post.key?] at hheld
    · simp only [Function.update_of_ne heq] at hheld ⊢
      exact (hsound.watched other held hheld).imp_left (hflags held)
  · intro other hneeds
    by_cases heq : other = key
    · subst heq
      rcases hsound.watched worker other hholds with hflagged | hknown
      · exact Or.inl (hflags other hflagged)
      · rw [hleaving] at hknown
        exact absurd hneeds hknown
    · refine (hsound.tracked other hneeds).imp (hflags other) fun hstill => ?_
      exact (WorkQueue.mem_inFlight_done hsound.consistent other).mpr ⟨heq, hstill⟩

theorem Sound.afterExpiry (hsound : controller.Sound) (seconds : Int → τ) {worker : ι}
    {key : ObjectKey} {deadline : Deadline τ} {stage : Pass.Stage}
    (hpost : controller.posts worker = .passing key deadline stage) (clock : ω) :
    Sound { controller with
      clock
      posts := Function.update controller.posts worker
        (.after seconds key deadline (.failed (.timedOut .expired))) } := by
  have hholds : (controller.posts worker).key? = some key := by rw [hpost]; rfl
  have hclock : Sound { controller with clock } :=
    hsound.afterKeeps rfl rfl (.refl _) fun _ hflagged => hflagged
  exact hclock.afterPost hholds (Post.key?_after seconds key deadline _)
    (Or.inr (Post.sound_failed _ seconds key deadline _))

theorem Sound.afterProceed (hsound : controller.Sound) (seconds : Int → τ) {worker : ι}
    {key : ObjectKey} {deadline : Deadline τ} {stage : Pass.Stage} {mishap : Mishap}
    (hpost : controller.posts worker = .passing key deadline stage)
    (hhonest : stage.honest controller.store controller.now mishap = true) (clock : ω) :
    let effect := controller.store.attempt controller.now stage.call mishap
    Sound { controller with
      clock
      store := effect.store
      pending := controller.pending ++ effect.events
      posts := Function.update controller.posts worker
        (.after seconds key deadline (stage.next controller.now effect.answer)) } := by
  intro effect
  have hderives : stage.call.Derives := by
    cases stage with
    | launch resource => exact ⟨resource, rfl⟩
    | read key | findTask resource | store resource reached => trivial
  have hholds : (controller.posts worker).key? = some key := by rw [hpost]; rfl
  have hchanged : Sound { controller with
      clock, store := effect.store, pending := controller.pending ++ effect.events } :=
    hsound.afterChange rfl rfl rfl rfl
      (Store.attempt_orderly hsound.orderly hderives controller.now mishap)
      (Store.attempt_told hsound.orderly hderives controller.now mishap)
  refine hchanged.afterPost hholds (Post.key?_after seconds key deadline _) ?_
  rcases hsound.watched worker key hholds with hflagged | hknown
  · exact Or.inl (hflagged.afterEvents rfl rfl rfl)
  · rw [hpost] at hknown
    exact (Pass.Stage.Sound.afterAttempt hknown hsound.orderly hhonest seconds deadline).imp_left
      fun htold => flagged_of_told htold rfl

section Passing

variable [Add τ] [OfNat τ 0] [LT τ] [DecidableLT τ] [LE τ] [DecidableLE τ] [Clock ω τ]

/-- A worker settles what came of its pass.  Its command is flagged then,
unless it needs no work. -/
theorem Sound.afterSettle (hsound : controller.Sound) {policy : DispatchPolicy τ}
    (hretries : policy.maxRetries = none) {worker : ι} {key : ObjectKey} {outcome : PassOutcome τ}
    (hpost : controller.posts worker = .settling key outcome) (clock : ω) :
    Sound { controller with
      queue := (controller.queue.settle policy key outcome controller.clock).1
      clock
      posts := Function.update controller.posts worker (.leaving key) } := by
  have hkeeps := WorkQueue.settle_keeps key controller.clock controller.queue policy outcome
  have hsettled : Sound { controller with
      queue := (controller.queue.settle policy key outcome controller.clock).1, clock } :=
    hsound.afterKeeps rfl rfl hkeeps fun other hflagged =>
      hflagged.imp_left (hkeeps.expects other)
  have hholds : (controller.posts worker).key? = some key := by rw [hpost]; rfl
  refine hsettled.afterPost hholds rfl ?_
  rcases hsettled.watched worker key hholds with hflagged | hknown
  · exact Or.inl hflagged
  · by_cases hover : outcome = .finished none
    · right
      subst hover
      simp only [hpost] at hknown
      exact hknown
    · exact Or.inl (Or.inl
        (WorkQueue.settle_expects key controller.clock hretries hover hsound.accepting))

end Passing

/-! ## The main statement -/

section Steps

variable [Add τ] [Sub τ] [OfNat τ 0] [BEq τ] [LT τ] [DecidableLT τ] [LE τ] [DecidableLE τ]
variable [Clock ω τ]

theorem Sound.afterStep {policy : DispatchPolicy τ} (hretries : policy.maxRetries = none)
    {seconds : Int → τ} (hsound : controller.Sound) {move : ControllerMove ι τ ω}
    (hstep : controller.honestStep? policy seconds move = some next) : next.Sound := by
  unfold honestStep? at hstep
  split at hstep
  next hhonest =>
    cases move with
    | call call =>
        simp only [step?] at hstep
        split at hstep
        next => cases hstep
        next hcall =>
          cases hstep
          have hderives := Call.derives_of_not_createsTask (by simpa using hcall)
          have hchange := controller.store.serve_change controller.now call
          exact hsound.afterChange rfl rfl rfl rfl (hchange.orderly hsound.orderly hderives)
            (hchange.told hsound.orderly hderives)
    | launch resource =>
        cases hstep
        have hderives : Call.Derives (.createTask resource.newTask) := ⟨resource, rfl⟩
        have hchange := controller.store.createTask_change controller.now resource.newTask
        exact hsound.afterChange rfl rfl rfl rfl (hchange.orderly hsound.orderly hderives)
          (hchange.told hsound.orderly hderives)
    | deliver event =>
        simp only [step?] at hstep
        split at hstep
        next =>
          cases hstep
          exact hsound.afterDeliver event
        next => cases hstep
    | sync =>
        simp only [step?] at hstep
        split at hstep
        next => cases hstep
        next key rest hbacklog =>
          cases hstep
          exact hsound.afterSync hbacklog
    | add key =>
        cases hstep
        have hkeeps := WorkQueue.add_keeps controller.queue key
        exact hsound.afterKeeps rfl rfl hkeeps fun other hflagged =>
          hflagged.imp_left (hkeeps.expects other)
    | clock now clock =>
        cases hstep
        exact hsound.afterKeeps rfl rfl (.refl _) fun other hflagged => hflagged
    | look worker deadline =>
        simp only [step?] at hstep
        split at hstep
        next hidle =>
          cases hlook : controller.queue.look deadline controller.clock with
          | mk finding rest =>
              obtain ⟨after, clock⟩ := rest
              obtain ⟨found, hfound, htaking⟩ := hsound.look_found hlook
              rw [hlook] at hstep
              simp only at hstep
              split at hstep
              next hnothing =>
                rw [hnothing] at htaking
                cases htaking
                cases hstep
                exact hsound.afterNothing hfound clock
              next key htaken =>
                rw [htaken] at htaking
                cases htaking with
                | delivered hdeliver =>
                    cases hstep
                    exact hsound.afterTaking hfound hdeliver hidle _ _
        next => cases hstep
    | proceed worker mishap =>
        simp only [step?] at hstep
        split at hstep
        next key deadline stage hpost =>
          split at hstep
          next =>
            cases hstep
            exact hsound.afterExpiry seconds hpost _
          next =>
            cases hstep
            simp only [honest, hpost] at hhonest
            exact hsound.afterProceed seconds hpost hhonest _
        next => cases hstep
    | settle worker =>
        simp only [step?] at hstep
        split at hstep
        next key outcome hpost =>
          cases hstep
          exact hsound.afterSettle hretries hpost _
        next => cases hstep
    | giveBack worker =>
        simp only [step?] at hstep
        split at hstep
        next key hleaving =>
          cases hstep
          exact hsound.afterGiveBack hleaving
        next => cases hstep
  next => cases hstep

omit [Sub τ] [BEq τ] [Add τ] [OfNat τ 0] [LT τ] [DecidableLT τ] [LE τ] [DecidableLE τ]
  [Clock ω τ] [DecidableEq ι] in
theorem started_sound {store : Store} {ats : List At} (horderly : store.Orderly)
    (hlist : store.listAts none = .ok ats) (limiter : Backoff ObjectKey τ) (now : DateTime)
    (clock : ω) : Sound (started store ats limiter now clock : Controller ι τ ω) := by
  refine ⟨horderly, WorkQueue.consistent_empty limiter, rfl, staffed_nobody _, ?_, ?_⟩
  · intro worker key hkey
    cases hkey
  · rintro key ⟨row, hrow, -⟩
    exact Or.inl (Or.inr (Or.inr (Store.key_mem_of_listAts hlist hrow)))

/-- Whatever users, tasks, other controllers, clocks and failing calls do: once
the initial sync is over, a command that needs work is dirty, in flight or
waiting, or a committed change that concerns it has yet to be delivered.  A
failing call may report any fault, as long as it does not pretend that an
object is missing, or is there already, where a pass goes by that. -/
theorem nothing_left_behind (policy : DispatchPolicy τ) (hretries : policy.maxRetries = none)
    (seconds : Int → τ) {store : Store} {ats : List At} (horderly : store.Orderly)
    (hlist : store.listAts none = .ok ats) (limiter : Backoff ObjectKey τ) (now : DateTime)
    (clock : ω) {moves : List (ControllerMove ι τ ω)} {controller : Controller ι τ ω}
    (hplay : play (honestStep? policy seconds) (started store ats limiter now clock) moves =
      some controller) (hsynced : controller.backlog = []) :
    ∀ key, controller.store.NeedsWork key →
      key ∈ controller.queue.dirty ∨ key ∈ controller.queue.inFlight ∨
        (∃ moment, Assoc.get? controller.queue.waiting key = some moment) ∨
        ∃ event ∈ controller.pending, key ∈ event.affected := by
  intro key hneeds
  have hsound : controller.Sound :=
    play_keeps (fun _ _ _ h hstep => h.afterStep hretries hstep)
      (started_sound horderly hlist limiter now clock) hplay
  rcases hsound.tracked key hneeds with
    ((hdirty | ⟨moment, hwaiting, -⟩) | hpending | hlisted) | hflying
  · exact Or.inl hdirty
  · exact Or.inr (Or.inr (Or.inl ⟨moment, hwaiting⟩))
  · exact Or.inr (Or.inr (Or.inr hpending))
  · rw [hsynced] at hlisted
    cases hlisted
  · exact Or.inr (Or.inl hflying)

end Steps

/-- A read that fails for a passing reason leaves the command waiting. -/
theorem nothing_left_behind_of_failed_read :
    let key : ObjectKey := ⟨"default", "a"⟩
    let command : At :=
      { metadata := { name := "a" }, spec := ⟨"2024-01-01T00:00:00Z", "echo"⟩ }
    let now : DateTime := ⟨⟨2024, 1, 2⟩, 0, 0, 0, 0, some 0⟩
    let policy : DispatchPolicy Int := { conflictDelay := 0 }
    let start : Controller Unit Int (HandClock Int) :=
      started {} [] { base := 1, maximum := 300 } now ⟨0⟩
    let moves : List (ControllerMove Unit Int (HandClock Int)) :=
      [.call (.createAt command), .deliver { kind := .at, type := .added, key }, .look () none,
        .proceed () (.unsent (.transient .database)), .settle (), .giveBack ()]
    policy.maxRetries = none ∧ ({} : Store).Orderly ∧ ({} : Store).listAts none = .ok [] ∧
      ∃ controller, play (honestStep? policy id) start moves = some controller ∧
        controller.backlog = [] ∧ controller.store.NeedsWork key ∧
          (key ∈ controller.queue.dirty ∨ key ∈ controller.queue.inFlight ∨
            (∃ moment, Assoc.get? controller.queue.waiting key = some moment) ∨
            ∃ event ∈ controller.pending, key ∈ event.affected) := by
  intro key command now policy start moves
  obtain ⟨controller, hplay⟩ : ∃ controller,
      play (honestStep? policy id) start moves = some controller :=
    Option.isSome_iff_exists.mp (by decide +kernel)
  have hsynced : controller.backlog = [] := by
    have hrun : (play (honestStep? policy id) start moves).map (·.backlog) = some [] := by
      decide +kernel
    rw [hplay] at hrun
    exact Option.some.inj hrun
  have hneeds : controller.store.NeedsWork key := by
    have hrun : (play (honestStep? policy id) start moves).bind
        (fun controller => (controller.store.atRow? key).map AtRow.phase) = some "" := by
      decide +kernel
    rw [hplay] at hrun
    obtain ⟨row, hrow, hphase⟩ := Option.map_eq_some_iff.mp hrun
    exact ⟨row, hrow, Or.inl (by rw [hphase]; decide)⟩
  refine ⟨rfl, Store.orderly_empty, rfl, controller, hplay, hsynced, hneeds, ?_⟩
  exact nothing_left_behind policy rfl id Store.orderly_empty rfl _ now ⟨0⟩ hplay hsynced key
    hneeds

/-- Nothing is on the queue of a controller or on the way to it. -/
def rests (controller : Controller ι τ ω) : Bool :=
  controller.backlog.isEmpty && controller.pending.isEmpty && controller.queue.dirty.isEmpty &&
    controller.queue.inFlight.isEmpty && controller.queue.waiting.isEmpty

omit [DecidableEq ι] in
theorem not_tracked_of_rests (hrests : controller.rests = true) (key : ObjectKey) :
    controller.backlog = [] ∧
      ¬ (key ∈ controller.queue.dirty ∨ key ∈ controller.queue.inFlight ∨
        (∃ moment, Assoc.get? controller.queue.waiting key = some moment) ∨
        ∃ event ∈ controller.pending, key ∈ event.affected) := by
  simp only [rests, Bool.and_eq_true, List.isEmpty_iff] at hrests
  obtain ⟨⟨⟨⟨hbacklog, hpending⟩, hdirty⟩, hflying⟩, hwaiting⟩ := hrests
  simp [hbacklog, hpending, hdirty, hflying, hwaiting, Assoc.get?]

/-- Faults that are free to lie make a worker forget a command that needs work:
that the command is missing, that the task of a running command is missing
although it has ended, or that it is there although it is missing. -/
theorem left_behind_by_false_absence :
    let key : ObjectKey := ⟨"default", "a"⟩
    let command : At :=
      { metadata := { name := "a" }, spec := ⟨"2024-01-01T00:00:00Z", "echo"⟩ }
    let running : At := { command with phase := "RUNNING" }
    let owner : Option OwnerReference := some running.ownerReference
    let run : List (ControllerMove Unit Int (HandClock Int)) →
        Option (Controller Unit Int (HandClock Int)) :=
      play (step? { conflictDelay := 0 } id)
        (started {} [] { base := 1, maximum := 300 } ⟨⟨2024, 1, 2⟩, 0, 0, 0, 0, some 0⟩ ⟨0⟩)
    (¬ ∀ moves controller, run moves = some controller → controller.backlog = [] →
        ∀ key, controller.store.NeedsWork key →
          key ∈ controller.queue.dirty ∨ key ∈ controller.queue.inFlight ∨
            (∃ moment, Assoc.get? controller.queue.waiting key = some moment) ∨
            ∃ event ∈ controller.pending, key ∈ event.affected) ∧
      (∃ controller, run
          [.call (.createAt running), .launch running,
            .call (.updateTaskStatus key.forTask { phase := .succeeded }),
            .deliver { kind := .at, type := .added, key },
            .deliver { kind := .task, type := .added, key := key.forTask, owner },
            .deliver { kind := .task, type := .modified, key := key.forTask, owner },
            .look () none, .proceed () .nothing,
            .proceed () (.unsent (.notFound .task key.forTask)), .proceed () .nothing,
            .settle (), .giveBack ()] = some controller ∧
        (controller.rests && decide (controller.store.NeedsWork key)) = true) ∧
      (∃ controller, run
          [.call (.createAt running), .deliver { kind := .at, type := .added, key },
            .look () none, .proceed () .nothing, .proceed () .nothing,
            .proceed () (.unsent (.alreadyExists .task key.forTask)), .settle (),
            .giveBack ()] = some controller ∧
        (controller.rests && decide (controller.store.NeedsWork key)) = true) := by
  intro key command running owner run
  have hoverlooks : ∀ moves,
      (run moves).any (fun controller =>
        controller.rests && decide (controller.store.NeedsWork key)) = true →
      ∃ controller, run moves = some controller ∧
        (controller.rests && decide (controller.store.NeedsWork key)) = true := by
    intro moves hany
    cases hrun : run moves with
    | none =>
        rw [hrun] at hany
        cases hany
    | some controller =>
        rw [hrun] at hany
        exact ⟨controller, rfl, hany⟩
  refine ⟨?_, ?_, ?_⟩
  · intro heach
    obtain ⟨controller, hrun, hboth⟩ := hoverlooks
      [.call (.createAt command), .deliver { kind := .at, type := .added, key }, .look () none,
        .proceed () (.unsent (.notFound .at key)), .settle (), .giveBack ()] (by decide +kernel)
    obtain ⟨hrests, hneeds⟩ := Bool.and_eq_true_iff.mp hboth
    obtain ⟨hsynced, hlost⟩ := not_tracked_of_rests hrests key
    exact hlost (heach _ controller hrun hsynced key (of_decide_eq_true hneeds))
  · exact hoverlooks _ (by decide +kernel)
  · exact hoverlooks _ (by decide +kernel)

end Controller

end OneShot
