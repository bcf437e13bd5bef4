import OneShot.Proofs.Simulation.Calls
import OneShot.Proofs.Controller.Watch
import OneShot.Proofs.Reconcile.Race

/-!
# Worlds among the runs

In a world nobody comes in between: a worker takes a key, makes the whole pass,
settles it and gives the key back, and every change is told at once.  This is
one of the many orders in which things can happen.  A pass of a world is a run
of a race, and the move of a worker is a run of a controller, so that what
holds of all their runs holds of worlds.
-/

namespace OneShot.Simulation.World

open Calendar

/-! ## A pass among races -/

section Racing

variable {ι : Type} [DecidableEq ι]

/-- A race in which a pass has come to the store of a world. -/
def raced (world : World) (race : Race ι) (pass : ι) (trip : Option Trip) : Race ι :=
  { store := world.store, now := world.now, trips := Function.update race.trips pass trip }

theorem reaches_raced {race next : Race ι} {pass : ι} {trip : Option Trip} {world : World}
    (hreaches : Reaches Race.step? race next) (hstore : next.store = world.store)
    (htrips : next.trips = Function.update race.trips pass trip) :
    Reaches Race.step? race (world.raced race pass trip) := by
  refine hreaches.trans (.of_step (.clock world.now) ?_)
  simp only [Race.step?, raced, hstore, htrips]

theorem reaches_of_call {race : Race ι} {pass : ι} {trip : Trip} {world : World}
    (hreaches : Reaches Race.step? race (world.raced race pass (some trip)))
    (patience : Patience Float) :
    let reply := benched trip.stage.call patience world
    Reaches Race.step? race (reply.2.raced race pass (trip.after reply.2.now reply.1)) := by
  obtain ⟨mishap, met, -, hmet, -, hreply⟩ := benched_attempt trip.stage.call patience world
  have hpresent : Reaches Race.step? race (met.raced race pass (some trip)) :=
    reaches_raced hreaches hmet.symm rfl
  have htrip : (met.raced race pass (some trip)).trips pass = some trip := by
    simp [raced]
  simp only [hreply, transact_now]
  refine reaches_raced (hpresent.trans (.of_step _ (Race.step?_proceed htrip mishap))) ?_ ?_
  · rw [transact_store]
    rfl
  · simp only [raced, Function.update_idem]
    rfl

/-- A pass that nobody interrupts is a run of a race. -/
theorem run_reaches (race : Race ι) (pass : ι) {key : ObjectKey} {deadline : Deadline Float}
    {world later : World} {answer : Except Fault Pass.Result} (hstore : race.store = world.store)
    (hrun : Pass.run benched now deadline key world = (answer, later)) :
    ∃ left, Reaches Race.step? race (later.raced race pass left) := by
  have hkept : ∃ left, Reaches Race.step? race
      ((Pass.run benched now deadline key world).2.raced race pass left) := by
    refine Pass.runFrom_keeps
      (P := fun stage world => ∃ seen, Reaches Race.step? race
        (raced world race pass (some ⟨stage, seen⟩)))
      (Q := fun _ world => ∃ left, Reaches Race.step? race (raced world race pass left)) ?_ ?_ ?_
    · rintro stage state expired later ⟨seen, hreaches⟩ hleft
      exact ⟨_, reaches_raced hreaches (remaining_frame hleft).2.1.symm rfl⟩
    · rintro stage state limit later ⟨seen, hreaches⟩ hleft
      have hstill : Reaches Race.step? race (later.raced race pass (some ⟨stage, seen⟩)) :=
        reaches_raced hreaches (remaining_frame hleft).2.1.symm rfl
      have hmoved := reaches_of_call hstill (.stated limit)
      simp only [Trip.after] at hmoved ⊢
      cases hnext : stage.next (benched stage.call (.stated limit) later).2.now
          (benched stage.call (.stated limit) later).1 with
      | goOn following =>
          rw [hnext] at hmoved
          exact ⟨_, hmoved⟩
      | finished result => exact ⟨_, hmoved⟩
      | failed fault => exact ⟨_, hmoved⟩
    · exact ⟨none, reaches_raced (.of_step (.start pass key) rfl) hstore rfl⟩
  rwa [hrun] at hkept

/-- A worker of a world takes every stored command onward. -/
theorem processNext_onward (world : World) (timeout : Option Float) :
    world.store.Onward (world.processNext timeout).2.store := by
  have hworked := world.processNext_worked timeout
  generalize (world.processNext timeout).2 = after at hworked
  cases hworked with
  | nothing hget => exact .of_eq (congrArg Store.ats (get_frame hget).2)
  | @passed key queue settled deadline answer later begun ended last hget hafter hrun hsettle =>
      have hbegun : begun.store = world.store := (deadline_frame hafter).2.trans (get_frame hget).2
      obtain ⟨left, moves, hplay⟩ := run_reaches
        ({ store := world.store, now := world.now } : Race Unit) () (by exact hbegun.symm) hrun
      have honward := (Race.play_onward (Race.sound_of_nobody _ _) hplay).2
      exact honward.trans (.of_eq (congrArg Store.ats (settle_frame hsettle).2))

end Racing

/-! ## A worker among controllers -/

section Watching

variable {ι : Type} [DecidableEq ι]

/-- A controller in a world, by whose clock its queue goes. -/
def watched (world : World) (queue : WorkQueue ObjectKey Float) (pending : List ChangeEvent)
    (posts : ι → Post Float) : Controller ι Float World :=
  { store := world.store, now := world.now, queue, clock := world, pending, posts }

/-- Some moves of a controller lead to a world. -/
def Follows (world : World) (policy : DispatchPolicy Float) (start : Controller ι Float World)
    (queue : WorkQueue ObjectKey Float) (pending : List ChangeEvent) (posts : ι → Post Float) :
    Prop :=
  Reaches (Controller.step? policy secondsOfMicros) start (world.watched queue pending posts)

variable {policy : DispatchPolicy Float} {start : Controller ι Float World} {world : World}
variable {pending : List ChangeEvent} {posts : ι → Post Float}

theorem follows_of_reaches {next : Controller ι Float World}
    (hreaches : Reaches (Controller.step? policy secondsOfMicros) start next)
    (hstore : next.store = world.store) (hbacklog : next.backlog = []) :
    world.Follows policy start next.queue next.pending next.posts := by
  refine hreaches.trans (.of_step (.clock world.now world) ?_)
  simp only [Controller.step?, watched, hstore, hbacklog]

theorem reaches_adds (keys : List ObjectKey) (next : Controller ι Float World) :
    Reaches (Controller.step? policy secondsOfMicros) next
      { next with queue := keys.foldl WorkQueue.add next.queue } := by
  induction keys generalizing next with
  | nil => exact .refl _ next
  | cons key rest ih =>
      have hadd : Controller.step? policy secondsOfMicros next (.add key) =
          some { next with queue := next.queue.add key } := rfl
      exact (Reaches.of_step _ hadd).trans (ih { next with queue := next.queue.add key })

theorem Follows.afterTell (hfollows : world.Follows policy start world.queue pending posts)
    (listener : Listener) (event : ChangeEvent) :
    (tell listener event world).Follows policy start (tell listener event world).queue pending
      posts := by
  cases listener with
  | observer => exact follows_of_reaches hfollows rfl rfl
  | controller => exact follows_of_reaches (hfollows.trans (reaches_adds event.affected _)) rfl rfl
  | runner => exact follows_of_reaches hfollows rfl rfl

/-- A change that everybody is told of is delivered to the controller once it
is its turn. -/
theorem Follows.afterBroadcast (hwatches : .controller ∈ world.broadcast.handlers)
    {event : ChangeEvent}
    (hfollows : world.Follows policy start world.queue (event :: pending) posts) :
    (world.broadcast.publish tell event world).Follows policy start
      (world.broadcast.publish tell event world).queue pending posts := by
  obtain ⟨before, after, hsplit⟩ := List.append_of_mem hwatches
  have hbefore := broadcast_keeps
    (P := fun world => world.Follows policy start world.queue (event :: pending) posts)
    (fun listener _ h => h.afterTell listener event) before hfollows
  unfold Broadcast.publish
  rw [hsplit, List.foldl_append, List.foldl_cons]
  refine broadcast_keeps (P := fun world => world.Follows policy start world.queue pending posts)
    (fun listener _ h => h.afterTell listener event) after ?_
  generalize before.foldl (fun world handler => tell handler event world) world = reached at *
  have hdeliver : Controller.step? policy secondsOfMicros
      (reached.watched reached.queue (event :: pending) posts) (.deliver event) =
        some (reached.watched (event.affected.foldl WorkQueue.add reached.queue) pending
          posts) := by
    simp [Controller.step?, watched]
  exact follows_of_reaches (hbefore.trans (.of_step _ hdeliver)) rfl rfl

theorem Follows.afterPublish (hwatches : .controller ∈ world.broadcast.handlers)
    {events : List ChangeEvent}
    (hfollows : world.Follows policy start world.queue events posts) :
    (world.publish events).Follows policy start (world.publish events).queue [] posts := by
  unfold publish
  induction events generalizing world with
  | nil => exact hfollows
  | cons event rest ih =>
      have halike : world.Alike (world.broadcast.publish tell event world) :=
        broadcast_keeps (P := world.Alike) (fun listener _ h => tell_alike listener event h)
          world.broadcast.handlers ⟨.refl world, rfl, rfl⟩
      exact ih (halike.broadcast ▸ hwatches) (hfollows.afterBroadcast hwatches)

variable {worker : ι} {key : ObjectKey} {deadline : Deadline Float}

/-- The call of a stage is a move of its worker, and what it changes is
delivered before anything else happens. -/
theorem Follows.afterCall (hwatches : .controller ∈ world.broadcast.handlers)
    {stage : Pass.Stage} {limit : Option Float} {later : World}
    (hfollows : world.Follows policy start world.queue []
      (Function.update posts worker (.passing key deadline stage)))
    (hleft : deadline.remaining world = (.ok limit, later)) :
    let reply := benched stage.call (.stated limit) later
    .controller ∈ reply.2.broadcast.handlers ∧
      reply.2.Follows policy start reply.2.queue []
        (Function.update posts worker
          (.after secondsOfMicros key deadline (stage.next reply.2.now reply.1))) := by
  obtain ⟨hframe, hstore, hqueue⟩ := remaining_frame hleft
  obtain ⟨mishap, met, hmetFrame, hmetStore, hmetQueue, hreply⟩ :=
    benched_attempt stage.call (.stated limit) later
  have hstill : .controller ∈ met.broadcast.handlers :=
    (hframe.trans hmetFrame).broadcast ▸ hwatches
  -- The time of the call passes before the call reaches the store.
  have htimed : Reaches (Controller.step? policy secondsOfMicros) start
      { world.watched world.queue []
          (Function.update posts worker (.passing key deadline stage)) with now := met.now } :=
    hfollows.trans (.of_step (.clock met.now world) rfl)
  have hproceed : Controller.step? policy secondsOfMicros
      { world.watched world.queue []
          (Function.update posts worker (.passing key deadline stage)) with now := met.now }
      (.proceed worker mishap) =
        some { world.watched world.queue (met.store.attempt met.now stage.call mishap).events
          (Function.update posts worker (.after secondsOfMicros key deadline
            (stage.next met.now (met.store.attempt met.now stage.call mishap).answer))) with
            now := met.now
            clock := later
            store := (met.store.attempt met.now stage.call mishap).store } := by
    simp [Controller.step?, watched, hleft, hmetStore, hstore]
  have hattempted : Follows
      { met with store := (met.store.attempt met.now stage.call mishap).store } policy start
      met.queue (met.store.attempt met.now stage.call mishap).events
      (Function.update posts worker (.after secondsOfMicros key deadline
        (stage.next met.now (met.store.attempt met.now stage.call mishap).answer))) := by
    rw [hmetQueue, hqueue]
    exact follows_of_reaches (htimed.trans (.of_step _ hproceed)) rfl rfl
  simp only [hreply, transact_now]
  exact ⟨(transact_frame met _).broadcast ▸ hstill,
    Follows.afterPublish (by exact hstill) hattempted⟩

theorem Follows.afterRun (hwatches : .controller ∈ world.broadcast.handlers)
    (hfollows : world.Follows policy start world.queue []
      (Function.update posts worker (.passing key deadline (.read key))))
    {answer : Except Fault Pass.Result} {later : World}
    (hrun : Pass.run benched now deadline key world = (answer, later)) :
    later.Follows policy start later.queue []
      (Function.update posts worker (.settling key (Pass.outcome secondsOfMicros answer))) := by
  have hkept : Follows (Pass.run benched now deadline key world).2 policy start
      (Pass.run benched now deadline key world).2.queue []
      (Function.update posts worker (.settling key
        (Pass.outcome secondsOfMicros (Pass.run benched now deadline key world).1))) := by
    refine Pass.runFrom_keeps
      (P := fun stage world => .controller ∈ world.broadcast.handlers ∧
        Follows world policy start world.queue []
          (Function.update posts worker (.passing key deadline stage)))
      (Q := fun answer world => Follows world policy start world.queue []
        (Function.update posts worker (.settling key (Pass.outcome secondsOfMicros answer))))
      ?_ ?_ ⟨hwatches, hfollows⟩
    · rintro stage state expired later ⟨-, hreached⟩ hleft
      obtain ⟨-, hstore, hqueue⟩ := remaining_frame hleft
      have hfail : Controller.step? policy secondsOfMicros
          (state.watched state.queue []
            (Function.update posts worker (.passing key deadline stage)))
          (.proceed worker .nothing) =
            some { state.watched state.queue [] (Function.update posts worker
              (.after secondsOfMicros key deadline (.failed (.timedOut .expired)))) with
              clock := later } := by
        simp [Controller.step?, watched, hleft]
      rw [hqueue]
      exact follows_of_reaches (hreached.trans (.of_step _ hfail)) hstore.symm rfl
    · rintro stage state limit later ⟨hstill, hreached⟩ hleft
      have hcalled := Follows.afterCall hstill hreached hleft
      simp only at hcalled ⊢
      cases hnext : stage.next (benched stage.call (.stated limit) later).2.now
          (benched stage.call (.stated limit) later).1 with
      | goOn following =>
          rw [hnext] at hcalled
          exact hcalled
      | finished result =>
          rw [hnext] at hcalled
          exact hcalled.2
      | failed fault =>
          rw [hnext] at hcalled
          exact hcalled.2
  rwa [hrun] at hkept

/-- What a worker that looked for a key has found. -/
def Found (world : World) (policy : DispatchPolicy Float) (start : Controller ι Float World)
    (queue : WorkQueue ObjectKey Float) (posts : ι → Post Float) (worker : ι) :
    Option ObjectKey → Prop
  | none => world.Follows policy start queue [] posts
  | some key =>
      let (deadline, world) := Deadline.after policy.timeout world
      world.Follows policy start queue []
        (Function.update posts worker (.passing key deadline (.read key)))

theorem Follows.afterLook {queue after : WorkQueue ObjectKey Float} {deadline : Option Float}
    {finding : WorkQueue.Finding ObjectKey Float} {later : World}
    (hfollows : world.Follows policy start queue [] posts) (hidle : posts worker = .idle)
    (hlook : queue.look deadline world = (finding, after, later)) :
    later.Found policy start after posts worker finding.key? := by
  have hstore : later.store = world.store :=
    WorkQueue.look_clock (P := fun other : World => other.store = world.store) (fun _ h => h) rfl
      hlook
  cases hkey : finding.key? with
  | none =>
      have hstep : Controller.step? policy secondsOfMicros (world.watched queue [] posts)
          (.look worker deadline) = some { world.watched after [] posts with clock := later } := by
        simp [Controller.step?, watched, hidle, hlook, hkey]
      exact follows_of_reaches (hfollows.trans (.of_step _ hstep)) hstore.symm rfl
  | some key =>
      have hstep : Controller.step? policy secondsOfMicros (world.watched queue [] posts)
          (.look worker deadline) =
            some { world.watched after [] (Function.update posts worker
              (.passing key (Deadline.after policy.timeout later).1 (.read key))) with
              clock := (Deadline.after policy.timeout later).2 } := by
        simp [Controller.step?, watched, hidle, hlook, hkey]
      exact follows_of_reaches (hfollows.trans (.of_step _ hstep))
        (hstore.symm.trans (deadline_frame rfl).2.symm) rfl

theorem Follows.afterGet {queue after : WorkQueue ObjectKey Float} {timeout : Option Float}
    {receipt : WorkQueue.Receipt ObjectKey} {later : World}
    (hfollows : world.Follows policy start queue [] posts) (hidle : posts worker = .idle)
    (hget : queue.get timeout world = (receipt, after, later)) :
    later.Found policy start after posts worker receipt.key? := by
  have hwithin : ∀ (deadline : Option Float) (turns : Nat) (world : World),
      world.Follows policy start queue [] posts →
        WorkQueue.getWithin deadline turns queue world = (receipt, after, later) →
          later.Found policy start after posts worker receipt.key? := by
    intro deadline turns world hfollows hget
    refine WorkQueue.getWithin_keeps
      (P := fun queue world => Follows world policy start queue [] posts)
      (Q := fun receipt queue world => Found world policy start queue posts worker receipt.key?)
      (fun _ _ h => h) ?_ hfollows hget
    intro queue world finding after later hfollows hlook
    have hfound := hfollows.afterLook hidle hlook
    cases finding with
    | delivered key => exact hfound
    | nothing => exact hfound
    | asleep duration => exact follows_of_reaches hfound rfl rfl
  unfold WorkQueue.get at hget
  cases timeout with
  | none => exact hwithin none _ world hfollows hget
  | some duration =>
      exact hwithin _ _ (Clock.read world).2 (follows_of_reaches hfollows rfl rfl) hget

theorem Follows.afterSettle {outcome : PassOutcome Float} {settled : WorkQueue ObjectKey Float}
    {later : World}
    (hfollows : world.Follows policy start world.queue []
      (Function.update posts worker (.settling key outcome)))
    (hidle : posts worker = .idle)
    (hsettle : world.queue.settle policy key outcome world = (settled, later)) :
    Follows { later with queue := settled.done key } policy start (settled.done key) [] posts := by
  have hsettled : Controller.step? policy secondsOfMicros
      (world.watched world.queue [] (Function.update posts worker (.settling key outcome)))
      (.settle worker) =
        some { world.watched settled [] (Function.update posts worker (.leaving key)) with
          clock := later } := by
    simp [Controller.step?, watched, hsettle]
  have hreturned : Controller.step? policy secondsOfMicros
      { world.watched settled [] (Function.update posts worker (.leaving key)) with
          clock := later } (.giveBack worker) =
        some { world.watched (settled.done key) [] posts with clock := later } := by
    simp [Controller.step?, watched, ← hidle]
  exact follows_of_reaches ((hfollows.trans (.of_step _ hsettled)).trans (.of_step _ hreturned))
    (settle_frame hsettle).2.symm rfl

/-- A worker that takes a key, makes its pass, settles it and gives the key
back makes the moves of a worker of a controller. -/
theorem Follows.afterWorked
    (hfollows : world.Follows world.terms.policy start world.queue [] posts)
    (hwatches : .controller ∈ world.broadcast.handlers) (hidle : posts worker = .idle)
    {timeout : Option Float} {after : World}
    (hworked : world.Worked timeout after) :
    after.Follows world.terms.policy start after.queue [] posts := by
  cases hworked with
  | nothing hget hnone =>
      have hfound := hfollows.afterGet hidle hget
      rw [hnone] at hfound
      exact follows_of_reaches hfound rfl rfl
  | @passed key queue settled deadline answer later begun ended last hget hafter hrun hsettle =>
      have hfound := hfollows.afterGet hidle hget
      simp only [Found, WorkQueue.Receipt.key?, hafter] at hfound
      have hbegun : Follows { begun with queue } world.terms.policy start queue []
          (Function.update posts worker (.passing key deadline (.read key))) :=
        follows_of_reaches hfound rfl rfl
      have hstill := ((get_frame hget).1.trans (deadline_frame hafter).1).broadcast ▸ hwatches
      exact (Follows.afterRun (by exact hstill) hbegun hrun).afterSettle hidle hsettle

/-- A call of another client is a move beside the controller; tasks are created
for commands only. -/
theorem Follows.afterDirect (hfollows : world.Follows policy start world.queue [] posts)
    (hwatches : .controller ∈ world.broadcast.handlers) {call : Call}
    (hderives : call.Derives) (patience : Patience Float) :
    (direct call patience world).2.Follows policy start (direct call patience world).2.queue []
      posts := by
  have hserved : Reaches (Controller.step? policy secondsOfMicros)
      (world.watched world.queue [] posts)
      { world.watched world.queue (world.store.serve world.now call).events posts with
        store := (world.store.serve world.now call).store } := by
    cases call with
    | createTask task =>
        obtain ⟨resource, rfl⟩ := hderives
        exact .of_step (.launch resource) rfl
    | getAt key => exact .of_step (.call (.getAt key)) rfl
    | listAts ns => exact .of_step (.call (.listAts ns)) rfl
    | updateAtStatus resource => exact .of_step (.call (.updateAtStatus resource)) rfl
    | getTask key => exact .of_step (.call (.getTask key)) rfl
    | createAt resource => exact .of_step (.call (.createAt resource)) rfl
    | updateAtSpec key spec => exact .of_step (.call (.updateAtSpec key spec)) rfl
    | deleteAt key => exact .of_step (.call (.deleteAt key)) rfl
    | listTasks ns => exact .of_step (.call (.listTasks ns)) rfl
    | updateTaskStatus key status => exact .of_step (.call (.updateTaskStatus key status)) rfl
  have hcommitted : Follows { world with store := (world.store.serve world.now call).store }
      policy start world.queue (world.store.serve world.now call).events posts :=
    follows_of_reaches (hfollows.trans hserved) rfl rfl
  exact Follows.afterPublish (by exact hwatches) hcommitted

theorem reaches_syncs (next : Controller ι Float World) :
    Reaches (Controller.step? policy secondsOfMicros) next
      { next with backlog := [], queue := next.backlog.foldl WorkQueue.add next.queue } := by
  obtain ⟨store, now, queue, clock, backlog, pending, posts⟩ := next
  induction backlog generalizing queue with
  | nil => exact .refl _ _
  | cons key rest ih =>
      have hsync : Controller.step? policy secondsOfMicros
          ⟨store, now, queue, clock, key :: rest, pending, posts⟩ .sync =
            some ⟨store, now, queue.add key, clock, rest, pending, posts⟩ := rfl
      exact (Reaches.of_step _ hsync).trans (ih (queue.add key))

/-- A controller that has been started has subscribed, and has synced the
commands that it has listed. -/
theorem follows_of_startController {limiter : Backoff ObjectKey Float} {after : World}
    (hnotified : world.terms.notified = true) (hqueue : world.queue = { limiter })
    (hstart : world.startController = (.ok (), after)) :
    .controller ∈ after.broadcast.handlers ∧ ∃ ats, world.store.listAts none = .ok ats ∧
      after.Follows policy (Controller.started world.store ats limiter world.now world)
        after.queue [] (fun _ : ι => .idle) := by
  unfold startController syncAll at hstart
  simp only [hnotified, if_true] at hstart
  split at hstart
  next fault later hfailed => cases hstart
  next ats later hlisted =>
    cases hstart
    obtain ⟨hlist, hframe, hstore, hlaterQueue⟩ := benched_listAts hlisted
    refine ⟨by simp [hframe.broadcast, Broadcast.subscribe], ats, hlist, ?_⟩
    have hsyncs : Reaches (Controller.step? policy secondsOfMicros)
        (Controller.started world.store ats limiter world.now world : Controller ι Float World) _ :=
      reaches_syncs _
    have hsynced := follows_of_reaches hsyncs hstore.symm rfl
    have hadded : (ats.map At.key).foldl WorkQueue.add { limiter } =
        ats.foldl (fun queue resource => queue.add resource.key) later.queue := by
      rw [List.foldl_map, hlaterQueue, ← hqueue]
    simp only [Controller.started, hadded] at hsynced
    exact follows_of_reaches hsynced rfl rfl

/-! ## A world as it goes on -/

/-- What happens in a world once its controller has been started. -/
inductive Turn where
  | call (call : Call) (patience : Patience Float)
  | wait (seconds : Float)
  | work (timeout : Option Float)

def turn (world : World) : Turn → World
  | .call call patience => (direct call patience world).2
  | .wait seconds => world.advance seconds
  | .work timeout => (world.processNext timeout).2

theorem turn_frame (world : World) (move : Turn) : world.Frame (world.turn move) := by
  cases move with
  | call call patience => exact transact_frame world _
  | wait seconds => exact ⟨rfl, rfl⟩
  | work timeout => exact (world.processNext_worked timeout).frame

/-- However a world goes on, it is where some moves of a controller lead to. -/
theorem Follows.afterTurns (hwatches : .controller ∈ world.broadcast.handlers)
    (hfollows : world.Follows world.terms.policy start world.queue [] posts)
    (hidle : posts worker = .idle) {turns : List Turn}
    (hderives : ∀ call patience, .call call patience ∈ turns → call.Derives) :
    (turns.foldl turn world).Follows world.terms.policy start (turns.foldl turn world).queue []
      posts := by
  induction turns generalizing world with
  | nil => exact hfollows
  | cons move rest ih =>
      have hframe := world.turn_frame move
      have hnext : (world.turn move).Follows world.terms.policy start (world.turn move).queue []
          posts := by
        cases move with
        | call call patience =>
            exact hfollows.afterDirect hwatches (hderives call patience List.mem_cons_self) patience
        | wait seconds => exact follows_of_reaches hfollows rfl rfl
        | work timeout =>
            exact hfollows.afterWorked hwatches hidle (world.processNext_worked timeout)
      rw [← hframe.terms] at hnext ⊢
      refine ih (hframe.broadcast ▸ hwatches) hnext ?_
      intro call patience hcall
      exact hderives call patience (List.mem_cons_of_mem move hcall)

end Watching

end OneShot.Simulation.World
