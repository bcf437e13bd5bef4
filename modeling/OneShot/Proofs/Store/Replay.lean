import OneShot.Proofs.Store.VersionedMap
import OneShot.Broadcast
import Mathlib.Data.Finset.Basic
import Mathlib.Data.Finset.SDiff

/-!
# Following a store by its events

Whoever adds a key when it is told that an object was added, and drops it when
it is told that the object was deleted, has the keys that are stored.  What the
handlers make of the events does not matter: one that fails keeps no other from
being told, and what was published stays published.
-/

namespace OneShot

open Calendar

/-- The keys of the objects of a kind, as far as an event tells of them. -/
def ChangeEvent.follow (kind : ResourceKind) (keys : Finset ObjectKey) (event : ChangeEvent) :
    Finset ObjectKey :=
  if event.kind = kind then
    match event.type with
    | .added => insert event.key keys
    | .modified => keys
    | .deleted => keys.erase event.key
  else keys

namespace Store

def keysOf (store : Store) : ResourceKind → Finset ObjectKey
  | .at => (store.ats.map AtRow.key).toFinset
  | .task => (store.tasks.map TaskRow.key).toFinset

variable {store after : Store} {key : ObjectKey}

/-! ## What one call tells -/

theorem keysOf_of_eq (hats : after.ats = store.ats) (htasks : after.tasks = store.tasks)
    (kind : ResourceKind) : after.keysOf kind = store.keysOf kind := by
  cases kind with
  | «at» => rw [keysOf, keysOf, hats]
  | task => rw [keysOf, keysOf, htasks]

theorem toFinset_map_append {ρ : Type} (keyOf : ρ → ObjectKey) (rows : List ρ) (row : ρ) :
    ((rows ++ [row]).map keyOf).toFinset = insert (keyOf row) (rows.map keyOf).toFinset := by
  ext other
  simp only [List.map_append, List.map_singleton, List.mem_toFinset, List.mem_append,
    List.mem_singleton, Finset.mem_insert]
  exact or_comm

theorem toFinset_map_change {ρ : Type} {keyOf : ρ → ObjectKey} {change : ρ → ρ}
    (hkey : ∀ row, keyOf (change row) = keyOf row) (key : ObjectKey) (rows : List ρ) :
    ((rows.map fun row => if keyOf row = key then change row else row).map keyOf).toFinset =
      (rows.map keyOf).toFinset := by
  rw [List.map_map]
  congr 1
  refine List.map_congr_left fun row _ => ?_
  rw [Function.comp_apply]
  split
  next => exact hkey row
  next => rfl

theorem toFinset_map_filter {ρ : Type} {keyOf : ρ → ObjectKey} {kept : ρ → Bool}
    {gone : Finset ObjectKey} {rows : List ρ}
    (hgone : ∀ row ∈ rows, keyOf row ∈ gone ↔ kept row = false) :
    ((rows.filter kept).map keyOf).toFinset = (rows.map keyOf).toFinset \ gone := by
  ext other
  rw [Finset.mem_sdiff, List.mem_toFinset, List.mem_toFinset, List.mem_map, List.mem_map]
  constructor
  · rintro ⟨row, hrow, rfl⟩
    obtain ⟨hmem, hkept⟩ := List.mem_filter.mp hrow
    refine ⟨⟨row, hmem, rfl⟩, fun hin => ?_⟩
    rw [(hgone row hmem).mp hin] at hkept
    cases hkept
  · rintro ⟨⟨row, hmem, rfl⟩, hout⟩
    refine ⟨row, List.mem_filter.mpr ⟨hmem, ?_⟩, rfl⟩
    exact eq_true_of_ne_false fun hdropped => hout ((hgone row hmem).mpr hdropped)

theorem foldl_follow_at_taskEvents (tasks : List Task) (type : EventType)
    (keys : Finset ObjectKey) :
    (tasks.map (taskEvent type)).foldl (ChangeEvent.follow .at) keys = keys := by
  induction tasks with
  | nil => rfl
  | cons task rest ih =>
      rw [List.map_cons, List.foldl_cons]
      exact ih

theorem foldl_follow_task_deleted (tasks : List Task) (keys : Finset ObjectKey) :
    (tasks.map (taskEvent .deleted)).foldl (ChangeEvent.follow .task) keys =
      keys \ (tasks.map Task.key).toFinset := by
  induction tasks generalizing keys with
  | nil => simp
  | cons task rest ih =>
      have hfirst : ChangeEvent.follow .task keys (taskEvent .deleted task) =
          keys.erase task.key := rfl
      rw [List.map_cons, List.foldl_cons, ih, hfirst, List.map_cons, List.toFinset_cons]
      ext other
      simp only [Finset.mem_sdiff, Finset.mem_erase, Finset.mem_insert]
      tauto

theorem Intact.keysOf_at_remove (hstore : store.Intact) {resource : At}
    (hresource : store.getAt key = .ok resource) :
    ((store.ats.filter fun row => row.uid != resource.metadata.uid).map AtRow.key).toFinset =
      (store.keysOf .at).erase resource.key := by
  obtain ⟨gone, hgone, hshows⟩ := getAt_eq_ok hresource
  have hgonemem : gone ∈ store.ats := List.mem_of_find?_eq_some hgone
  rw [Finset.erase_eq, keysOf]
  refine toFinset_map_filter fun row hrow => ?_
  rw [Finset.mem_singleton, bne_eq_false_iff_eq, hshows.key, hshows.uid]
  constructor
  · intro hkey
    rw [List.inj_on_of_nodup_map hstore.ats.keyed hrow hgonemem hkey]
  · intro huid
    rw [hstore.ats.eq_of_uid hrow hgonemem huid]

theorem Intact.keysOf_task_remove (hstore : store.Intact) {uid : String} {owned : List Task}
    (howned : (store.tasks.filter fun row => row.ownerUid == some uid).mapM TaskRow.toTask =
      .ok owned) :
    ((store.tasks.filter fun row => row.ownerUid != some uid).map TaskRow.key).toFinset =
      store.keysOf .task \ (owned.map Task.key).toFinset := by
  have hkeys : owned.map Task.key =
      (store.tasks.filter fun row => row.ownerUid == some uid).map TaskRow.key :=
    map_key_of_mapM_ok (fun _ _ hread => (TaskRow.shows_of_toTask hread).key) howned
  rw [hkeys]
  refine toFinset_map_filter fun row hrow => ?_
  rw [bne_eq_false_iff_eq, List.mem_toFinset, List.mem_map]
  constructor
  · rintro ⟨found, hfound, hkey⟩
    obtain ⟨hmem, hnamed⟩ := List.mem_filter.mp hfound
    rw [← List.inj_on_of_nodup_map hstore.taskKeys hmem hrow hkey]
    exact beq_iff_eq.mp hnamed
  · intro hnamed
    exact ⟨row, List.mem_filter.mpr ⟨hrow, beq_iff_eq.mpr hnamed⟩, rfl⟩

/-- The events of a call lead from the keys before it to those after it. -/
theorem Intact.follow_serve (hstore : store.Intact) (now : DateTime) (call : Call)
    (kind : ResourceKind) :
    (store.serve now call).events.foldl (ChangeEvent.follow kind) (store.keysOf kind) =
      (store.serve now call).store.keysOf kind := by
  have hchange := store.serve_change now call
  generalize store.serve now call = effect at *
  cases hchange with
  | refused hquiet | read hquiet =>
      rw [hquiet.events, keysOf_of_eq hquiet.ats hquiet.tasks]
      rfl
  | @addAt resource created _ row hfree hkey hshows hats htasks hanswer hevents =>
      rw [hevents, List.foldl_cons, List.foldl_nil]
      cases kind with
      | «at» =>
          rw [keysOf, keysOf, hats, toFinset_map_append, ← hshows.key]
          rfl
      | task =>
          rw [keysOf, keysOf, htasks]
          rfl
  | moveAt hrow hversion hkey hwritten hanswer hevents
  | editAt hkey hwritten hanswer hevents =>
      rw [hevents, hwritten, List.foldl_cons, List.foldl_nil]
      cases kind with
      | «at» => exact (toFinset_map_change (by exact fun _ => rfl) _ store.ats).symm
      | task => rfl
  | @removeAt removed resource owned _ hresource howned hats htasks hanswer hevents =>
      rw [hevents, List.foldl_append, List.foldl_cons, List.foldl_nil]
      cases kind with
      | «at» =>
          rw [foldl_follow_at_taskEvents]
          exact (hats ▸ hstore.keysOf_at_remove hresource).symm
      | task =>
          rw [foldl_follow_task_deleted]
          exact (htasks ▸ hstore.keysOf_task_remove howned).symm
  | @addTask task created _ row hfree hkey howned hshows hats htasks hanswer hevents =>
      rw [hevents, List.foldl_cons, List.foldl_nil]
      cases kind with
      | «at» =>
          rw [keysOf, keysOf, hats]
          rfl
      | task =>
          rw [keysOf, keysOf, htasks, toFinset_map_append, ← hshows.key]
          rfl
  | moveTask hrow hshows hwritten hanswer hevents =>
      rw [hevents, hwritten, List.foldl_cons, List.foldl_nil]
      cases kind with
      | «at» => rfl
      | task => exact (toFinset_map_change (by exact fun _ => rfl) _ store.tasks).symm

end Store

/-! ## A store and those that it tells -/

deriving instance DecidableEq for Broadcast

/-- A store, who has subscribed to it, what the handlers keep, and what was
published so far. -/
structure Hub (η ρ : Type) where
  store : Store := {}
  broadcast : Broadcast η
  rest : ρ
  published : List ChangeEvent := []
  deriving DecidableEq

inductive HubMove (η : Type) where
  | call (request : TimedCall)
  | subscribe (handler : η)
  | unsubscribe (handler : η)

/-- What a handler does with an event: it sees the tables, may change the
subscriptions and what is kept for it, and may fail. -/
abbrev Hearing (η ρ : Type) :=
  η → ChangeEvent → Hub η ρ → Except Fault Unit × Broadcast η × ρ

namespace Hub

variable {η ρ : Type} [DecidableEq η]

omit [DecidableEq η] in
/-- A handler that fails has done what it did until then, and no more comes of it. -/
def tell (hear : Hearing η ρ) (handler : η) (event : ChangeEvent) (hub : Hub η ρ) : Hub η ρ :=
  match hear handler event hub with
  | (.ok (), broadcast, rest) => { hub with broadcast, rest }
  | (.error _, broadcast, rest) => { hub with broadcast, rest }

def publish (hear : Hearing η ρ) (hub : Hub η ρ) (event : ChangeEvent) : Hub η ρ :=
  hub.broadcast.publish (tell hear) event { hub with published := hub.published ++ [event] }

def step? (hear : Hearing η ρ) (hub : Hub η ρ) : HubMove η → Option (Hub η ρ)
  | .call request =>
      let effect := hub.store.serve request.now request.call
      some (effect.events.foldl (publish hear) { hub with store := effect.store })
  | .subscribe handler => some { hub with broadcast := hub.broadcast.subscribe handler }
  | .unsubscribe handler => some { hub with broadcast := hub.broadcast.unsubscribe handler }

variable {hear : Hearing η ρ} {hub next : Hub η ρ}

omit [DecidableEq η] in
theorem tell_keeps (hear : Hearing η ρ) (handler : η) (event : ChangeEvent) (hub : Hub η ρ) :
    (tell hear handler event hub).store = hub.store ∧
      (tell hear handler event hub).published = hub.published := by
  unfold tell
  split <;> exact ⟨rfl, rfl⟩

omit [DecidableEq η] in
theorem publish_keeps (hear : Hearing η ρ) (hub : Hub η ρ) (event : ChangeEvent) :
    (publish hear hub event).store = hub.store ∧
      (publish hear hub event).published = hub.published ++ [event] := by
  have htold : ∀ (handlers : List η) (hub : Hub η ρ),
      (handlers.foldl (fun hub handler => tell hear handler event hub) hub).store = hub.store ∧
        (handlers.foldl (fun hub handler => tell hear handler event hub) hub).published =
          hub.published := by
    intro handlers
    induction handlers with
    | nil => exact fun hub => ⟨rfl, rfl⟩
    | cons handler rest ih =>
        intro hub
        have hfirst := tell_keeps hear handler event hub
        rw [List.foldl_cons, (ih _).1, (ih _).2]
        exact hfirst
  exact htold hub.broadcast.handlers { hub with published := hub.published ++ [event] }

omit [DecidableEq η] in
theorem foldl_publish (hear : Hearing η ρ) (events : List ChangeEvent) (hub : Hub η ρ) :
    (events.foldl (publish hear) hub).store = hub.store ∧
      (events.foldl (publish hear) hub).published = hub.published ++ events := by
  induction events generalizing hub with
  | nil => simp
  | cons event rest ih =>
      have hfirst := publish_keeps hear hub event
      have hrest := ih (publish hear hub event)
      rw [List.foldl_cons, hrest.1, hrest.2, hfirst.1, hfirst.2, List.append_assoc]
      exact ⟨rfl, rfl⟩

/-- Whoever follows what is published has the keys that are stored. -/
structure Followed (hub : Hub η ρ) : Prop where
  store : hub.store.Intact
  keys : ∀ kind, hub.published.foldl (ChangeEvent.follow kind) ∅ = hub.store.keysOf kind

theorem Followed.step {move : HubMove η} (hfollowed : hub.Followed)
    (hstep : hub.step? hear move = some next) : next.Followed := by
  cases move with
  | call request =>
      cases hstep
      have hpublished := foldl_publish hear
        (hub.store.serve request.now request.call).events
        { hub with store := (hub.store.serve request.now request.call).store }
      constructor
      · rw [hpublished.1]
        exact hfollowed.store.serve request.now request.call
      · intro kind
        rw [hpublished.1, hpublished.2, List.foldl_append, hfollowed.keys]
        exact hfollowed.store.follow_serve request.now request.call kind
  | subscribe handler =>
      cases hstep
      exact ⟨hfollowed.store, hfollowed.keys⟩
  | unsubscribe handler =>
      cases hstep
      exact ⟨hfollowed.store, hfollowed.keys⟩

theorem step?_of_refused {request : TimedCall} {fault : Fault}
    (hstep : hub.step? hear (.call request) = some next)
    (hrefused : (hub.store.serve request.now request.call).answer = .error fault) :
    next = { hub with store := next.store } ∧
      next.store.ats = hub.store.ats ∧ next.store.tasks = hub.store.tasks := by
  have hquiet := hub.store.refused_quiet request.now request.call hrefused
  simp only [step?, hquiet.events, List.foldl_nil, Option.some.injEq] at hstep
  subst hstep
  exact ⟨rfl, hquiet.ats, hquiet.tasks⟩

/-- After any calls, with any handlers, the tables are a versioned map, a call
that is refused changes nothing and tells nothing, and the keys that are stored
are those that the published events lead to. -/
theorem tables_followed_by_events {broadcast : Broadcast η} {rest : ρ} {moves : List (HubMove η)}
    (hplay : play (step? hear) { broadcast, rest } moves = some hub) :
    hub.store.VersionedMap ∧
      (∀ request next fault, hub.step? hear (.call request) = some next →
        (hub.store.serve request.now request.call).answer = .error fault →
          next = { hub with store := next.store } ∧
            next.store.ats = hub.store.ats ∧ next.store.tasks = hub.store.tasks) ∧
      ∀ kind, hub.published.foldl (ChangeEvent.follow kind) ∅ = hub.store.keysOf kind := by
  have hstart : Followed (η := η) (ρ := ρ) { broadcast, rest } := by
    refine ⟨Store.intact_empty, fun kind => ?_⟩
    cases kind <;> rfl
  have hfollowed : hub.Followed :=
    play_keeps (P := Followed) (fun _ _ _ hbefore hstep => hbefore.step hstep) hstart hplay
  exact ⟨hfollowed.store.versionedMap, fun _ _ _ => step?_of_refused, hfollowed.keys⟩

/-- One handler fails at every event and takes its subscription back; another
one counts the events. -/
theorem tables_followed_by_events_with_failing_handler :
    let now : DateTime := ⟨⟨2024, 1, 2⟩, 0, 0, 0, 0, some 0⟩
    let resource : At := { metadata := { name := "a" }, spec := ⟨"2024-01-01T00:00:00Z", "echo"⟩ }
    let task : Task := (resource.stored "uid-1" now).newTask
    let hear : Hearing Bool Nat := fun handler _ hub =>
      if handler then (.error (.transient .database), hub.broadcast.unsubscribe true, hub.rest)
      else (.ok (), hub.broadcast, hub.rest + 1)
    let moves : List (HubMove Bool) :=
      [.subscribe true, .subscribe false, .call ⟨now, .createAt resource⟩, .subscribe true,
        .call ⟨now, .createTask task⟩, .call ⟨now, .createTask task⟩,
        .call ⟨now, .createAt { resource with metadata := { name := "b" } }⟩,
        .call ⟨now, .updateTaskStatus task.key { phase := .running }⟩,
        .call ⟨now, .deleteAt resource.key⟩]
    ∃ hub, play (step? hear) { broadcast := {}, rest := 0 } moves = some hub ∧ hub.rest = 6 ∧
      hub.published.foldl (ChangeEvent.follow .at) ∅ = {⟨"default", "b"⟩} ∧
      hub.published.foldl (ChangeEvent.follow .task) ∅ = ∅ ∧ hub.store.VersionedMap := by
  intro now resource task hear moves
  let hub : Hub Bool Nat :=
    { store :=
        { ats := [⟨"uid-3", "default", "b", 1, now, "{}", "2024-01-01T00:00:00Z", "echo", ""⟩]
          issued := 3 }
      broadcast := ⟨[false]⟩
      rest := 6
      published :=
        [⟨.at, .added, ⟨"default", "a"⟩, none⟩,
          ⟨.task, .added, ⟨"default", "a-pod"⟩, task.metadata.controllerOwner?⟩,
          ⟨.at, .added, ⟨"default", "b"⟩, none⟩,
          ⟨.task, .modified, ⟨"default", "a-pod"⟩, task.metadata.controllerOwner?⟩,
          ⟨.task, .deleted, ⟨"default", "a-pod"⟩, task.metadata.controllerOwner?⟩,
          ⟨.at, .deleted, ⟨"default", "a"⟩, none⟩] }
  have hplay : play (step? hear) { broadcast := {}, rest := 0 } moves = some hub := by
    decide +kernel
  obtain ⟨hmap, -, hkeys⟩ := tables_followed_by_events hplay
  exact ⟨hub, hplay, rfl, hkeys .at, hkeys .task, hmap⟩

end Hub

end OneShot
