import OneShot.Proofs.Store.VersionedMap

/-!
# Owners of tasks

A removal takes along the tasks that name the uid of the removed command.  So
no removal leaves a task behind whose owner is gone.  A creation asks for no
owner, though: the table declares that the owner of a task is stored, and
nothing keeps a task out whose owner is not there any more.
-/

namespace OneShot.Store

open Calendar

/-- A command with this uid is stored. -/
def HasUid (store : Store) (uid : String) : Prop :=
  ∃ owner ∈ store.ats, owner.uid = uid

/-- A task is created for an owner that is not stored. -/
def CreatesUnowned (uid owner : String) (store : Store) (request : TimedCall) : Prop :=
  ∃ task created, request.call = .createTask task ∧
    (store.createTask request.now task).answer = .ok created ∧ created.metadata.uid = uid ∧
    task.metadata.storedOwner?.map (·.uid) = some owner ∧ ¬ store.HasUid owner

variable {store next : Store} {request : TimedCall} {uid : String}

/-- A call keeps a command, or it removes the command and the tasks that it
owns. -/
theorem hasUid_or_removed (now : DateTime) (call : Call) (hthere : store.HasUid uid) :
    (store.serve now call).store.HasUid uid ∨
      ∀ row ∈ (store.serve now call).store.tasks, row.ownerUid ≠ some uid := by
  obtain ⟨owner, howner, rfl⟩ := hthere
  have hchanged : ∀ (key : ObjectKey) (change : AtRow → AtRow),
      (∀ row, (change row).uid = row.uid) → (store.changeAt key change).HasUid owner.uid := by
    intro key change huid
    refine ⟨_, List.mem_map_of_mem howner, ?_⟩
    split
    next => exact huid owner
    next => rfl
  have hchange := store.serve_change now call
  generalize store.serve now call = effect at *
  cases hchange with
  | refused hquiet | read hquiet => exact Or.inl ⟨owner, hquiet.ats ▸ howner, rfl⟩
  | addAt hfree hkey hshows hats => exact Or.inl ⟨owner, by simp [hats, howner], rfl⟩
  | moveAt hrow hversion hkey hwritten =>
      exact Or.inl (hwritten ▸ hchanged _ _ (by exact fun _ => rfl))
  | editAt hkey hwritten => exact Or.inl (hwritten ▸ hchanged _ _ (by exact fun _ => rfl))
  | addTask hfree hkey howned hshows hats => exact Or.inl ⟨owner, hats ▸ howner, rfl⟩
  | moveTask hrow hshows hwritten => exact Or.inl ⟨owner, hwritten ▸ howner, rfl⟩
  | @removeAt key resource owned _ hresource howned hats htasks =>
      by_cases huid : owner.uid = resource.metadata.uid
      · right
        intro row hrow
        rw [htasks] at hrow
        simpa [huid] using (List.mem_filter.mp hrow).2
      · left
        refine ⟨owner, ?_, rfl⟩
        rw [hats]
        exact List.mem_filter.mpr ⟨howner, bne_iff_ne.mpr huid⟩

/-- A removal leaves no task behind that names what was removed. -/
theorem Intact.unowned_deleteAt (hstore : store.Intact) (now : DateTime) {key : ObjectKey}
    {resource : At} (hread : store.getAt key = .ok resource) :
    ∀ row ∈ (store.serve now (.deleteAt key)).store.tasks,
      row.ownerUid ≠ some resource.metadata.uid := by
  obtain ⟨owner, howner, hshown⟩ := toAt_of_getAt hread
  obtain ⟨removed, owned, hsame, -, heffect⟩ := hstore.deleteAt_of_found howner
  rw [hshown, Except.ok.injEq] at hsame
  subst hsame
  have hserve : store.serve now (.deleteAt key) = _ := heffect
  intro row hrow
  rw [hserve] at hrow
  simpa using (List.mem_filter.mp hrow).2

theorem stored_or_created_unowned {requests : List TimedCall}
    (hplay : play handle? {} requests = some store) {row : TaskRow} (hrow : row ∈ store.tasks)
    (howner : row.ownerUid = some uid) :
    store.HasUid uid ∨
      Sometime handle? (fun earlier request _ => earlier.CreatesUnowned row.uid uid request) {}
        requests := by
  revert row
  refine play_records
    (P := fun requests store => ∀ {row : TaskRow}, row ∈ store.tasks → row.ownerUid = some uid →
      store.HasUid uid ∨
        Sometime handle? (fun earlier request _ => earlier.CreatesUnowned row.uid uid request) {}
          requests) (by simp) ?_ hplay
  intro earlier config request next hearlier hbefore hstep row hrow howner
  cases hstep
  -- a row that was there before keeps its uid and its owner
  have hold : ∀ old ∈ config.tasks, old.uid = row.uid → old.ownerUid = some uid →
      (config.serve request.now request.call).store.HasUid uid ∨
        Sometime handle? (fun earlier request _ => earlier.CreatesUnowned row.uid uid request) {}
          (earlier ++ [request]) := by
    intro old hmem huid hnamed
    rcases hbefore hmem hnamed with hthere | hunowned
    · rcases hasUid_or_removed request.now request.call hthere with hstays | hgone
      · exact Or.inl hstays
      · exact absurd howner (hgone row hrow)
    · exact Or.inr (hunowned.snoc fun _ _ _ hcreates => huid ▸ hcreates)
  rcases (config.serve_tasks request.now request.call).origin hrow with
    hmem | ⟨status, old, hmem, -, rfl⟩ | ⟨task, hcall, hfree, rfl, -⟩
  · exact hold row hmem rfl howner
  · exact hold old hmem rfl howner
  · by_cases hthere : config.HasUid uid
    · rcases hasUid_or_removed request.now request.call hthere with hstays | hgone
      · exact Or.inl hstays
      · exact absurd howner (hgone _ hrow)
    · right
      have hcreated : (config.createTask request.now task).answer =
          .ok (task.stored (uidText (config.issued + 1)) request.now) := by
        rw [createTask_of_free request.now task hfree]
      exact sometime_last hearlier ⟨task, _, hcall, hcreated, rfl, howner, hthere⟩

/-- A task with an owner has it in the table, or never had; and no removal
leaves a task behind that names what was removed. -/
theorem owner_stored_or_never_there {requests : List TimedCall}
    (hplay : play handle? {} requests = some store) :
    (∀ row ∈ store.tasks, ∀ uid, row.ownerUid = some uid →
      store.HasUid uid ∨
        Sometime handle? (fun earlier request _ => earlier.CreatesUnowned row.uid uid request) {}
          requests) ∧
      ∀ now key resource, store.getAt key = .ok resource →
        ∀ row ∈ (store.serve now (.deleteAt key)).store.tasks,
          row.ownerUid ≠ some resource.metadata.uid := by
  constructor
  · exact fun row hrow uid howner => stored_or_created_unowned hplay hrow howner
  · exact fun now key resource hread => (intact_of_play hplay).unowned_deleteAt now hread

/-- A task goes with its command, and is created again. -/
theorem owner_never_there_of_task_created_again :
    let now : DateTime := ⟨⟨2024, 1, 2⟩, 0, 0, 0, 0, some 0⟩
    let resource : At := { metadata := { name := "a" }, spec := ⟨"2024-01-01T00:00:00Z", "echo"⟩ }
    let task : Task := (resource.stored "uid-1" now).newTask
    let requests : List TimedCall :=
      [⟨now, .createAt resource⟩, ⟨now, .createTask task⟩, ⟨now, .deleteAt resource.key⟩,
        ⟨now, .createAt { resource with metadata := { name := "b" } }⟩, ⟨now, .createTask task⟩]
    ∃ store, play handle? {} requests = some store ∧
      store.tasks.map (fun row => (row.uid, row.ownerUid)) = [("uid-4", some "uid-1")] ∧
      Sometime handle? (fun earlier request _ => earlier.CreatesUnowned "uid-4" "uid-1" request)
        {} requests := by
  intro now resource task requests
  let row : TaskRow := task.row "uid-4" now
  let store : Store :=
    { ats := [⟨"uid-3", "default", "b", 1, now, "{}", "2024-01-01T00:00:00Z", "echo", ""⟩]
      tasks := [row]
      issued := 4 }
  have hplay : play handle? {} requests = some store := by decide +kernel
  have howner : row.ownerUid = some "uid-1" := rfl
  have hgone : ¬ store.HasUid "uid-1" := by
    rintro ⟨owner, howner, huid⟩
    rw [List.mem_singleton.mp howner] at huid
    exact absurd huid (by decide)
  obtain ⟨hstored, -⟩ := owner_stored_or_never_there hplay
  have hnever := hstored row (List.mem_singleton.mpr rfl) "uid-1" howner
  exact ⟨store, hplay, rfl, hnever.resolve_left hgone⟩

/-- A command is removed just before its task is created. -/
theorem task_created_after_removal_of_owner :
    ¬ ∀ (requests : List TimedCall) (store : Store) (row : TaskRow) (uid : String),
      play handle? {} requests = some store → row ∈ store.tasks → row.ownerUid = some uid →
        store.HasUid uid := by
  intro hkept
  let now : DateTime := ⟨⟨2024, 1, 2⟩, 0, 0, 0, 0, some 0⟩
  let resource : At := { metadata := { name := "a" }, spec := ⟨"2024-01-01T00:00:00Z", "echo"⟩ }
  let task : Task := (resource.stored "uid-1" now).newTask
  let store : Store := { tasks := [task.row "uid-2" now], issued := 2 }
  have hplay : play handle? {}
      [⟨now, .createAt resource⟩, ⟨now, .deleteAt resource.key⟩, ⟨now, .createTask task⟩] =
        some store := by decide +kernel
  obtain ⟨owner, howner, -⟩ :=
    hkept _ store (task.row "uid-2" now) "uid-1" hplay (List.mem_singleton.mpr rfl) rfl
  exact List.not_mem_nil howner

end OneShot.Store
