import OneShot.Proofs.Store.Identity
import OneShot.Proofs.Traversal
import OneShot.Resource.Derived
import Mathlib.Data.List.Nodup
import Mathlib.Tactic.Tauto

/-!
# Changes that are told

A scheduled command needs work until its phase, and the task made for it, say
otherwise.  A store in which every task was made for some command tells of
whatever could make a command need work: each change of the row of a command,
or of its task, leads to an event that concerns the command.
-/

namespace OneShot

/-- The key of the task made for the command of a key. -/
def ObjectKey.forTask (key : ObjectKey) : ObjectKey :=
  ⟨key.ns, key.name ++ "-pod"⟩

theorem ObjectKey.forTask_inj {one other : ObjectKey} (heq : one.forTask = other.forTask) :
    one = other := by
  obtain ⟨ns, name⟩ := one
  obtain ⟨ns', name'⟩ := other
  simp only [forTask, ObjectKey.mk.injEq, String.append_left_inj] at heq
  obtain ⟨rfl, rfl⟩ := heq
  rfl

/-- The row of the task that was made for the command of a key. -/
structure TaskRow.MadeFor (row : TaskRow) (key : ObjectKey) : Prop where
  place : row.key = key.forTask
  kind : row.ownerKind = some ResourceKind.at.text
  name : row.ownerName = some key.name
  uid : row.ownerUid.isSome = true
  controller : row.ownerController = true

def Call.Derives : Call → Prop
  | createTask task => ∃ resource : At, task = resource.newTask
  | _ => True

theorem TaskRow.madeFor_of_ownedAs {row : TaskRow} {resource : At}
    (hkey : row.key = resource.newTask.key)
    (howned : row.OwnedAs resource.newTask.metadata.storedOwner?) : row.MadeFor resource.key :=
  ⟨hkey, howned.kind, howned.name, by rw [howned.uid]; rfl, howned.controller⟩

theorem TaskRow.MadeFor.afterMove {row : TaskRow} {key : ObjectKey} (hmade : row.MadeFor key)
    (status : TaskStatus) (version : Int) :
    TaskRow.MadeFor
      { row with
        phase := status.phase.text
        reason := status.reason
        message := status.message
        version } key :=
  ⟨hmade.place, hmade.kind, hmade.name, hmade.uid, hmade.controller⟩

theorem TaskRow.Shows.controllerOwner {row : TaskRow} {task : Task} (hshows : row.Shows task)
    {uid : String} (huid : row.ownerUid = some uid) (hcontroller : row.ownerController = true) :
    ∃ owner, task.metadata.controllerOwner? = some owner ∧ owner.uid = uid ∧
      owner.kind = row.ownerKind.getD "" ∧ owner.name = row.ownerName.getD "" := by
  unfold Metadata.controllerOwner?
  rw [hshows.owners, TaskRow.owner?, huid, hcontroller]
  exact ⟨_, rfl, rfl, rfl, rfl⟩

theorem TaskRow.MadeFor.affected {row : TaskRow} {key : ObjectKey} (hmade : row.MadeFor key)
    {task : Task} (hshows : row.Shows task) (type : EventType) :
    key ∈ (Store.taskEvent type task).affected := by
  obtain ⟨uid, huid⟩ := Option.isSome_iff_exists.mp hmade.uid
  have hns : task.key.ns = key.ns := by
    rw [hshows.key, hmade.place]
    rfl
  obtain ⟨owner, howner, -, hkind, hname⟩ := hshows.controllerOwner huid hmade.controller
  rw [hmade.kind, Option.getD_some] at hkind
  rw [hmade.name, Option.getD_some] at hname
  simp only [Store.taskEvent, ChangeEvent.affected, howner, hkind, hname, hns, beq_self_eq_true,
    if_true, List.mem_singleton]

theorem mem_affected_atEvent (type : EventType) (resource : At) :
    resource.key ∈ (Store.atEvent type resource).affected :=
  List.mem_singleton.mpr rfl

namespace Store

/-- Keys of commands are unique, and every task was made for a command. -/
structure Orderly (store : Store) : Prop where
  keyed : (store.ats.map AtRow.key).Nodup
  made : ∀ row ∈ store.tasks, ∃ key, row.MadeFor key

theorem orderly_empty : Orderly {} := by
  constructor <;> simp

/-- The command of a key needs work: it has not been started, or it runs but
its task is missing or has ended. -/
def NeedsWork (store : Store) (key : ObjectKey) : Prop :=
  ∃ row, store.atRow? key = some row ∧
    (AtPhase.ofText? row.phase = some .unset ∨ AtPhase.ofText? row.phase = some .pending ∨
      AtPhase.ofText? row.phase = some .running ∧
        ∀ task, store.taskRow? key.forTask = some task → task.taskPhase.isTerminal = true)

instance (store : Store) (key : ObjectKey) : Decidable (store.NeedsWork key) :=
  inferInstanceAs (Decidable (∃ row ∈ store.atRow? key,
    AtPhase.ofText? row.phase = some .unset ∨ AtPhase.ofText? row.phase = some .pending ∨
      AtPhase.ofText? row.phase = some .running ∧
        ∀ task ∈ store.taskRow? key.forTask, task.taskPhase.isTerminal = true))

/-- Nothing has happened to a command and its task, but that it may be gone. -/
structure Undisturbed (before after : Store) (key : ObjectKey) : Prop where
  task : after.taskRow? key.forTask = before.taskRow? key.forTask
  command : after.atRow? key = before.atRow? key ∨ after.atRow? key = none

variable {before after store : Store} {key : ObjectKey}

theorem NeedsWork.of_undisturbed (hneeds : after.NeedsWork key)
    (hsame : Undisturbed before after key) : before.NeedsWork key := by
  obtain ⟨row, hrow, hphase⟩ := hneeds
  rw [hsame.task] at hphase
  rcases hsame.command with heq | hnone
  · exact ⟨row, heq ▸ hrow, hphase⟩
  · rw [hnone] at hrow
    cases hrow

theorem undisturbed_of_quiet {α : Type} {effect : Effect α} (hquiet : effect.Quiet before)
    (key : ObjectKey) : Undisturbed before effect.store key :=
  ⟨taskRow?_of_eq hquiet.tasks _, Or.inl (atRow?_of_eq hquiet.ats _)⟩

theorem atRow?_filter_cases (hkeyed : (before.ats.map AtRow.key).Nodup) {kept : AtRow → Bool}
    (hats : after.ats = before.ats.filter kept) (key : ObjectKey) :
    after.atRow? key = before.atRow? key ∨ after.atRow? key = none := by
  unfold atRow?
  rw [hats]
  cases hrow : before.ats.find? fun row => decide (row.key = key) with
  | none => exact Or.inr (find?_filter_of_none kept hrow)
  | some row =>
      by_cases hkept : kept row = true
      · exact Or.inl (find?_filter_of_kept hrow hkept)
      · right
        rw [List.find?_eq_none]
        intro other hother hkey
        obtain ⟨hmem, hother⟩ := List.mem_filter.mp hother
        have heq : other = row :=
          List.inj_on_of_nodup_map hkeyed hmem (List.mem_of_find?_eq_some hrow)
            ((of_decide_eq_true hkey).trans (key_of_atRow? hrow).symm)
        exact hkept (heq ▸ hother)

/-! ## What every change tells -/

/-- A removed task was told of, and the one that stays is found as before. -/
theorem removed_task_told (hgood : before.Orderly) {uid : String} {owned : List Task}
    (howned : (before.tasks.filter fun row => row.ownerUid == some uid).mapM TaskRow.toTask =
      .ok owned)
    (htasks : after.tasks = before.tasks.filter fun row => row.ownerUid != some uid)
    (key : ObjectKey) :
    (∃ task ∈ owned, key ∈ (taskEvent .deleted task).affected) ∨
      after.taskRow? key.forTask = before.taskRow? key.forTask := by
  cases hrow : before.taskRow? key.forTask with
  | none =>
      right
      unfold taskRow? at hrow ⊢
      rw [htasks]
      exact find?_filter_of_none _ hrow
  | some row =>
      have hmem : row ∈ before.tasks := List.mem_of_find?_eq_some hrow
      by_cases huid : row.ownerUid = some uid
      · left
        have hremoved : row ∈ before.tasks.filter fun row => row.ownerUid == some uid :=
          List.mem_filter.mpr ⟨hmem, by simpa using huid⟩
        obtain ⟨task, htask, hread⟩ := mapM_ok_of_mem howned hremoved
        obtain ⟨owner, hmade⟩ := hgood.made row hmem
        have heq : owner = key :=
          ObjectKey.forTask_inj (hmade.place.symm.trans (key_of_taskRow? hrow))
        subst heq
        exact ⟨task, htask, hmade.affected (TaskRow.shows_of_toTask hread) .deleted⟩
      · right
        unfold taskRow? at hrow ⊢
        rw [htasks]
        exact find?_filter_of_kept hrow (by simpa using huid)

/-- Whatever changes for a command, short of its end, is told. -/
theorem Change.told {call : Call} {effect : Effect call.Reply} (hchange : Change before call effect)
    (hgood : before.Orderly) (hderives : call.Derives) (key : ObjectKey) :
    (∃ event ∈ effect.events, key ∈ event.affected) ∨ Undisturbed before effect.store key := by
  cases hchange with
  | refused hquiet => exact Or.inr (undisturbed_of_quiet hquiet key)
  | read hquiet => exact Or.inr (undisturbed_of_quiet hquiet key)
  | @addAt resource created _ row hfree hkey hshows hats htasks hanswer hevents =>
      by_cases heq : key = resource.key
      · left
        refine ⟨_, by rw [hevents]; exact List.mem_cons_self, ?_⟩
        rw [heq, ← hkey, ← hshows.key]
        exact mem_affected_atEvent .added created
      · right
        refine ⟨taskRow?_of_eq htasks _, Or.inl ?_⟩
        rw [atRow?_append hats, if_neg (fun h => heq (h.symm.trans hkey)), Option.or_none]
  | @moveAt resource updated _ row hrow hversion hkey hstore hanswer hevents =>
      by_cases heq : key = resource.key
      · left
        refine ⟨_, by rw [hevents]; exact List.mem_cons_self, ?_⟩
        rw [heq, ← hkey]
        exact mem_affected_atEvent .modified updated
      · right
        rw [hstore]
        exact ⟨rfl, Or.inl (atRow?_changeAt_of_ne (by exact fun _ => rfl) heq)⟩
  | @editAt edited spec updated _ hkey hstore hanswer hevents =>
      by_cases heq : key = edited
      · left
        refine ⟨_, by rw [hevents]; exact List.mem_cons_self, ?_⟩
        rw [heq, ← hkey]
        exact mem_affected_atEvent .modified updated
      · right
        rw [hstore]
        exact ⟨rfl, Or.inl (atRow?_changeAt_of_ne (by exact fun _ => rfl) heq)⟩
  | @removeAt removed resource owned _ hresource howned hats htasks hanswer hevents =>
      rcases removed_task_told hgood howned htasks key with ⟨task, htask, haffected⟩ | hsame
      · left
        refine ⟨_, ?_, haffected⟩
        rw [hevents]
        exact List.mem_append_left _ (List.mem_map_of_mem htask)
      · exact Or.inr ⟨hsame, atRow?_filter_cases hgood.keyed hats key⟩
  | @addTask task created _ row hfree hkey howned hshows hats htasks hanswer hevents =>
      obtain ⟨resource, rfl⟩ := hderives
      have hmade := TaskRow.madeFor_of_ownedAs hkey howned
      by_cases heq : key = resource.key
      · left
        refine ⟨_, by rw [hevents]; exact List.mem_cons_self, ?_⟩
        rw [heq]
        exact hmade.affected hshows .added
      · right
        refine ⟨?_, Or.inl (atRow?_of_eq hats key)⟩
        have hne : row.key ≠ key.forTask := fun h =>
          heq (ObjectKey.forTask_inj (h.symm.trans hmade.place))
        rw [taskRow?_append htasks, if_neg hne, Option.or_none]
  | @moveTask moved status updated _ row hrow hshows hstore hanswer hevents =>
      by_cases heq : key.forTask = moved
      · left
        refine ⟨_, by rw [hevents]; exact List.mem_cons_self, ?_⟩
        obtain ⟨owner, hmade⟩ := hgood.made row (List.mem_of_find?_eq_some hrow)
        have howner : owner = key :=
          ObjectKey.forTask_inj (hmade.place.symm.trans ((key_of_taskRow? hrow).trans heq.symm))
        subst howner
        exact (hmade.afterMove status _).affected hshows .modified
      · right
        rw [hstore]
        exact ⟨taskRow?_changeTask_of_ne (by exact fun _ => rfl) heq, Or.inl rfl⟩

/-! ## The store stays orderly -/

theorem Change.orderly {call : Call} {effect : Effect call.Reply}
    (hchange : Change before call effect) (hgood : before.Orderly) (hderives : call.Derives) :
    effect.store.Orderly := by
  refine ⟨hchange.keyed hgood.keyed, ?_⟩
  cases hchange with
  | refused hquiet => exact hquiet.tasks ▸ hgood.made
  | read hquiet => exact hquiet.tasks ▸ hgood.made
  | addAt hfree hkey hshows hats htasks => exact htasks ▸ hgood.made
  | moveAt hrow hversion hkey hstore => exact hstore ▸ hgood.made
  | editAt hkey hstore => exact hstore ▸ hgood.made
  | removeAt hresource howned hats htasks =>
      intro row hrow
      rw [htasks] at hrow
      exact hgood.made row (List.mem_of_mem_filter hrow)
  | addTask hfree hkey howned hshows hats htasks =>
      obtain ⟨resource, rfl⟩ := hderives
      intro other hother
      rw [htasks, List.mem_append, List.mem_singleton] at hother
      rcases hother with hold | rfl
      · exact hgood.made other hold
      · exact ⟨resource.key, TaskRow.madeFor_of_ownedAs hkey howned⟩
  | @moveTask moved status updated _ row hrow hshows hstore hanswer hevents =>
      intro other hother
      rw [hstore] at hother
      obtain ⟨old, hold, rfl⟩ := List.mem_map.mp hother
      obtain ⟨owner, hmade⟩ := hgood.made old hold
      refine ⟨owner, ?_⟩
      split
      next => exact hmade.afterMove status _
      next => exact hmade

/-! ## Listing -/

theorem mem_insertByKey {ρ : Type} (keyOf : ρ → ObjectKey) (row other : ρ) (rows : List ρ) :
    other ∈ insertByKey keyOf row rows ↔ other = row ∨ other ∈ rows := by
  induction rows with
  | nil => simp [insertByKey]
  | cons head rest ih =>
      unfold insertByKey
      split
      next => simp
      next => simp [ih, or_left_comm]

theorem mem_listing {ρ : Type} (keyOf : ρ → ObjectKey) (ns : Option String) (other : ρ)
    (rows : List ρ) :
    other ∈ listing keyOf ns rows ↔ other ∈ rows ∧ ns.all (· == (keyOf other).ns) = true := by
  have hsorted : ∀ (rows sorted : List ρ),
      other ∈ rows.foldl (fun sorted row => insertByKey keyOf row sorted) sorted ↔
        other ∈ sorted ∨ other ∈ rows := by
    intro rows
    induction rows with
    | nil => simp
    | cons row rest ih =>
        intro sorted
        rw [List.foldl_cons, ih, mem_insertByKey, List.mem_cons]
        tauto
  unfold listing
  rw [hsorted, List.mem_filter]
  simp only [List.not_mem_nil, false_or]

theorem key_mem_of_listAts {ats : List At} (hlist : store.listAts none = .ok ats) {row : AtRow}
    (hrow : store.atRow? key = some row) : key ∈ ats.map At.key := by
  have hlisted := (mem_listing AtRow.key none row store.ats).mpr
    ⟨List.mem_of_find?_eq_some hrow, rfl⟩
  obtain ⟨resource, hresource, hread⟩ := mapM_ok_of_mem hlist hlisted
  rw [← key_of_atRow? hrow, ← (AtRow.shows_of_toAt hread).key]
  exact List.mem_map_of_mem hresource

end Store

end OneShot
