import OneShot.Proofs.Insertion
import OneShot.Proofs.Store.Columns

/-!
# What is stored is what is read

Labels are written in the order of their names, so the text of a map of labels
does not depend on the order in which it was given, and reading the text gives
the labels again.  A command or a task that was just created is read as it was
given, but for what the store has assigned to it: its uid, its version and the
time of its creation.
-/

namespace OneShot

open Calendar

/-! ## Labels -/

namespace Column

theorem insertLabel_eq (label : String × String) (labels : List (String × String)) :
    insertLabel label labels =
      labels.orderedInsert (fun first second => first.1 < second.1) label := by
  induction labels with
  | nil => rfl
  | cons head rest ih => rw [insertLabel, List.orderedInsert_cons, ih]

theorem sortedLabels_perm (labels : List (String × String)) :
    (sortedLabels labels).Perm labels := by
  simpa only [sortedLabels, insertLabel_eq, List.append_nil] using
    perm_foldl_orderedInsert (fun first second : String × String => first.1 < second.1) labels []

/-- The names of the labels of a map ascend once they are sorted. -/
theorem ascending_sortedLabels {labels : List (String × String)} (hmap : Assoc.IsMap labels) :
    (sortedLabels labels).Pairwise fun first second => first.1 < second.1 := by
  have htrans : ∀ first second third : String × String, first.1 < second.1 →
      second.1 < third.1 → first.1 < third.1 :=
    fun _ _ _ => String.lt_trans
  simp only [sortedLabels, insertLabel_eq]
  refine pairwise_foldl_orderedInsert htrans List.Pairwise.nil ?_
  rw [List.append_nil]
  refine (List.pairwise_map.mp hmap).imp ?_
  intro first second hne
  rcases Std.lt_trichotomy first.1 second.1 with hbefore | hsame | hafter
  · exact Or.inl hbefore
  · exact absurd hsame hne
  · exact Or.inr hafter

/-- Sorting forgets in which order a map was given. -/
theorem sortedLabels_eq_of_perm {labels others : List (String × String)}
    (hmap : Assoc.IsMap labels) (hperm : labels.Perm others) :
    sortedLabels labels = sortedLabels others := by
  refine List.Perm.eq_of_pairwise ?_ (ascending_sortedLabels hmap)
    (ascending_sortedLabels (hmap.perm hperm)) ?_
  · intro first second _ _ hbefore hafter
    exact absurd hafter (String.lt_asymm hbefore)
  · exact (sortedLabels_perm labels).trans (hperm.trans (sortedLabels_perm others).symm)

theorem ofList_sortedLabels {labels : List (String × String)} (hmap : Assoc.IsMap labels) :
    Assoc.ofList (sortedLabels labels) = sortedLabels labels :=
  (hmap.perm (sortedLabels_perm labels).symm).ofList_eq

/-- A map of labels is read from its text, in the order of the names. -/
theorem readLabels?_of_isMap {labels : List (String × String)} (hmap : Assoc.IsMap labels) :
    readLabels? (writeLabels labels) = some (sortedLabels labels) := by
  rw [readLabels?_writeLabels, ofList_sortedLabels hmap]

/-- Two maps of labels have the same text if and only if they are the same map. -/
theorem writeLabels_eq_iff {labels others : List (String × String)} (hmap : Assoc.IsMap labels)
    (hother : Assoc.IsMap others) :
    writeLabels labels = writeLabels others ↔ Assoc.get? labels = Assoc.get? others := by
  rw [← hmap.perm_iff hother]
  constructor
  · intro htext
    have hsorted : sortedLabels labels = sortedLabels others := by
      have hread := congrArg readLabels? htext
      rwa [readLabels?_of_isMap hmap, readLabels?_of_isMap hother, Option.some.injEq] at hread
    calc
      labels.Perm (sortedLabels labels) := (sortedLabels_perm labels).symm
      List.Perm _ others := hsorted ▸ sortedLabels_perm others
  · intro hperm
    rw [writeLabels, writeLabels, sortedLabels_eq_of_perm hmap hperm]

end Column

/-! ## Objects -/

/-- The metadata of an object as it was given, but for what was assigned to it. -/
def Metadata.ReadAs (given read : Metadata) (uid : String) (now : DateTime) : Prop :=
  ∃ labels : List (String × String), labels.Perm given.labels ∧
    read =
      { given with
        uid
        resourceVersion := Text.intText 1
        created := some now
        labels }

def At.ReadAs (given read : At) (uid : String) (now : DateTime) : Prop :=
  given.metadata.ReadAs read.metadata uid now ∧ read = { given with metadata := read.metadata }

def Task.ReadAs (given read : Task) (uid : String) (now : DateTime) : Prop :=
  given.metadata.ReadAs read.metadata uid now ∧ read = { given with metadata := read.metadata }

theorem Metadata.storedOwner?_toList {metadata : Metadata} (hone : metadata.owners.length ≤ 1) :
    metadata.storedOwner?.toList = metadata.owners := by
  unfold storedOwner? controllerOwner?
  cases howners : metadata.owners with
  | nil => rfl
  | cons owner rest =>
      have hrest : rest = [] := by
        rw [howners, List.length_cons] at hone
        exact List.eq_nil_of_length_eq_zero (by omega)
      subst hrest
      by_cases hcontroller : owner.controller = true
      · simp [hcontroller]
      · simp [hcontroller]

theorem At.readAs_stored {resource : At} (hlabels : Assoc.IsMap resource.metadata.labels)
    (howners : resource.metadata.owners = []) (uid : String) (now : DateTime) :
    resource.ReadAs (resource.stored uid now) uid now := by
  refine ⟨⟨Column.sortedLabels resource.metadata.labels, Column.sortedLabels_perm _, ?_⟩, rfl⟩
  simp only [At.stored, Column.ofList_sortedLabels hlabels, ← howners]

theorem Task.readAs_stored {task : Task} (hlabels : Assoc.IsMap task.metadata.labels)
    (hone : task.metadata.owners.length ≤ 1) (uid : String) (now : DateTime) :
    task.ReadAs (task.stored uid now) uid now := by
  refine ⟨⟨Column.sortedLabels task.metadata.labels, Column.sortedLabels_perm _, ?_⟩, rfl⟩
  simp only [Task.stored, Column.ofList_sortedLabels hlabels,
    Metadata.storedOwner?_toList hone]

namespace Store

variable {store : Store} {now : DateTime}

/-- A creation that gets through has given the task a row. -/
theorem row_of_createTask {task created : Task}
    (hdone : (store.createTask now task).answer = .ok created) :
    created = task.stored (uidText (store.issued + 1)) now ∧
      (store.createTask now task).store.taskRow? task.key =
        some (task.row (uidText (store.issued + 1)) now) := by
  cases hfound : store.taskRow? task.key with
  | some row =>
      rw [createTask_of_taken now task hfound] at hdone
      cases hdone
  | none =>
      rw [createTask_of_free now task hfound] at hdone ⊢
      cases hdone
      exact ⟨rfl, taskRow?_append_self rfl hfound rfl⟩

theorem row_of_createAt {resource created : At}
    (hdone : (store.createAt now resource).answer = .ok created) :
    created = resource.stored (uidText (store.issued + 1)) now ∧
      (store.createAt now resource).store.atRow? resource.key =
        some (resource.row (uidText (store.issued + 1)) now) := by
  cases hfound : store.atRow? resource.key with
  | some row =>
      rw [createAt_of_taken now resource hfound] at hdone
      cases hdone
  | none =>
      rw [createAt_of_free now resource hfound] at hdone ⊢
      cases hdone
      exact ⟨rfl, atRow?_append_self rfl hfound rfl⟩

/-- A task with one owner at most, or a command without owners, that was just created
is read as it was given.  Its labels and its arguments are stored as texts from which
they are read back whatever characters they have, and maps of labels have the same
text if and only if they are the same map. -/
theorem created_read_as_given (store : Store) (now : DateTime) :
    (∀ task created, Assoc.IsMap task.metadata.labels → task.metadata.owners.length ≤ 1 →
      (store.createTask now task).answer = .ok created →
        task.ReadAs created (uidText (store.issued + 1)) now ∧
          (store.createTask now task).store.getTask task.key = .ok created ∧
          ∃ row, (store.createTask now task).store.taskRow? task.key = some row ∧
            row.labels = Column.writeLabels task.metadata.labels ∧
            row.command = Column.writeStrings task.container.command) ∧
      (∀ resource created, Assoc.IsMap resource.metadata.labels →
        resource.metadata.owners = [] → (store.createAt now resource).answer = .ok created →
          resource.ReadAs created (uidText (store.issued + 1)) now ∧
            (store.createAt now resource).store.getAt resource.key = .ok created ∧
            ∃ row, (store.createAt now resource).store.atRow? resource.key = some row ∧
              row.labels = Column.writeLabels resource.metadata.labels) ∧
      (∀ command, Column.readStrings? (Column.writeStrings command) = some command) ∧
      (∀ labels, Assoc.IsMap labels → ∃ read,
        Column.readLabels? (Column.writeLabels labels) = some read ∧ read.Perm labels) ∧
      ∀ labels others, Assoc.IsMap labels → Assoc.IsMap others →
        (Column.writeLabels labels = Column.writeLabels others ↔
          Assoc.get? labels = Assoc.get? others) := by
  refine ⟨?_, ?_, Column.readStrings?_writeStrings, ?_, ?_⟩
  · intro task created hlabels hone hdone
    obtain ⟨rfl, hrow⟩ := row_of_createTask hdone
    refine ⟨Task.readAs_stored hlabels hone _ now, ?_, _, hrow, rfl, rfl⟩
    rw [getTask, hrow]
    exact task.toTask_row _ now
  · intro resource created hlabels howners hdone
    obtain ⟨rfl, hrow⟩ := row_of_createAt hdone
    refine ⟨At.readAs_stored hlabels howners _ now, ?_, _, hrow, rfl⟩
    rw [getAt, hrow]
    exact resource.toAt_row _ now
  · intro labels hlabels
    exact ⟨_, Column.readLabels?_of_isMap hlabels, Column.sortedLabels_perm labels⟩
  · intro labels others hlabels hothers
    exact Column.writeLabels_eq_iff hlabels hothers

/-- A task with labels out of order, beyond the first plane and with empty arguments. -/
theorem created_read_as_given_of_strange_texts :
    let now : DateTime := ⟨⟨2024, 1, 2⟩, 0, 0, 0, 0, some 0⟩
    let owner : OwnerReference :=
      { apiVersion := "", kind := "At", name := "a", uid := "uid-1", controller := false }
    let task : Task :=
      { metadata :=
          { name := "b"
            labels := [("tier", "\"\\\x00"), ("app", "😀")]
            owners := [owner] }
        container := ⟨"", "busybox", ["", "echo", "é\n"]⟩ }
    ∃ created, (({} : Store).createTask now task).answer = .ok created ∧
      (({} : Store).createTask now task).store.getTask task.key = .ok created ∧
      task.ReadAs created "uid-1" now := by
  intro now owner task
  have hlabels : Assoc.IsMap task.metadata.labels := by
    unfold Assoc.IsMap
    decide
  have huid : uidText (({} : Store).issued + 1) = "uid-1" := by decide +kernel
  have hdone : (({} : Store).createTask now task).answer = .ok (task.stored "uid-1" now) := by
    decide +kernel
  obtain ⟨hsame, hread, -⟩ :=
    (created_read_as_given {} now).1 task _ hlabels (Nat.le_refl 1) hdone
  rw [huid] at hsame
  exact ⟨_, hdone, hread, hsame⟩

end Store

end OneShot
