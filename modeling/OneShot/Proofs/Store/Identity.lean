import OneShot.Proofs.Store.Changes
import OneShot.Proofs.Decimal.Numerals
import Mathlib.Data.List.Nodup

/-!
# Keys and uids of rows

No two commands share a key or a uid, and a uid that was given out is not given
out again.  So the removal of a command takes no other one along, and a command
that is created anew can be told from the one that was there before.
-/

namespace OneShot

open Calendar

/-- What a row is found by. -/
def AtRow.identity (row : AtRow) : ObjectKey × String := (row.key, row.uid)

namespace Store

variable {store before after : Store} {key : ObjectKey}

theorem uidText_inj {one other : Nat} (heq : uidText one = uidText other) : one = other := by
  exact Decimal.natText_inj ((String.append_right_inj _).mp heq)

theorem identity_changeAt (key : ObjectKey) {change : AtRow → AtRow}
    (hsame : ∀ row, (change row).identity = row.identity) :
    (before.changeAt key change).ats.map AtRow.identity = before.ats.map AtRow.identity := by
  unfold changeAt
  rw [List.map_map]
  refine List.map_congr_left fun row _ => ?_
  rw [Function.comp_apply]
  split
  next => exact hsame row
  next => rfl

/-- A change adds a command under a key that was free, or only takes away. -/
theorem Change.identities {call : Call} {effect : Effect call.Reply}
    (hchange : Change before call effect) :
    (∃ resource row, call = .createAt resource ∧ before.atRow? row.key = none ∧
        effect.store.ats = before.ats ++ [row]) ∨
      (effect.store.ats.map AtRow.identity).Sublist (before.ats.map AtRow.identity) := by
  cases hchange with
  | refused hquiet => exact Or.inr (hquiet.ats ▸ List.Sublist.refl _)
  | read hquiet => exact Or.inr (hquiet.ats ▸ List.Sublist.refl _)
  | addAt hfree hkey hshows hats => exact Or.inl ⟨_, _, rfl, hkey ▸ hfree, hats⟩
  | moveAt hrow hversion hkey hstore =>
      right
      rw [hstore, identity_changeAt _ (by exact fun _ => rfl)]
  | editAt hkey hstore =>
      right
      rw [hstore, identity_changeAt _ (by exact fun _ => rfl)]
  | removeAt hresource howned hats =>
      right
      rw [hats]
      exact List.filter_sublist.map AtRow.identity
  | addTask hfree hkey howned hshows hats => exact Or.inr (hats ▸ List.Sublist.refl _)
  | moveTask hrow hshows hstore => exact Or.inr (hstore ▸ List.Sublist.refl _)

theorem Change.keyed {call : Call} {effect : Effect call.Reply}
    (hchange : Change before call effect) (hkeyed : (before.ats.map AtRow.key).Nodup) :
    (effect.store.ats.map AtRow.key).Nodup := by
  rcases hchange.identities with ⟨resource, row, -, hfree, hats⟩ | hfewer
  · rw [hats, List.map_append, List.map_singleton, List.nodup_append]
    refine ⟨hkeyed, List.nodup_singleton _, ?_⟩
    intro taken htaken new hnew heq
    obtain ⟨old, hold, rfl⟩ := List.mem_map.mp htaken
    rw [List.mem_singleton.mp hnew] at heq
    exact List.find?_eq_none.mp hfree old hold (decide_eq_true heq)
  · have hkeys := hfewer.map Prod.fst
    rw [List.map_map, List.map_map] at hkeys
    exact hkeyed.sublist hkeys

/-! ## Giving out uids -/

section Serving

variable (store : Store) (now : DateTime)

omit store in
theorem commit_issued {α : Type} (before after : Store) (answer : Except Fault α)
    (events : α → List ChangeEvent) : (commit before after answer events).store.issued =
      after.issued := by
  cases answer <;> rfl

theorem createAt_uid (resource : At) :
    ∀ row ∈ (store.createAt now resource).store.ats, row ∈ store.ats ∨
      (row.uid = uidText (store.issued + 1) ∧
        (store.createAt now resource).store.issued = store.issued + 1) := by
  intro row hrow
  unfold createAt insertAt at hrow ⊢
  split at hrow
  next => exact Or.inl hrow
  next htaken =>
    rw [if_neg htaken]
    simp only [issueUid, At.values, commit_issued]
    simp only [issueUid, At.values, commit] at hrow
    split at hrow
    next =>
      rcases List.mem_append.mp hrow with hold | hnew
      · exact Or.inl hold
      · rw [List.mem_singleton.mp hnew]
        exact Or.inr ⟨rfl, trivial⟩
    next => exact Or.inl hrow

theorem issued_le_serve (call : Call) : store.issued ≤ (store.serve now call).store.issued := by
  cases call with
  | getAt key | listAts ns | getTask key | listTasks ns => exact Nat.le_refl _
  | createAt resource =>
      simp only [serve, createAt, insertAt]
      split
      next => exact Nat.le_refl _
      next =>
        simp only [issueUid, At.values, commit_issued]
        exact Nat.le_succ _
  | createTask task =>
      simp only [serve, createTask, insertTask]
      split
      next => exact Nat.le_refl _
      next =>
        simp only [issueUid, Task.values, commit_issued]
        exact Nat.le_succ _
  | updateAtStatus resource =>
      simp only [serve, updateAtStatus, writeStatus]
      repeat' split
      all_goals first | exact Nat.le_refl _ | (rw [commit_issued]; exact Nat.le_refl _)
  | updateAtSpec key spec =>
      simp only [serve, updateAtSpec, writeSpec]
      split
      next => exact Nat.le_refl _
      next =>
        rw [commit_issued]
        exact Nat.le_refl _
  | updateTaskStatus key status =>
      simp only [serve, updateTaskStatus]
      split
      next => exact Nat.le_refl _
      next =>
        rw [commit_issued]
        exact Nat.le_refl _
  | deleteAt key =>
      simp only [serve, deleteAt]
      split
      next => exact Nat.le_refl _
      next => exact Nat.le_refl _

theorem origin_of_mem_serve (call : Call) {row : AtRow}
    (hrow : row ∈ (store.serve now call).store.ats) :
    (∃ old ∈ store.ats, old.identity = row.identity) ∨
      (row.uid = uidText (store.issued + 1) ∧
        (store.serve now call).store.issued = store.issued + 1) := by
  rcases (store.serve_change now call).identities with ⟨resource, new, rfl, -, -⟩ | hfewer
  · rcases store.createAt_uid now resource row hrow with hthere | hnew
    · exact Or.inl ⟨row, hthere, rfl⟩
    · exact Or.inr hnew
  · exact Or.inl (List.mem_map.mp (hfewer.subset (List.mem_map_of_mem hrow)))

end Serving

/-! ## Rows that can be told apart -/

structure Identified (store : Store) : Prop where
  keyed : (store.ats.map AtRow.key).Nodup
  distinct : (store.ats.map AtRow.uid).Nodup
  issued : ∀ row ∈ store.ats, ∃ number ≤ store.issued, row.uid = uidText number

theorem identified_empty : Identified {} := by
  constructor <;> simp

theorem Identified.serve (hstore : store.Identified) (now : DateTime) (call : Call) :
    (store.serve now call).store.Identified := by
  have hle := store.issued_le_serve now call
  have hchange := store.serve_change now call
  refine ⟨hchange.keyed hstore.keyed, ?_, ?_⟩
  · rcases hchange.identities with ⟨resource, row, rfl, hfree, hats⟩ | hfewer
    · rw [hats, List.map_append, List.map_singleton, List.nodup_append]
      refine ⟨hstore.distinct, List.nodup_singleton _, ?_⟩
      intro taken htaken new hnew heq
      obtain ⟨old, hold, rfl⟩ := List.mem_map.mp htaken
      rw [List.mem_singleton.mp hnew] at heq
      obtain ⟨number, hnumber, huid⟩ := hstore.issued old hold
      have hrow : row ∈ (store.createAt now resource).store.ats := by
        have hlast : row ∈ store.ats ++ [row] := by simp
        rwa [← hats] at hlast
      rcases store.createAt_uid now resource row hrow with hthere | ⟨hnew, -⟩
      · exact List.find?_eq_none.mp hfree row hthere (decide_eq_true rfl)
      · rw [huid, hnew] at heq
        have := uidText_inj heq
        omega
    · have huids := hfewer.map Prod.snd
      rw [List.map_map, List.map_map] at huids
      exact hstore.distinct.sublist huids
  · intro row hrow
    rcases store.origin_of_mem_serve now call hrow with ⟨old, hold, heq⟩ | ⟨huid, hissued⟩
    · obtain ⟨number, hnumber, hnamed⟩ := hstore.issued old hold
      exact ⟨number, Nat.le_trans hnumber hle, (congrArg Prod.snd heq).symm.trans hnamed⟩
    · exact ⟨store.issued + 1, Nat.le_of_eq hissued.symm, huid⟩

theorem Identified.eq_of_key (hstore : store.Identified) {row other : AtRow}
    (hrow : store.atRow? key = some row) (hother : other ∈ store.ats) (hkey : other.key = key) :
    other = row :=
  List.inj_on_of_nodup_map hstore.keyed hother (List.mem_of_find?_eq_some hrow)
    (hkey.trans (key_of_atRow? hrow).symm)

theorem Identified.eq_of_uid (hstore : store.Identified) {row other : AtRow}
    (hrow : row ∈ store.ats) (hother : other ∈ store.ats) (huid : row.uid = other.uid) :
    row = other :=
  List.inj_on_of_nodup_map hstore.distinct hrow hother huid

/-- What was read of a command is what its key finds. -/
theorem Identified.atRow?_of_mem (hstore : store.Identified) {row : AtRow}
    (hrow : row ∈ store.ats) : store.atRow? row.key = some row := by
  cases hfound : store.atRow? row.key with
  | none => exact absurd (decide_eq_true rfl) (List.find?_eq_none.mp hfound row hrow)
  | some found => rw [hstore.eq_of_key hfound hrow rfl]

/-- A uid that was given out does not come back to a key. -/
theorem Identified.uid_ne_serve (hstore : store.Identified) (now : DateTime) (call : Call)
    {uid : String} (hgiven : ∃ number ≤ store.issued, uid = uidText number)
    (hother : ∀ row, store.atRow? key = some row → row.uid ≠ uid) :
    ∀ row, (store.serve now call).store.atRow? key = some row → row.uid ≠ uid := by
  intro row hrow heq
  rcases store.origin_of_mem_serve now call (List.mem_of_find?_eq_some hrow) with
    ⟨old, hold, hsame⟩ | ⟨hnew, -⟩
  · have hkey : old.key = key := (congrArg Prod.fst hsame).trans (key_of_atRow? hrow)
    have huid : old.uid = row.uid := congrArg Prod.snd hsame
    exact hother old (hkey ▸ hstore.atRow?_of_mem hold) (huid.trans heq)
  · obtain ⟨number, hnumber, hnamed⟩ := hgiven
    have hsame := uidText_inj (hnew.symm.trans (heq.trans hnamed))
    omega

/-- The removal of a command takes its row away, and no other one. -/
theorem Identified.atRow?_remove (hstore : before.Identified) {removed : ObjectKey} {resource : At}
    (hresource : before.getAt removed = .ok resource)
    (hats : after.ats = before.ats.filter fun row => row.uid != resource.metadata.uid)
    (key : ObjectKey) :
    after.atRow? key = if key = removed then none else before.atRow? key := by
  obtain ⟨gone, hgone, hshows⟩ := getAt_eq_ok hresource
  have hgonemem : gone ∈ before.ats := List.mem_of_find?_eq_some hgone
  have hkept : ∀ row ∈ before.ats, (row.uid != resource.metadata.uid) = true ↔
      row.key ≠ removed := by
    intro row hrow
    rw [bne_iff_ne, hshows.uid]
    refine not_congr ⟨fun huid => ?_, fun hkey => ?_⟩
    · rw [hstore.eq_of_uid hrow hgonemem huid, key_of_atRow? hgone]
    · rw [hstore.eq_of_key hgone hrow hkey]
  split
  next heq =>
    subst heq
    unfold atRow?
    rw [hats, List.find?_eq_none]
    intro row hrow
    obtain ⟨hmem, hstays⟩ := List.mem_filter.mp hrow
    simpa using (hkept row hmem).mp hstays
  next hne =>
    cases hrow : before.atRow? key with
    | none =>
        unfold atRow? at hrow ⊢
        rw [hats]
        exact find?_filter_of_none _ hrow
    | some row =>
        have hstays := (hkept row (List.mem_of_find?_eq_some hrow)).mpr
          (by rwa [key_of_atRow? hrow])
        unfold atRow? at hrow ⊢
        rw [hats]
        exact find?_filter_of_kept hrow hstays

end Store

end OneShot
