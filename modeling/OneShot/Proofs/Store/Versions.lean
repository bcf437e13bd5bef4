import OneShot.Proofs.Store.Changes
import OneShot.Proofs.Resource.Phases
import OneShot.Proofs.Decimal.Numerals
import Mathlib.Algebra.Order.Group.Int

/-!
# Versions of rows

A row that is not removed only grows: its version never falls, the same
version means the same phase, and the phase goes onward.  So a reader who finds
a version again finds the phase that it has read, however many others have
written in between.
-/

namespace OneShot

/-! ## Texts of versions -/

section Texts

variable {version found : Int}

theorem versionText_of_lt (hlt : version < Store.versionBound) :
    versionText version = Text.intText version :=
  if_pos hlt

theorem readInteger?_versionText_of_le (hle : Store.versionBound ≤ version) :
    Decimal.readInteger? (versionText version) = none := by
  rw [versionText, if_neg hle.not_gt]
  decide +kernel

/-- A version text is read as the version that it is the text of, or not at all. -/
theorem eq_of_readInteger?_versionText
    (hread : Decimal.readInteger? (versionText version) = some found) : found = version := by
  by_cases hlt : version < Store.versionBound
  · rw [versionText_of_lt hlt] at hread
    exact Decimal.eq_of_readInteger?_intText hread
  · rw [readInteger?_versionText_of_le (not_lt.mp hlt)] at hread
    cases hread

end Texts

/-! ## Rows that grow -/

/-- A later state of the same row. -/
structure AtRow.Onward (row later : AtRow) : Prop where
  version : row.version ≤ later.version
  unchanged : later.version = row.version → later.phase = row.phase
  phase : AtPhase.Onward row.phase later.phase

theorem AtRow.Onward.refl (row : AtRow) : row.Onward row :=
  ⟨le_rfl, fun _ => rfl, Or.inl rfl⟩

theorem AtRow.Onward.trans {row later latest : AtRow} (h : row.Onward later)
    (h' : later.Onward latest) : row.Onward latest := by
  refine ⟨h.version.trans h'.version, fun hsame => ?_, h.phase.trans h'.phase⟩
  have hbetween : later.version = row.version :=
    le_antisymm (hsame ▸ h'.version) h.version
  rw [h'.unchanged (hsame.trans hbetween.symm), h.unchanged hbetween]

namespace Store

/-- Every row is still there, in a later state. -/
def Onward (before after : Store) : Prop :=
  ∀ key row, before.atRow? key = some row →
    ∃ later, after.atRow? key = some later ∧ row.Onward later

variable {before after latest : Store}

theorem Onward.trans (h : before.Onward after) (h' : after.Onward latest) :
    before.Onward latest := by
  intro key row hrow
  obtain ⟨later, hlater, hforth⟩ := h key row hrow
  obtain ⟨last, hlast, hforth'⟩ := h' key later hlater
  exact ⟨last, hlast, hforth.trans hforth'⟩

theorem Onward.of_eq (hats : after.ats = before.ats) : before.Onward after := by
  intro key row hrow
  exact ⟨row, (atRow?_of_eq hats key).trans hrow, .refl row⟩

theorem Onward.refl (store : Store) : store.Onward store := .of_eq rfl

theorem onward_changeAt {change : AtRow → AtRow} (hkey : ∀ row, (change row).key = row.key)
    {key : ObjectKey}
    (hchange : ∀ row, before.atRow? key = some row → row.Onward (change row)) :
    before.Onward (before.changeAt key change) := by
  intro other row hrow
  by_cases heq : other = key
  · subst heq
    exact ⟨change row, atRow?_changeAt_self hkey hrow, hchange row hrow⟩
  · exact ⟨row, (atRow?_changeAt_of_ne hkey heq).trans hrow, .refl row⟩

/-- A call that does not remove a row.  Where it writes a phase, it is to be
known that the phase of that version may be left for the new one. -/
theorem Change.onward {call : Call} {effect : Effect call.Reply}
    (hchange : Change before call effect) (hkeeps : ∀ key, call ≠ .deleteAt key)
    (hforward : ∀ resource row, call = .updateAtStatus resource →
      before.atRow? resource.key = some row →
      Decimal.readInteger? resource.metadata.resourceVersion = some row.version →
        AtPhase.Onward row.phase resource.phase) : before.Onward effect.store := by
  cases hchange with
  | refused hquiet => exact .of_eq hquiet.ats
  | read hquiet => exact .of_eq hquiet.ats
  | @addAt resource created _ row hfree hkey hshows hats htasks hanswer hevents =>
      intro key old hold
      refine ⟨old, ?_, .refl old⟩
      rw [atRow?_append hats, hold, Option.some_or]
  | @moveAt resource updated _ row hrow hversion hkey hstore hanswer hevents =>
      rw [hstore]
      refine onward_changeAt (by exact fun _ => rfl) fun old hold => ?_
      rw [hrow, Option.some.injEq] at hold
      subst hold
      refine ⟨Int.le_add_one le_rfl, fun hsame => ?_, hforward resource row rfl hrow hversion⟩
      simp only at hsame
      omega
  | @editAt key spec updated _ hkey hstore hanswer hevents =>
      rw [hstore]
      refine onward_changeAt (by exact fun _ => rfl) fun old _ => ?_
      exact ⟨Int.le_add_one le_rfl, fun _ => rfl, Or.inl rfl⟩
  | @removeAt key => exact absurd rfl (hkeeps key)
  | addTask _ _ _ _ hats => exact .of_eq hats
  | moveTask _ _ hstore =>
      rw [hstore]
      exact .of_eq rfl

end Store

/-! ## What a reader still knows -/

/-- A command as it was read, of which the row may be in a later state now. -/
def Store.Recalls (store : Store) (resource : At) : Prop :=
  ∃ read row : AtRow, read.Shows resource ∧ store.atRow? resource.key = some row ∧ read.Onward row

theorem Store.recalls_of_getAt {store : Store} {key : ObjectKey} {resource : At}
    (hread : store.getAt key = .ok resource) : store.Recalls resource := by
  obtain ⟨row, hrow, hshows⟩ := getAt_eq_ok hread
  refine ⟨row, row, hshows, ?_, .refl row⟩
  rw [hshows.key, key_of_atRow? hrow]
  exact hrow

theorem Store.Recalls.onward {before after : Store} {resource : At}
    (hrecalls : before.Recalls resource) (honward : before.Onward after) :
    after.Recalls resource := by
  obtain ⟨read, row, hshows, hrow, hforth⟩ := hrecalls
  obtain ⟨later, hlater, hforth'⟩ := honward resource.key row hrow
  exact ⟨read, later, hshows, hlater, hforth.trans hforth'⟩

/-- Who finds the version that was read finds the phase that was read. -/
theorem Store.Recalls.phase_eq {store : Store} {resource : At} (hrecalls : store.Recalls resource)
    {row : AtRow} (hrow : store.atRow? resource.key = some row)
    (hversion : Decimal.readInteger? resource.metadata.resourceVersion = some row.version) :
    row.phase = resource.phase := by
  obtain ⟨read, found, hshows, hfound, hforth⟩ := hrecalls
  rw [hrow, Option.some.injEq] at hfound
  subst hfound
  rw [hshows.version] at hversion
  rw [hforth.unchanged (eq_of_readInteger?_versionText hversion), hshows.phase]

end OneShot
