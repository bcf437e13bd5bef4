import OneShot.Proofs.Store.Versions

/-!
# Writing a status

A status that is written for a command as it stands in its row gets through if
the version can be compared with a stored one.  The new row has the phase that
was written and the next version, and is read as the command in that phase.
-/

namespace OneShot

/-- A command as its row shows it in another phase and at another version. -/
def At.moved (resource : At) (phase : String) (version : Int) : At :=
  { resource with
    metadata := { resource.metadata with resourceVersion := versionText version }
    phase := phase }

theorem AtRow.toAt_moved {row : AtRow} {resource : At} (hread : row.toAt = .ok resource)
    (phase : String) (version : Int) :
    AtRow.toAt { row with phase, version } = .ok (resource.moved phase version) := by
  unfold AtRow.toAt at hread ⊢
  cases hlabels : readLabels row.labels with
  | error fault =>
      rw [hlabels] at hread
      cases hread
  | ok labels =>
      rw [hlabels] at hread
      cases hread
      rfl

namespace Store

/-- A version that can be compared with a stored one. -/
def Comparable (version : Int) : Prop :=
  -versionBound ≤ version ∧ version < versionBound

instance (version : Int) : Decidable (Comparable version) :=
  inferInstanceAs (Decidable (_ ∧ _))

variable {store : Store} {resource : At} {row : AtRow}

theorem comparable_iff (version : Int) :
    (decide (version < -versionBound) || decide (versionBound ≤ version)) = false ↔
      Comparable version := by
  rw [Bool.or_eq_false_iff, decide_eq_false_iff_not, decide_eq_false_iff_not, Int.not_lt,
    Int.not_le]
  rfl

/-- A version that can be compared is short enough to be read back. -/
theorem Comparable.readInteger?_versionText {version : Int} (hbounds : Comparable version) :
    Decimal.readInteger? (versionText version) = some version := by
  have hlt : version.natAbs < 10 ^ (19 + 1) := by
    obtain ⟨hlower, hupper⟩ := hbounds
    simp only [versionBound] at hlower hupper
    omega
  rw [versionText_of_lt hbounds.2]
  exact Decimal.readInteger?_intText_of_lt hlt (by decide)

/-- The fault of a write at a version that no row of the table has. -/
def incomparable (version : Int) : Fault :=
  if versionBound ≤ version ∨ Decimal.longestInteger < (Text.digitsOf version.natAbs).length then
    .conflict (.unusable (versionText version))
  else .other .outOfRange

/-- A status that is written at a version text that is read as the version of the row. -/
theorem updateAtStatus_of_read (hrow : store.atRow? resource.key = some row)
    (hversion : Decimal.readInteger? resource.metadata.resourceVersion = some row.version)
    (hbounds : Comparable row.version) {shown : At} (hread : row.toAt = .ok shown) :
    let after := store.changeAt resource.key fun row =>
      { row with phase := resource.phase, version := row.version + 1 }
    let updated := shown.moved resource.phase (row.version + 1)
    store.updateAtStatus resource =
      { answer := .ok updated, store := after, events := [atEvent .modified updated] } := by
  intro after updated
  have hafter : after.getAt resource.key = .ok updated := by
    have hmoved : after.atRow? resource.key =
        some { row with phase := resource.phase, version := row.version + 1 } :=
      atRow?_changeAt_self (by exact fun _ => rfl) hrow
    unfold getAt
    rw [hmoved]
    exact AtRow.toAt_moved hread _ _
  unfold updateAtStatus writeStatus
  rw [hversion]
  simp only [(comparable_iff row.version).mpr hbounds, Bool.false_eq_true, if_false]
  rw [show store.atRow? resource.metadata.key = some row from hrow]
  simp only [ne_eq, not_true_eq_false, if_false]
  exact congrArg (commit _ _ · _) hafter

/-- A status that is written at the version text of the row. -/
theorem updateAtStatus_of_current (hrow : store.atRow? resource.key = some row)
    (hversion : resource.metadata.resourceVersion = versionText row.version)
    (hbounds : Comparable row.version) {shown : At} (hread : row.toAt = .ok shown) :
    let after := store.changeAt resource.key fun row =>
      { row with phase := resource.phase, version := row.version + 1 }
    let updated := shown.moved resource.phase (row.version + 1)
    store.updateAtStatus resource =
      { answer := .ok updated, store := after, events := [atEvent .modified updated] } :=
  updateAtStatus_of_read hrow (hversion ▸ hbounds.readInteger?_versionText) hbounds hread

theorem updateAtStatus_of_incomparable
    (hversion : resource.metadata.resourceVersion = versionText row.version)
    (hbounds : ¬ Comparable row.version) :
    store.updateAtStatus resource = store.refuse (incomparable row.version) := by
  have houtside := eq_true_of_ne_false (mt (comparable_iff row.version).mp hbounds)
  unfold updateAtStatus writeStatus incomparable
  rw [hversion]
  by_cases hbound : versionBound ≤ row.version
  · rw [readInteger?_versionText_of_le hbound, if_pos (Or.inl hbound)]
  · rw [versionText_of_lt (not_le.mp hbound), Decimal.readInteger?_intText]
    split
    next hread =>
      split at hread
      next hlong => rw [if_pos (Or.inr hlong)]
      next => cases hread
    next observed hread =>
      split at hread
      next => cases hread
      next hshort =>
        cases hread
        simp only [houtside, if_true, if_neg (not_or.mpr ⟨hbound, hshort⟩)]

/-- A status is written, or nothing changes. -/
theorem updateAtStatus_cases (store : Store) (resource : At) :
    (store.updateAtStatus resource).store = store ∨
      ∃ row, store.atRow? resource.key = some row ∧ Comparable row.version ∧
        Decimal.readInteger? resource.metadata.resourceVersion = some row.version ∧
        (store.updateAtStatus resource).store = store.changeAt resource.key fun row =>
          { row with phase := resource.phase, version := row.version + 1 } := by
  unfold updateAtStatus writeStatus
  split
  next => exact Or.inl rfl
  next observed hobserved =>
    split
    next => exact Or.inl rfl
    next hbounds =>
      split
      next => exact Or.inl rfl
      next row hrow =>
        split
        next => exact Or.inl rfl
        next hversion =>
          have hcurrent : row.version = observed := not_not.mp hversion
          simp only [commit]
          split
          next =>
            refine Or.inr ⟨row, hrow, ?_, by rw [hobserved, hcurrent], rfl⟩
            rw [hcurrent]
            exact (comparable_iff observed).mp (eq_false_of_ne_true hbounds)
          next => exact Or.inl rfl

end Store

end OneShot
