import OneShot.Proofs.Decimal.Integers
import OneShot.Proofs.Store.StatusWrites

/-!
# Version texts

A status is written if its version text names the version of the row: every numeral for the
version will do, the text that the store reports among them.  A text that names another version
or none loses, and one that names a number beyond the range of versions ends in a fault that no
client expects.  The version after the last one of the range is no whole number: no text names it,
and so no status is written at it ever again.
-/

namespace OneShot.Store

open OneShot.Decimal

theorem Comparable.denotes_versionText {version : Int} (hbounds : Comparable version) :
    Denotes (versionText version) version :=
  readInteger?_eq_some_iff.mp hbounds.readInteger?_versionText

theorem not_denotes_versionText {version : Int} (hbound : versionBound ≤ version) (value : Int) :
    ¬ Denotes (versionText version) value := by
  intro hdenotes
  have hread := readInteger?_eq_some_iff.mpr hdenotes
  rw [readInteger?_versionText_of_le hbound] at hread
  cases hread

/-- Why the status of a scheduled command is not written, and the fault that tells of it. -/
inductive Refusal (store : Store) (resource : At) : Fault → Prop where
  | unusable (hnone : ∀ value, ¬ Denotes resource.metadata.resourceVersion value) :
      Refusal store resource (.conflict (.unusable resource.metadata.resourceVersion))
  | outOfRange {value : Int} (hdenoted : Denotes resource.metadata.resourceVersion value)
      (hbounds : ¬ Comparable value) : Refusal store resource (.other .outOfRange)
  | missing {value : Int} (hdenoted : Denotes resource.metadata.resourceVersion value)
      (hbounds : Comparable value) (hrow : store.atRow? resource.key = none) :
      Refusal store resource (.notFound .at resource.key)
  | stale {value : Int} {row : AtRow} (hdenoted : Denotes resource.metadata.resourceVersion value)
      (hbounds : Comparable value) (hrow : store.atRow? resource.key = some row)
      (hother : row.version ≠ value) :
      Refusal store resource (.conflict (.stale resource.key value))
  | unreadable {row : AtRow} (hdenoted : Denotes resource.metadata.resourceVersion row.version)
      (hbounds : Comparable row.version) (hrow : store.atRow? resource.key = some row)
      (hlabels : Column.readLabels? row.labels = none) :
      Refusal store resource (.other (unreadableCause row.labels))

variable {store : Store} {resource : At}

theorem Refusal.updateAtStatus_eq {fault : Fault} (hrefusal : Refusal store resource fault) :
    store.updateAtStatus resource = store.refuse fault := by
  unfold updateAtStatus writeStatus
  cases hrefusal with
  | unusable hnone =>
      have hread : readInteger? resource.metadata.resourceVersion = none := by
        rw [Option.eq_none_iff_forall_ne_some]
        exact fun value hvalue => hnone value (readInteger?_eq_some_iff.mp hvalue)
      rw [hread]
  | outOfRange hdenoted hbounds =>
      have houtside := eq_true_of_ne_false (mt (comparable_iff _).mp hbounds)
      rw [readInteger?_eq_some_iff.mpr hdenoted]
      simp only [houtside, if_true]
  | missing hdenoted hbounds hrow =>
      rw [readInteger?_eq_some_iff.mpr hdenoted]
      simp only [(comparable_iff _).mpr hbounds, Bool.false_eq_true, if_false]
      rw [show store.atRow? resource.metadata.key = none from hrow]
      rfl
  | stale hdenoted hbounds hrow hother =>
      rw [readInteger?_eq_some_iff.mpr hdenoted]
      simp only [(comparable_iff _).mpr hbounds, Bool.false_eq_true, if_false]
      rw [show store.atRow? resource.metadata.key = some _ from hrow]
      simp only [hother, ne_eq, not_false_eq_true, if_true]
      rfl
  | @unreadable row hdenoted hbounds hrow hlabels =>
      rw [readInteger?_eq_some_iff.mpr hdenoted]
      simp only [(comparable_iff _).mpr hbounds, Bool.false_eq_true, if_false]
      rw [show store.atRow? resource.metadata.key = some _ from hrow]
      simp only [ne_eq, not_true_eq_false, if_false]
      have hafter : (store.changeAt resource.key fun row =>
          { row with phase := resource.phase, version := row.version + 1 }).getAt resource.key =
            .error (.other (unreadableCause row.labels)) := by
        have hmoved : (store.changeAt resource.key fun row =>
            { row with phase := resource.phase, version := row.version + 1 }).atRow?
              resource.key =
                some { row with phase := resource.phase, version := row.version + 1 } :=
          atRow?_changeAt_self (by exact fun _ => rfl) hrow
        unfold getAt
        rw [hmoved]
        simp only [AtRow.toAt, readLabels, hlabels]
        rfl
      exact congrArg (commit _ _ · _) hafter

/-- The row that a status is written to, and the command that it shows. -/
structure Current (store : Store) (resource : At) (row : AtRow) (shown : At) : Prop where
  found : store.atRow? resource.key = some row
  denoted : Denotes resource.metadata.resourceVersion row.version
  bounds : Comparable row.version
  read : row.toAt = .ok shown

theorem Current.updateAtStatus_eq {row : AtRow} {shown : At}
    (hcurrent : Current store resource row shown) :
    let after := store.changeAt resource.key fun row =>
      { row with phase := resource.phase, version := row.version + 1 }
    let updated := shown.moved resource.phase (row.version + 1)
    store.updateAtStatus resource =
      { answer := .ok updated, store := after, events := [atEvent .modified updated] } :=
  updateAtStatus_of_read hcurrent.found (readInteger?_eq_some_iff.mpr hcurrent.denoted)
    hcurrent.bounds hcurrent.read

theorem current_or_refusal (store : Store) (resource : At) :
    (∃ row shown, Current store resource row shown) ∨ ∃ fault, Refusal store resource fault := by
  by_cases hnamed : ∃ value, Denotes resource.metadata.resourceVersion value
  · obtain ⟨value, hdenoted⟩ := hnamed
    by_cases hbounds : Comparable value
    · cases hrow : store.atRow? resource.key with
      | none => exact Or.inr ⟨_, .missing hdenoted hbounds hrow⟩
      | some row =>
          by_cases hversion : row.version = value
          · subst hversion
            cases hlabels : Column.readLabels? row.labels with
            | none => exact Or.inr ⟨_, .unreadable hdenoted hbounds hrow hlabels⟩
            | some labels =>
                have hread : ∃ shown, row.toAt = .ok shown := by
                  rw [AtRow.toAt, readLabels, hlabels]
                  exact ⟨_, rfl⟩
                obtain ⟨shown, hshown⟩ := hread
                exact Or.inl ⟨row, shown, hrow, hdenoted, hbounds, hshown⟩
          · exact Or.inr ⟨_, .stale hdenoted hbounds hrow hversion⟩
    · exact Or.inr ⟨_, .outOfRange hdenoted hbounds⟩
  · exact Or.inr ⟨_, .unusable (not_exists.mp hnamed)⟩

theorem exists_current_of_ok {updated : At}
    (hanswer : (store.updateAtStatus resource).answer = .ok updated) :
    ∃ row shown, Current store resource row shown ∧
      updated = shown.moved resource.phase (row.version + 1) := by
  rcases current_or_refusal store resource with ⟨row, shown, hcurrent⟩ | ⟨fault, hrefusal⟩
  · rw [hcurrent.updateAtStatus_eq] at hanswer
    cases hanswer
    exact ⟨row, shown, hcurrent, rfl⟩
  · rw [hrefusal.updateAtStatus_eq] at hanswer
    cases hanswer

theorem refusal_of_error {fault : Fault}
    (hanswer : (store.updateAtStatus resource).answer = .error fault) :
    Refusal store resource fault := by
  rcases current_or_refusal store resource with ⟨row, shown, hcurrent⟩ | ⟨other, hrefusal⟩
  · rw [hcurrent.updateAtStatus_eq] at hanswer
    cases hanswer
  · rw [hrefusal.updateAtStatus_eq] at hanswer
    cases hanswer
    exact hrefusal

/-- A status is written exactly if its version text denotes the version of its row, as the
text that the store reports does unless that version is past the last whole number; whenever
it is not written, nothing changes and the fault tells why. -/
theorem status_written_at_denoted_version (store : Store) (resource : At) :
    let effect := store.updateAtStatus resource
    (∀ updated, effect.answer = .ok updated ↔ ∃ row shown,
      Current store resource row shown ∧
        updated = shown.moved resource.phase (row.version + 1)) ∧
    (∀ fault, effect.answer = .error fault ↔ Refusal store resource fault) ∧
    (∀ updated, effect.answer = .ok updated →
      effect.events = [atEvent .modified updated] ∧
        effect.store = store.changeAt resource.key fun row =>
          { row with phase := resource.phase, version := row.version + 1 }) ∧
    (∀ fault, effect.answer = .error fault → effect.store = store ∧ effect.events = []) ∧
    ∀ row, store.atRow? resource.key = some row →
      (Comparable row.version → Denotes (versionText row.version) row.version) ∧
        (versionBound ≤ row.version → ∀ value, ¬ Denotes (versionText row.version) value) := by
  intro effect
  refine ⟨fun updated => ⟨exists_current_of_ok, ?_⟩, fun fault => ⟨refusal_of_error, ?_⟩,
    ?_, ?_, fun _ _ => ⟨Comparable.denotes_versionText, not_denotes_versionText⟩⟩
  · rintro ⟨row, shown, hcurrent, rfl⟩
    exact congrArg Effect.answer hcurrent.updateAtStatus_eq
  · intro hrefusal
    exact congrArg Effect.answer hrefusal.updateAtStatus_eq
  · intro updated hanswer
    obtain ⟨row, shown, hcurrent, rfl⟩ := exists_current_of_ok hanswer
    simp only [effect, hcurrent.updateAtStatus_eq, and_self]
  · intro fault hanswer
    simp only [effect, (refusal_of_error hanswer).updateAtStatus_eq]
    exact ⟨rfl, rfl⟩

/-- The text "+0_1" is as good as the version text that the store reports, and "0.1" is not. -/
theorem status_written_at_denoted_version_in_other_words :
    let now : Calendar.DateTime := ⟨⟨2024, 1, 2⟩, 0, 0, 0, 0, some 0⟩
    let store : Store :=
      { ats := [⟨"uid-1", "default", "a", 1, now, "{}", "2024-01-01T00:00:00Z", "echo", ""⟩] }
    let written (version : String) : At :=
      { metadata := { name := "a", resourceVersion := version }
        spec := ⟨"2024-01-01T00:00:00Z", "echo"⟩
        phase := "DONE" }
    Denotes "+0_1" 1 ∧ (store.updateAtStatus (written "+0_1")).store =
      { ats :=
          [⟨"uid-1", "default", "a", 2, now, "{}", "2024-01-01T00:00:00Z", "echo", "DONE"⟩] } ∧
      (∀ value, ¬ Denotes "0.1" value) ∧
      (store.updateAtStatus (written "0.1")).store = store := by
  intro now store written
  let updated : At :=
    { metadata :=
        { name := "a", uid := "uid-1", resourceVersion := "2", created := some now }
      spec := ⟨"2024-01-01T00:00:00Z", "echo"⟩
      phase := "DONE" }
  obtain ⟨hwritten, -, hchanged, -⟩ := status_written_at_denoted_version store (written "+0_1")
  obtain ⟨-, hrefused, -, hkept, -⟩ := status_written_at_denoted_version store (written "0.1")
  have hanswer : (store.updateAtStatus (written "+0_1")).answer = .ok updated := by
    decide +kernel
  have hconflict : (store.updateAtStatus (written "0.1")).answer =
      .error (.conflict (.unusable "0.1")) := by decide +kernel
  obtain ⟨row, shown, hcurrent, -⟩ := (hwritten updated).mp hanswer
  refine ⟨?_, ?_, ?_, (hkept _ hconflict).1⟩
  · have hrow : store.atRow? (written "+0_1").key = store.ats.head? := by decide +kernel
    rw [hcurrent.found] at hrow
    cases hrow
    exact hcurrent.denoted
  · rw [(hchanged updated hanswer).2]
    decide +kernel
  · cases (hrefused _).mp hconflict with
    | unusable hnone => exact hnone

/-- A version text beyond the range of versions ends in a fault of no class, and a text that
is not the one of the row is written all the same. -/
theorem strange_version_texts_are_no_conflicts :
    (¬ ∀ (store : Store) (resource : At) (fault : Fault),
      (store.updateAtStatus resource).answer = .error fault →
        fault.isNotFound = true ∨ fault.isConflict = true ∨ ∃ cause, fault = .transient cause) ∧
    ¬ ∀ (store : Store) (resource updated : At),
      (store.updateAtStatus resource).answer = .ok updated →
        ∃ row, store.atRow? resource.key = some row ∧
          resource.metadata.resourceVersion = versionText row.version := by
  let now : Calendar.DateTime := ⟨⟨2024, 1, 2⟩, 0, 0, 0, 0, some 0⟩
  let store : Store :=
    { ats := [⟨"uid-1", "default", "a", 1, now, "{}", "2024-01-01T00:00:00Z", "echo", ""⟩] }
  let written (version : String) : At :=
    { metadata := { name := "a", resourceVersion := version }
      spec := ⟨"2024-01-01T00:00:00Z", "echo"⟩ }
  constructor
  · intro hclasses
    have hanswer : (store.updateAtStatus (written "9223372036854775808")).answer =
        .error (.other .outOfRange) := by decide +kernel
    rcases hclasses _ _ _ hanswer with hmissing | hconflict | ⟨cause, hcause⟩
    · cases hmissing
    · cases hconflict
    · cases hcause
  · intro htexts
    let updated : At :=
      { metadata := { name := "a", uid := "uid-1", resourceVersion := "2", created := some now }
        spec := ⟨"2024-01-01T00:00:00Z", "echo"⟩ }
    have hanswer : (store.updateAtStatus (written "+1")).answer = .ok updated := by
      decide +kernel
    obtain ⟨row, hrow, htext⟩ := htexts _ _ _ hanswer
    have hone : (store.atRow? (written "+1").key).map (fun row => versionText row.version) =
        some "1" := by decide +kernel
    rw [hrow, Option.map_some, ← htext] at hone
    exact absurd hone (by decide)

end OneShot.Store
