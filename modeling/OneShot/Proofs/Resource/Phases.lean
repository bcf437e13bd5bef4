import OneShot.Resource.Phase
import Mathlib.Data.List.Basic
import Mathlib.Order.Nat

/-!
# The forward order of phases

A stored phase goes onward if it stays as it is or moves to a known phase of
a strictly higher position.  An unknown phase goes nowhere, and the last phase
is never left.
-/

namespace OneShot.AtPhase

theorem ofText?_text (phase : AtPhase) : ofText? phase.text = some phase := by
  cases phase <;> decide

theorem text_of_ofText? {stored : String} {phase : AtPhase} (h : ofText? stored = some phase) :
    stored = phase.text := by
  have hfound := List.find?_some h
  exact (eq_of_beq hfound).symm

theorem text_inj {one other : AtPhase} (h : one.text = other.text) : one = other := by
  have heq := ofText?_text one
  rw [h, ofText?_text, Option.some.injEq] at heq
  exact heq.symm

theorem position_inj {one other : AtPhase} (h : one.position = other.position) : one = other := by
  cases one <;> cases other <;> first | rfl | cases h

theorem rank?_text (phase : AtPhase) : rank? phase.text = some phase.position := by
  rw [rank?, ofText?_text, Option.map_some]

theorem text_of_rank? {stored : String} {phase : AtPhase}
    (h : rank? stored = some phase.position) : stored = phase.text := by
  obtain ⟨known, hknown, hposition⟩ := Option.map_eq_some_iff.mp h
  rw [text_of_ofText? hknown, position_inj hposition]

theorem rank?_le_done {stored : String} {rank : Nat} (h : rank? stored = some rank) :
    rank ≤ done.position := by
  obtain ⟨known, -, rfl⟩ := Option.map_eq_some_iff.mp h
  cases known <;> decide

/-- A move to a strictly later phase; both are known. -/
def Advances (earlier later : String) : Prop :=
  ∃ before after, rank? earlier = some before ∧ rank? later = some after ∧ before < after

theorem Advances.ne {earlier later : String} (h : Advances earlier later) : earlier ≠ later := by
  rintro rfl
  obtain ⟨before, after, hbefore, hafter, hlt⟩ := h
  rw [hbefore, Option.some.injEq] at hafter
  exact hlt.ne hafter

def Onward (earlier later : String) : Prop :=
  later = earlier ∨ Advances earlier later

variable {first second third : String}

theorem Advances.trans (h : Advances first second) (h' : Advances second third) :
    Advances first third := by
  obtain ⟨before, between, hbefore, hbetween, hlt⟩ := h
  obtain ⟨between', after, hbetween', hafter, hlt'⟩ := h'
  rw [hbetween, Option.some.injEq] at hbetween'
  exact ⟨before, after, hbefore, hafter, hlt.trans (hbetween' ▸ hlt')⟩

theorem Onward.trans (h : Onward first second) (h' : Onward second third) :
    Onward first third := by
  rcases h with rfl | h
  · exact h'
  · rcases h' with rfl | h'
    · exact Or.inr h
    · exact Or.inr (h.trans h')

theorem Onward.rank_le (h : Onward first second) {rank : Nat} (hrank : rank? first = some rank) :
    ∃ later, rank? second = some later ∧ rank ≤ later := by
  rcases h with rfl | ⟨before, after, hbefore, hafter, hlt⟩
  · exact ⟨rank, hrank, le_rfl⟩
  · rw [hbefore, Option.some.injEq] at hrank
    exact ⟨after, hafter, hrank ▸ hlt.le⟩

/-- The last phase is never left. -/
theorem Onward.eq_done (h : Onward done.text second) : second = done.text := by
  rcases h with rfl | ⟨before, after, hbefore, hafter, hlt⟩
  · rfl
  · rw [rank?_text, Option.some.injEq] at hbefore
    have hle := rank?_le_done hafter
    omega

theorem Advances.ne_done (h : Advances first second) : first ≠ done.text := by
  rintro rfl
  exact h.ne (Onward.eq_done (Or.inr h)).symm

theorem Onward.eq_of_unknown (h : Onward first second) (hunknown : rank? first = none) :
    second = first := by
  rcases h with rfl | ⟨before, after, hbefore, -, -⟩
  · rfl
  · rw [hunknown] at hbefore
    cases hbefore

end OneShot.AtPhase
