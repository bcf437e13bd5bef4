import OneShot.Table.Age
import OneShot.Proofs.Calendar.Durations

/-!
# Ages as they are shown

The age of a number of seconds is the largest whole number of its unit, so ages grow with the
seconds across all units.  The seconds are those that are counted for the time between two moments,
which is one more than there are just below some whole seconds of many centuries.
-/

namespace OneShot

open Calendar
open OneShot.Text

namespace AgeUnit

/-- The seconds from which on a unit is used. -/
def start : AgeUnit → Nat
  | seconds => 0
  | minutes => 120
  | hours => 10800
  | days => 172800

/-- The unit for a number of seconds. -/
def suiting (elapsed : Nat) : AgeUnit :=
  if elapsed < 120 then .seconds
  else if elapsed < 10800 then .minutes
  else if elapsed < 172800 then .hours
  else .days

theorem length_dvd_start (unit : AgeUnit) : unit.length ∣ unit.start := by
  cases unit <;> decide

/-- A unit that suits a later time suits all times from its start on. -/
theorem suiting_eq_of_start_le {elapsed later : Nat} (hle : elapsed ≤ later)
    (hstart : (suiting later).start ≤ elapsed) : suiting elapsed = suiting later := by
  unfold suiting at hstart ⊢
  split at hstart
  next hseconds => rw [if_pos (by omega), if_pos hseconds]
  next hseconds =>
    split at hstart
    next hminutes =>
      change 120 ≤ elapsed at hstart
      rw [if_neg (by omega), if_pos (by omega), if_neg hseconds, if_pos hminutes]
    next hminutes =>
      split at hstart
      next hhours =>
        change 10800 ≤ elapsed at hstart
        rw [if_neg (by omega), if_neg (by omega), if_pos (by omega), if_neg hseconds,
          if_neg hminutes, if_pos hhours]
      next hhours =>
        change 172800 ≤ elapsed at hstart
        rw [if_neg (by omega), if_neg (by omega), if_neg (by omega), if_neg hseconds,
          if_neg hminutes, if_neg hhours]

theorem start_suiting_le (elapsed : Nat) : (suiting elapsed).start ≤ elapsed := by
  unfold suiting
  split
  next => exact Nat.zero_le elapsed
  next hseconds =>
    split
    next => exact Nat.le_of_not_lt hseconds
    next hminutes =>
      split
      next => exact Nat.le_of_not_lt hminutes
      next hhours => exact Nat.le_of_not_lt hhours

theorem letter_inj {unit other : AgeUnit} (heq : unit.letter = other.letter) : unit = other := by
  cases unit <;> cases other <;> first | rfl | exact absurd heq (by decide)

theorem length_letter (unit : AgeUnit) : unit.letter.toList.length = 1 := by
  cases unit <;> rfl

end AgeUnit

namespace Age

/-- An age for a number of seconds, rounded down in the unit that suits them. -/
structure RoundsDown (age : Age) (elapsed : Nat) : Prop where
  unit : age.unit = AgeUnit.suiting elapsed
  least : age.count * age.unit.length ≤ elapsed
  most : elapsed < (age.count + 1) * age.unit.length

/-! ## Units -/

theorem roundsDown_ofSeconds (elapsed : Nat) : (ofSeconds elapsed).RoundsDown elapsed := by
  unfold ofSeconds
  dsimp only
  split
  next hseconds => constructor <;> simp [AgeUnit.suiting, AgeUnit.length, hseconds]
  next hseconds =>
    split
    next hminutes =>
      have hunit : AgeUnit.suiting elapsed = .minutes := by
        rw [AgeUnit.suiting, if_neg hseconds, if_pos (by omega)]
      constructor <;> simp only [AgeUnit.length, hunit] <;> omega
    next hminutes =>
      split
      next hhours =>
        have hunit : AgeUnit.suiting elapsed = .hours := by
          rw [AgeUnit.suiting, if_neg hseconds, if_neg (by omega), if_pos (by omega)]
        constructor <;> simp only [AgeUnit.length, hunit] <;> omega
      next hhours =>
        have hunit : AgeUnit.suiting elapsed = .days := by
          rw [AgeUnit.suiting, if_neg hseconds, if_neg (by omega), if_neg (by omega)]
        constructor <;> simp only [AgeUnit.length, hunit] <;> omega

/-- Ages grow with the seconds, as every unit begins with a whole number of it. -/
theorem RoundsDown.seconds_le {age older : Age} {elapsed later : Nat} (h : age.RoundsDown elapsed)
    (h' : older.RoundsDown later) (hle : elapsed ≤ later) : age.seconds ≤ older.seconds := by
  have hlargest : ∀ whole, whole * older.unit.length ≤ later →
      whole * older.unit.length ≤ older.seconds := by
    intro whole hwhole
    have hlt := Nat.lt_of_mul_lt_mul_right (hwhole.trans_lt h'.most)
    exact Nat.mul_le_mul_right _ (Nat.le_of_lt_succ hlt)
  by_cases hunit : age.unit = older.unit
  · rw [Age.seconds, hunit]
    refine hlargest age.count ?_
    rw [← hunit]
    exact h.least.trans hle
  · have hstart : elapsed < older.unit.start := by
      rw [h.unit, h'.unit] at hunit
      rw [h'.unit]
      exact Nat.lt_of_not_le (mt (AgeUnit.suiting_eq_of_start_le hle) hunit)
    have hbegun : older.unit.start ≤ later := by
      rw [h'.unit]
      exact AgeUnit.start_suiting_le later
    obtain ⟨whole, hwhole⟩ := older.unit.length_dvd_start
    rw [hwhole, Nat.mul_comm] at hstart hbegun
    exact (h.least.trans hstart.le).trans (hlargest whole hbegun)

/-! ## Texts -/

/-- A text is that of one age. -/
theorem text_inj {age other : Age} (heq : age.text = other.text) : age = other := by
  obtain ⟨count, unit⟩ := age
  obtain ⟨count', unit'⟩ := other
  simp only [text, ← String.toList_inj, String.toList_append] at heq
  obtain ⟨hcount, hunit⟩ := List.append_inj' heq
    (unit.length_letter.trans unit'.length_letter.symm)
  rw [Decimal.natText_inj (String.toList_inj.mp hcount),
    AgeUnit.letter_inj (String.toList_inj.mp hunit)]

/-! ## Moments -/

/-- The microseconds from one moment of the calendar to another, none if it is not later. -/
structure Between (created now : DateTime) (micros : Nat) : Prop where
  first : created.OnCalendar
  last : now.OnCalendar
  alike : created.offset.isSome = now.offset.isSome
  micros : micros = (now.instant - created.instant).toNat

section Moments

variable {created now : DateTime} {micros : Nat}

theorem elapsed?_of_between (h : Between created now micros) :
    elapsed? created now = some (countedSeconds micros) := by
  have hlt := h.last.between_lt h.first
  have hmicros := h.micros
  rw [elapsed?, h.alike, if_pos (beq_self_eq_true _)]
  simp only [isNegative_secondsOfMicros hlt, decide_eq_true_eq]
  generalize now.instant - created.instant = between at hlt hmicros
  split
  next hnegative =>
    obtain rfl : micros = 0 := by omega
    rfl
  next hnonnegative =>
    obtain rfl : between = micros := by omega
    rw [integralPart_secondsOfMicros (by omega)]

theorem shown?_of_between (h : Between created now micros) :
    shown? (some created) now = some (ofSeconds (countedSeconds micros)).text := by
  rw [shown?, elapsed?_of_between h, Option.map_some]

/-- The text of an age is that of the seconds that are counted, which are the whole seconds but for
durations just below one, and none of these is shorter than five centuries.  A longer duration is
never shown as a shorter age. -/
theorem shown_rounds_counted_down (h : Between created now micros) :
    (∃ age : Age, shown? (some created) now = some age.text ∧
      age.RoundsDown (micros / 10 ^ 6 + if RoundsUp micros then 1 else 0)) ∧
    (micros < 2 ^ 34 * 10 ^ 6 → ¬ RoundsUp micros) ∧
    ∀ created' now' micros', Between created' now' micros' →
      (micros ≤ micros' ∨ ¬ RoundsUp micros ∧ micros / 10 ^ 6 ≤ micros' / 10 ^ 6) →
      ∀ age older : Age, shown? (some created) now = some age.text →
        shown? (some created') now' = some older.text → age.seconds ≤ older.seconds := by
  refine ⟨⟨_, shown?_of_between h, roundsDown_ofSeconds _⟩, not_roundsUp_of_lt, ?_⟩
  intro created' now' micros' h' hlater age older hage holder
  have hcounted : countedSeconds micros ≤ countedSeconds micros' := by
    rcases hlater with hle | ⟨hexact, hle⟩
    · exact countedSeconds_mono hle
    · rw [countedSeconds_of_not_roundsUp hexact]
      exact hle.trans (Nat.le_add_right _ _)
  rw [shown?_of_between h] at hage
  rw [shown?_of_between h'] at holder
  rw [← text_inj (Option.some.inj hage), ← text_inj (Option.some.inj holder)]
  exact (roundsDown_ofSeconds _).seconds_le (roundsDown_ofSeconds _) hcounted

end Moments

theorem shown_rounds_counted_down_of_fraction :
    Between ⟨⟨2026, 10, 19⟩, 9, 0, 0, 500000, some 0⟩ ⟨⟨2026, 10, 19⟩, 12, 0, 0, 0, some 0⟩
      10799500000 ∧
    ∃ age : Age, shown? (some ⟨⟨2026, 10, 19⟩, 9, 0, 0, 500000, some 0⟩)
        ⟨⟨2026, 10, 19⟩, 12, 0, 0, 0, some 0⟩ = some age.text ∧ age.RoundsDown 10799 := by
  have hbetween : Between ⟨⟨2026, 10, 19⟩, 9, 0, 0, 500000, some 0⟩
      ⟨⟨2026, 10, 19⟩, 12, 0, 0, 0, some 0⟩ 10799500000 :=
    { first := .of_utc (by decide) (by decide) (by decide) (by decide) (by decide) rfl
      last := .of_utc (by decide) (by decide) (by decide) (by decide) (by decide) rfl
      alike := rfl
      micros := by decide }
  obtain ⟨⟨age, hshown, hrounds⟩, hexact, -⟩ := shown_rounds_counted_down hbetween
  rw [if_neg (hexact (by decide))] at hrounds
  exact ⟨hbetween, age, hshown, hrounds⟩

/-- A microsecond is missing to a whole number of days, and the age is shown as if it were not. -/
theorem shown_above_elapsed :
    ¬ ∀ created now micros, Between created now micros →
      ∃ age : Age, shown? (some created) now = some age.text ∧
        age.RoundsDown (micros / 10 ^ 6) := by
  intro hclaim
  have hbetween : Between ⟨⟨1, 1, 1⟩, 0, 0, 0, 1, some 0⟩ ⟨⟨2026, 10, 19⟩, 0, 0, 0, 0, some 0⟩
      63927964799999999 :=
    { first := .of_utc (by decide) (by decide) (by decide) (by decide) (by decide) rfl
      last := .of_utc (by decide) (by decide) (by decide) (by decide) (by decide) rfl
      alike := rfl
      micros := by decide +kernel }
  obtain ⟨age, hshown, hrounds⟩ := hclaim _ _ _ hbetween
  have htext : shown? (some ⟨⟨1, 1, 1⟩, 0, 0, 0, 1, some 0⟩)
      ⟨⟨2026, 10, 19⟩, 0, 0, 0, 0, some 0⟩ = some (Age.text ⟨739907, .days⟩) := by
    decide +kernel
  obtain rfl : age = ⟨739907, .days⟩ := text_inj (Option.some.inj (hshown.symm.trans htext))
  exact absurd hrounds.least (by decide)

end Age

end OneShot
