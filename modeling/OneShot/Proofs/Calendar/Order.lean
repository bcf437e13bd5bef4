import OneShot.Proofs.Calendar.Stamps

/-!
# The order of moments

Dates of the calendar come one after the other as their years, months and days do, so the
count of days before a date grows from date to date, and the instant of a moment in UTC from
moment to moment.
-/

namespace OneShot.Calendar

/-- Whether a date comes before another, by year, month and day. -/
def Date.Before (one other : Date) : Prop :=
  one.year < other.year ∨ one.year = other.year ∧
    (one.month < other.month ∨ one.month = other.month ∧ one.day < other.day)

section Dates

variable {one other : Date}

theorem Date.before_or_eq_or_before (one other : Date) :
    one.Before other ∨ one = other ∨ other.Before one := by
  obtain ⟨year, month, day⟩ := one
  obtain ⟨year', month', day'⟩ := other
  simp only [Date.Before, Date.mk.injEq]
  omega

theorem daysBeforeMonth_mono (year : Nat) {month later : Nat} (hmonth : 1 ≤ month)
    (hle : month ≤ later) : daysBeforeMonth year month ≤ daysBeforeMonth year later := by
  induction hle with
  | refl => exact Nat.le_refl _
  | step hearlier ih =>
      rw [Nat.succ_eq_add_one, daysBeforeMonth_succ year (Nat.le_trans hmonth hearlier)]
      omega

/-- A month is over before a later one begins. -/
theorem Date.Valid.dayOfYear_lt (hdate : one.Valid) {later : Nat} (hlater : one.month < later) :
    daysBeforeMonth one.year one.month + (one.day - 1) < daysBeforeMonth one.year later := by
  obtain ⟨-, -, hmonth, -, hday, hlast⟩ := hdate
  have hover := daysBeforeMonth_succ one.year hmonth
  have hmono : daysBeforeMonth one.year (one.month + 1) ≤ daysBeforeMonth one.year later :=
    daysBeforeMonth_mono one.year (Nat.le_succ_of_le hmonth) hlater
  omega

theorem Date.Before.dayNumber_lt (hbefore : one.Before other) (hone : one.Valid) :
    one.dayNumber < other.dayNumber := by
  unfold Date.dayNumber
  rcases hbefore with hyear | ⟨hyear, hmonth | ⟨hmonth, hday⟩⟩
  · have hover : _ < daysBeforeMonth one.year 13 :=
      hone.dayOfYear_lt (Nat.lt_succ_of_le hone.2.2.2.1)
    have hyears : daysBeforeYear (one.year + 1) ≤ daysBeforeYear other.year :=
      daysBeforeYear_mono (Nat.le_succ_of_le hone.1) hyear
    rw [daysBeforeYear_succ hone.1] at hyears
    omega
  · have hover := hone.dayOfYear_lt hmonth
    rw [hyear] at hover ⊢
    omega
  · have hfirst := hone.2.2.2.2.1
    rw [hyear, hmonth]
    omega

theorem Date.dayNumber_lt_iff (hone : one.Valid) (hother : other.Valid) :
    one.dayNumber < other.dayNumber ↔ one.Before other := by
  constructor
  · intro hlt
    rcases Date.before_or_eq_or_before one other with hbefore | rfl | hafter
    · exact hbefore
    · exact absurd hlt (Nat.lt_irrefl _)
    · exact absurd hlt (Nat.lt_asymm (hafter.dayNumber_lt hother))
  · exact fun hbefore => hbefore.dayNumber_lt hone

theorem Date.dayNumber_eq_iff (hone : one.Valid) (hother : other.Valid) :
    one.dayNumber = other.dayNumber ↔ one = other := by
  constructor
  · intro heq
    rcases Date.before_or_eq_or_before one other with hbefore | hsame | hafter
    · exact absurd heq (Nat.ne_of_lt (hbefore.dayNumber_lt hone))
    · exact hsame
    · exact absurd heq.symm (Nat.ne_of_lt (hafter.dayNumber_lt hother))
  · exact congrArg Date.dayNumber

end Dates

/-- A moment in UTC, to the second. -/
structure DateTime.InSeconds (moment : DateTime) : Prop where
  date : moment.date.Valid
  hour : moment.hour ≤ 23
  minute : moment.minute ≤ 59
  second : moment.second ≤ 59
  microsecond : moment.microsecond = 0
  offset : moment.offset = some 0

/-- Whether a moment comes before another, by date, hour, minute and second. -/
def DateTime.Before (one other : DateTime) : Prop :=
  one.date.Before other.date ∨ one.date = other.date ∧
    (one.hour < other.hour ∨ one.hour = other.hour ∧
      (one.minute < other.minute ∨ one.minute = other.minute ∧ one.second < other.second))

theorem DateTime.InSeconds.instant_lt_iff {one other : DateTime} (hone : one.InSeconds)
    (hother : other.InSeconds) : one.instant < other.instant ↔ one.Before other := by
  have hdays := Date.dayNumber_lt_iff hone.date hother.date
  have hsame := Date.dayNumber_eq_iff hone.date hother.date
  obtain ⟨-, hhour, hminute, hsecond, hmicro, hoffset⟩ := hone
  obtain ⟨-, hhour', hminute', hsecond', hmicro', hoffset'⟩ := hother
  rw [DateTime.Before, ← hdays, ← hsame, DateTime.instant, DateTime.instant,
    DateTime.clockReading, DateTime.clockReading, hmicro, hmicro', hoffset, hoffset', dayLength]
  simp only [Option.getD_some]
  omega

/-! ## Moments of the calendar -/

/-- A moment with a date of the calendar, a time of the clock and less than a day of offset. -/
structure DateTime.OnCalendar (moment : DateTime) : Prop where
  date : moment.date.Valid
  time : (Stamp.timeOf moment).Valid
  offset : ∀ shift ∈ moment.offset, shift.natAbs < 86400

namespace DateTime.OnCalendar

variable {moment other : DateTime}

theorem of_utc (hdate : moment.date.Valid) (hhour : moment.hour < 24) (hminute : moment.minute < 60)
    (hsecond : moment.second < 60) (hmicro : moment.microsecond < 1000000)
    (hoffset : moment.offset = some 0) : moment.OnCalendar := by
  refine ⟨hdate, ⟨hhour, hminute, hsecond, hmicro⟩, fun shift hshift => ?_⟩
  rw [hoffset] at hshift
  cases hshift
  decide

theorem clockReading_inRange (hmoment : moment.OnCalendar) : InRange moment.clockReading := by
  obtain ⟨hdate, ⟨hhour, hminute, hsecond, hmicro⟩, -⟩ := hmoment
  have hday : _ < daysBeforeMonth moment.date.year 13 :=
    hdate.dayOfYear_lt (Nat.lt_succ_of_le hdate.2.2.2.1)
  have hyear := daysBeforeYear_succ hdate.1
  have hlast : daysBeforeYear (moment.date.year + 1) ≤ daysBeforeYear (lastYear + 1) :=
    daysBeforeYear_mono (Nat.le_add_left 1 _) (Nat.succ_le_succ hdate.2.1)
  simp only [Stamp.timeOf] at hhour hminute hsecond hmicro
  simp only [InRange, clockReading, Date.dayNumber, dayLength]
  omega

/-- No more than the years of the calendar and two days lie between two moments. -/
theorem between_lt (hmoment : moment.OnCalendar) (hother : other.OnCalendar) :
    (moment.instant - other.instant).natAbs < 2 ^ 39 * 10 ^ 6 := by
  have hshift : ∀ {moment : DateTime}, moment.OnCalendar →
      (moment.offset.getD 0).natAbs < 86400 := by
    intro moment hmoment
    cases hoffset : moment.offset with
    | none => decide
    | some shift => exact hmoment.offset shift hoffset
  have hdays : daysBeforeYear (lastYear + 1) = 3652059 := by decide
  have hreading := hmoment.clockReading_inRange
  have hreading' := hother.clockReading_inRange
  have hoffset := hshift hmoment
  have hoffset' := hshift hother
  simp only [InRange, hdays, dayLength] at hreading hreading'
  simp only [instant]
  omega

end DateTime.OnCalendar

end OneShot.Calendar
