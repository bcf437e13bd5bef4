import OneShot.Calendar.DateTime
import OneShot.Schedule

/-!
# Instants and their moments

The calendar shows every instant that it has as a moment, and from the moment
the instant comes back: the day number gives a date with as many days before
it, and the rest of the day is cut into hours, minutes, seconds and a fraction.
The date is one of the calendar.
-/

namespace OneShot.Calendar

variable {year : Nat}

theorem daysBeforeYear_yearOfDay_le (days : Nat) : daysBeforeYear (yearOfDay days) ≤ days := by
  simp only [yearOfDay]
  split
  next =>
    simp only [daysBeforeYear]
    omega
  next hnotBefore =>
    split
    next => exact Nat.not_lt.mp hnotBefore
    next hnotBefore' => exact Nat.not_lt.mp hnotBefore'

theorem daysInMonth_le (year month : Nat) : daysInMonth year month ≤ 31 := by
  unfold daysInMonth
  split
  · split <;> omega
  all_goals omega

theorem daysBeforeMonth_succ (year : Nat) {month : Nat} (hmonth : 1 ≤ month) :
    daysBeforeMonth year (month + 1) = daysBeforeMonth year month + daysInMonth year month := by
  cases month with
  | zero => cases hmonth
  | succ earlier => rfl

/-- Going on to the next month keeps the count of days. -/
theorem days_of_monthAndDay (year fuel : Nat) {month : Nat} (hmonth : 1 ≤ month) (days : Nat) :
    daysBeforeMonth year (monthAndDay year fuel month days).1 +
        ((monthAndDay year fuel month days).2 - 1) =
      daysBeforeMonth year month + days := by
  induction fuel generalizing month days with
  | zero => rfl
  | succ fuel ih =>
      unfold monthAndDay
      split
      next => rfl
      next hlong =>
        rw [ih (Nat.le_succ_of_le hmonth), daysBeforeMonth_succ year hmonth]
        omega

theorem Date.dayNumber_ofDayNumber (days : Nat) : (Date.ofDayNumber days).dayNumber = days := by
  have hyear := daysBeforeYear_yearOfDay_le days
  have hmonth := days_of_monthAndDay (yearOfDay days) 11 (Nat.le_refl 1)
    (days - daysBeforeYear (yearOfDay days))
  have hjanuary : daysBeforeMonth (yearOfDay days) 1 = 0 := rfl
  simp only [Date.dayNumber, Date.ofDayNumber]
  omega

theorem lt_daysBeforeYear_yearOfDay (days : Nat) :
    days < daysBeforeYear (yearOfDay days + 1) := by
  simp only [yearOfDay]
  split
  next hbefore => exact hbefore
  next =>
    split
    next hbefore => exact hbefore
    next =>
      simp only [daysBeforeYear]
      omega

theorem daysBeforeYear_succ {year : Nat} (hyear : 1 ≤ year) :
    daysBeforeYear (year + 1) = daysBeforeYear year + daysBeforeMonth year 13 := by
  have hlength : daysBeforeMonth year 13 = if isLeapYear year then 366 else 365 := by
    simp only [daysBeforeMonth, daysInMonth]
    split <;> rfl
  rw [hlength]
  simp only [daysBeforeYear, isLeapYear]
  by_cases hfour : year % 4 = 0
  · by_cases hcentury : year % 100 = 0
    · by_cases hfourth : year % 400 = 0
      · simp [hfour, hcentury, hfourth]
        omega
      · simp [hfour, hcentury, hfourth]
        omega
    · simp [hfour, hcentury]
      omega
  · have hquarter : year / 4 = (year - 1) / 4 := by omega
    have hhundred : year / 100 = (year - 1) / 100 := by omega
    have hfourth : year / 400 = (year - 1) / 400 := by omega
    simp [hfour, hquarter, hhundred, hfourth]
    omega

theorem daysBeforeYear_mono {one other : Nat} (hone : 1 ≤ one) (hle : one ≤ other) :
    daysBeforeYear one ≤ daysBeforeYear other := by
  induction hle with
  | refl => exact Nat.le_refl _
  | step hearlier ih =>
      rw [Nat.succ_eq_add_one, daysBeforeYear_succ (Nat.le_trans hone hearlier)]
      omega

theorem yearOfDay_le {days : Nat} (hdays : days < daysBeforeYear (lastYear + 1)) :
    yearOfDay days ≤ lastYear := by
  have hyear := daysBeforeYear_yearOfDay_le days
  rcases Nat.lt_or_ge lastYear (yearOfDay days) with hlate | hearly
  · have hmono : daysBeforeYear (lastYear + 1) ≤ daysBeforeYear (yearOfDay days) :=
      daysBeforeYear_mono (by decide) hlate
    omega
  · exact hearly

/-- Going on to the next month ends in a month that is long enough. -/
theorem monthAndDay_valid (year fuel month days : Nat) (hmonth : month + fuel = 12)
    (hfirst : 1 ≤ month) (hdays : daysBeforeMonth year month + days < daysBeforeMonth year 13) :
    1 ≤ (monthAndDay year fuel month days).1 ∧ (monthAndDay year fuel month days).1 ≤ 12 ∧
      1 ≤ (monthAndDay year fuel month days).2 ∧
      (monthAndDay year fuel month days).2 ≤
        daysInMonth year (monthAndDay year fuel month days).1 := by
  induction fuel generalizing month days with
  | zero =>
      obtain rfl : month = 12 := hmonth
      have hlast : daysBeforeMonth year 13 = daysBeforeMonth year 12 + daysInMonth year 12 :=
        daysBeforeMonth_succ year hfirst
      simp only [monthAndDay]
      omega
  | succ fuel ih =>
      unfold monthAndDay
      split
      next hshort =>
        simp only
        omega
      next hlong =>
        have hnext := daysBeforeMonth_succ year hfirst
        apply ih
        · omega
        · omega
        · omega

theorem Date.valid_ofDayNumber {days : Nat} (hdays : days < daysBeforeYear (lastYear + 1)) :
    (Date.ofDayNumber days).Valid := by
  have hbefore := daysBeforeYear_yearOfDay_le days
  have hafter := lt_daysBeforeYear_yearOfDay days
  have hlast := yearOfDay_le hdays
  have hfirst : 1 ≤ yearOfDay days := by
    rcases Nat.eq_zero_or_pos (yearOfDay days) with hzero | hpos
    · rw [hzero] at hafter
      simp [daysBeforeYear] at hafter
    · exact hpos
  have hjanuary : daysBeforeMonth (yearOfDay days) 1 = 0 := rfl
  rw [daysBeforeYear_succ hfirst] at hafter
  obtain ⟨hmonth, hmonth', hday, hday'⟩ := monthAndDay_valid (yearOfDay days) 11 1
    (days - daysBeforeYear (yearOfDay days)) rfl (Nat.le_refl 1) (by omega)
  exact ⟨hfirst, hlast, hmonth, hmonth', hday, hday'⟩

theorem DateTime.clockReading_ofClockReading {reading : Int} (hreading : 0 ≤ reading)
    (offset : Option Int) : (DateTime.ofClockReading reading offset).clockReading = reading := by
  simp only [DateTime.clockReading, DateTime.ofClockReading, Date.dayNumber_ofDayNumber, dayLength]
  omega

theorem DateTime.instant_ofInstant {instant : Int} (hrange : InRange instant) :
    (DateTime.ofInstant instant).instant = instant := by
  unfold DateTime.instant DateTime.ofInstant
  rw [DateTime.clockReading_ofClockReading hrange.1]
  simp [DateTime.ofClockReading]

theorem DateTime.instant_of_toUtc? {moment present : DateTime}
    (hpresent : moment.toUtc? = some present) : present.instant = moment.instant := by
  unfold DateTime.toUtc? at hpresent
  split at hpresent
  next hrange =>
    cases hpresent
    exact DateTime.instant_ofInstant hrange
  next => cases hpresent

end OneShot.Calendar

namespace OneShot.Schedule

open Calendar

/-- The delay is the time between two instants. -/
theorem delay_eq_ok {schedule : String} {now : DateTime} {delay : Int}
    (hdelay : Schedule.delay schedule now = .ok delay) :
    ∃ target, parse schedule = .ok target ∧ delay = target.instant - now.instant := by
  unfold Schedule.delay at hdelay
  split at hdelay
  next => cases hdelay
  next target htarget =>
    split at hdelay
    next => cases hdelay
    next present hpresent =>
      cases hdelay
      exact ⟨target, htarget, by rw [DateTime.instant_of_toUtc? hpresent]⟩

end OneShot.Schedule
