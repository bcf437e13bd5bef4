import OneShot.Proofs.Schedule.Layout

/-!
# Schedules written and read back

A moment is written in UTC and to the second.  The layout has a year of four digits, but the year
is written without zeros in front, so what is written is a schedule from the year one thousand on
and none before.  From then on the schedule is read as the moment that was written, and a schedule
that is read is written again as it was; an earlier one loses the zeros at its head.
-/

namespace OneShot.Calendar

/-! ## Moments to the second -/

/-- A moment without the fraction of its second. -/
def DateTime.toSecond (moment : DateTime) : DateTime :=
  { moment with microsecond := 0 }

section Seconds

variable {instant : Int}

theorem inSeconds_ofInstant (hrange : InRange instant) :
    (DateTime.ofInstant instant).toSecond.InSeconds := by
  obtain ⟨hdate, htime, -⟩ := Stamp.proper_ofInstant hrange
  exact
    { date := hdate
      hour := Nat.le_of_lt_succ htime.hour
      minute := Nat.le_of_lt_succ htime.minute
      second := Nat.le_of_lt_succ htime.second
      microsecond := rfl
      offset := rfl }

theorem DateTime.instant_toSecond (moment : DateTime) :
    moment.toSecond.instant = moment.instant - moment.microsecond := by
  rw [DateTime.instant, DateTime.instant, DateTime.clockReading, DateTime.clockReading]
  simp only [DateTime.toSecond]
  omega

theorem instant_toSecond_ofInstant (hrange : InRange instant) :
    (DateTime.ofInstant instant).toSecond.instant = instant - instant % 1000000 := by
  have hmicro : ((DateTime.ofInstant instant).microsecond : Int) = instant % 1000000 := by
    simp only [DateTime.ofInstant, DateTime.ofClockReading]
    rw [dayLength]
    omega
  rw [DateTime.instant_toSecond, DateTime.instant_ofInstant hrange, hmicro]

/-- The year one thousand and those after it have four digits. -/
theorem thousand_le_year_iff (hrange : InRange instant) :
    1000 ≤ (DateTime.ofInstant instant).date.year ↔
      (daysBeforeYear 1000 : Int) * dayLength ≤ instant := by
  have hdays : 1000 ≤ yearOfDay (instant / dayLength).toNat ↔
      daysBeforeYear 1000 ≤ (instant / dayLength).toNat := by
    constructor
    · intro hyear
      exact Nat.le_trans (daysBeforeYear_mono (by decide) hyear) (daysBeforeYear_yearOfDay_le _)
    · intro hday
      by_contra hyear
      have hlast := lt_daysBeforeYear_yearOfDay (instant / dayLength).toNat
      have hmono : daysBeforeYear (yearOfDay (instant / dayLength).toNat + 1) ≤
          daysBeforeYear 1000 := daysBeforeYear_mono (Nat.le_add_left 1 _) (by omega)
      omega
  have hdate : (DateTime.ofInstant instant).date.year = yearOfDay (instant / dayLength).toNat := rfl
  have hfirst := hrange.1
  rw [hdate, hdays]
  generalize daysBeforeYear 1000 = days
  simp only [dayLength]
  omega

namespace DateTime.InSeconds

variable {moment other : DateTime}

theorem onCalendar (hmoment : moment.InSeconds) : moment.OnCalendar := by
  obtain ⟨hdate, hhour, hminute, hsecond, hmicro, hoffset⟩ := hmoment
  refine .of_utc hdate ?_ ?_ ?_ ?_ hoffset <;> omega

theorem inRange (hmoment : moment.InSeconds) : InRange moment.instant := by
  have hreading := hmoment.onCalendar.clockReading_inRange
  rwa [DateTime.instant, hmoment.offset, Option.getD_some, Int.zero_mul, Int.sub_zero]

theorem eq_of_instant_eq (hmoment : moment.InSeconds) (hother : other.InSeconds)
    (heq : moment.instant = other.instant) : moment = other := by
  have hnot := mt (hmoment.instant_lt_iff hother).mpr (by omega)
  have hnot' := mt (hother.instant_lt_iff hmoment).mpr (by omega)
  rcases Date.before_or_eq_or_before moment.date other.date with hbefore | hdate | hafter
  · exact absurd (Or.inl hbefore) hnot
  · obtain ⟨date, hour, minute, second, micro, offset⟩ := moment
    obtain ⟨date', hour', minute', second', micro', offset'⟩ := other
    obtain ⟨-, -, -, -, rfl, rfl⟩ := hmoment
    obtain ⟨-, -, -, -, rfl, rfl⟩ := hother
    obtain rfl : date = date' := hdate
    have htime := mt (fun hearlier => Or.inr ⟨rfl, hearlier⟩) hnot
    have htime' := mt (fun hlater => Or.inr ⟨rfl, hlater⟩) hnot'
    simp only [DateTime.mk.injEq, true_and, and_true] at htime htime' ⊢
    omega
  · exact absurd (Or.inl hafter) hnot'

theorem ofInstant_instant (hmoment : moment.InSeconds) :
    (DateTime.ofInstant moment.instant).toSecond = moment := by
  have hrange := hmoment.inRange
  refine (inSeconds_ofInstant hrange).eq_of_instant_eq hmoment ?_
  have hwhole : moment.instant % 1000000 = 0 := by
    rw [DateTime.instant, DateTime.clockReading, hmoment.microsecond, hmoment.offset, dayLength,
      Option.getD_some]
    omega
  rw [instant_toSecond_ofInstant hrange, hwhole, Int.sub_zero]

end DateTime.InSeconds

end Seconds

end OneShot.Calendar

namespace OneShot.Schedule

open Calendar
open OneShot.Text

/-! ## Digits as they are written -/

section Digits

variable {width value : Nat} {chars : List Char}

theorem number?_map_digitChar {digits : List Nat} (hdigits : ∀ digit ∈ digits, digit < 10) :
    number? (digits.map digitChar) = some (numberOfDigits digits) := by
  have hread : (digits.map digitChar).mapM asciiDigit? = some digits := by
    induction digits with
    | nil => rfl
    | cons digit rest ih =>
        have hrest := ih fun other hother => hdigits other (List.mem_cons_of_mem digit hother)
        simp [Decimal.asciiDigit?_digitChar (hdigits digit List.mem_cons_self), hrest]
  rw [number?, hread, Option.map_some]

theorem digits_paddedDigits (hvalue : value < 10 ^ width) :
    Digits width value (paddedDigits width value) := by
  rw [paddedDigits_eq]
  refine digits_iff_number?.mpr ⟨by simp, ?_⟩
  rw [number?_map_digitChar (lowDigits_lt width value), numberOfDigits_lowDigits,
    Nat.mod_eq_of_lt hvalue]

theorem digits_digitsOf (value : Nat) :
    Digits (digitsOf value).length value ((digitsOf value).map digitChar) := by
  refine digits_iff_number?.mpr ⟨by simp, ?_⟩
  rw [number?_map_digitChar (digitsOf_lt value), numberOfDigits_digitsOf]

theorem Digits.unique {others : List Char} (hdigits : Digits width value chars)
    (hothers : Digits width value others) : chars = others :=
  (hdigits.compare hothers).2.mpr rfl

/-- A number written without zeros in front. -/
theorem Digits.dropWhile_zeros (hdigits : Digits width value chars) :
    chars.dropWhile (· == '0') = if value = 0 then [] else (digitsOf value).map digitChar := by
  induction hdigits with
  | none => rfl
  | @more width value chars hearlier c hlow hhigh ih =>
      have hbounds : 48 ≤ c.toNat ∧ c.toNat ≤ 57 := ⟨hlow, hhigh⟩
      have hc : digitChar (c.toNat - 48) = c := by
        rw [digitChar, Nat.add_sub_cancel' hbounds.1, Char.ofNat_toNat]
      have hzero : c = '0' ↔ c.toNat - 48 = 0 := by
        rw [← Char.toNat_inj, show '0'.toNat = 48 from rfl]
        omega
      rw [List.dropWhile_append, ih]
      by_cases hvalue : value = 0
      · by_cases hdigit : c.toNat - 48 = 0
        · simp [hvalue, hzero.mpr hdigit]
        · have hsingle : digitsOf (c.toNat - 48) = [c.toNat - 48] := by
            rw [digitsOf, if_pos (by omega)]
          simp [hvalue, hdigit, mt hzero.mp hdigit, hsingle, hc]
      · have hlonger : digitsOf (10 * value + (c.toNat - 48)) =
            digitsOf value ++ [c.toNat - 48] := by
          have hhigher : (10 * value + (c.toNat - 48)) / 10 = value := by omega
          have hlast : (10 * value + (c.toNat - 48)) % 10 = c.toNat - 48 := by omega
          rw [digitsOf, if_neg (by omega), hhigher, hlast]
        have hpositive : ¬ 10 * value + (c.toNat - 48) = 0 := by omega
        rw [if_neg hvalue, if_neg hpositive, hlonger]
        simp [hc, digitsOf_ne_nil]

theorem length_digitsOf_le_three_iff (value : Nat) :
    (digitsOf value).length ≤ 3 ↔ value < 1000 := by
  constructor
  · intro hshort
    calc
      value < 10 ^ (digitsOf value).length := (digits_digitsOf value).value_lt
      _ ≤ 10 ^ 3 := Nat.pow_le_pow_right (by decide) hshort
  · intro hshort
    have hpower : value < 10 ^ (2 + 1) := hshort
    exact length_digitsOf_le hpower

end Digits

/-! ## The text of a moment -/

/-- A time of day, and a day of a month, that can be written with two digits for each part. -/
structure Narrow (moment : DateTime) : Prop where
  month : moment.date.month < 100
  day : moment.date.day < 100
  hour : moment.hour < 100
  minute : moment.minute < 100
  second : moment.second < 100

/-- What is written behind the year. -/
def afterYear (moment : DateTime) : List Char :=
  '-' :: (paddedDigits 2 moment.date.month ++ '-' :: (paddedDigits 2 moment.date.day ++
    'T' :: (paddedDigits 2 moment.hour ++ ':' :: (paddedDigits 2 moment.minute ++
      ':' :: (paddedDigits 2 moment.second ++ ['Z'])))))

theorem toList_write (moment : DateTime) :
    (write moment).toList = (digitsOf moment.date.year).map digitChar ++ afterYear moment := by
  simp [write, afterYear]

theorem length_afterYear (moment : DateTime) : (afterYear moment).length = 16 := by
  simp [afterYear, paddedDigits_eq]

theorem LaidOut.length_eq {moment : DateTime} {chars : List Char}
    (hlayout : LaidOut moment chars) : chars.length = 20 := by
  obtain ⟨hyear, hmonth, hday, hhour, hminute, hsecond⟩ := hlayout
  simp [hyear.length_eq, hmonth.length_eq, hday.length_eq, hhour.length_eq, hminute.length_eq,
    hsecond.length_eq]

theorem LaidOut.exists_year {moment : DateTime} {chars : List Char}
    (hlayout : LaidOut moment chars) : ∃ year, Digits 4 moment.date.year year := by
  cases hlayout with
  | mk hyear => exact ⟨_, hyear⟩

theorem LaidOut.unique {moment : DateTime} {chars others : List Char}
    (hlayout : LaidOut moment chars) (hothers : LaidOut moment others) : chars = others := by
  obtain ⟨hyear, hmonth, hday, hhour, hminute, hsecond⟩ := hlayout
  obtain ⟨hyear', hmonth', hday', hhour', hminute', hsecond'⟩ := hothers
  rw [hyear.unique hyear', hmonth.unique hmonth', hday.unique hday', hhour.unique hhour',
    hminute.unique hminute', hsecond.unique hsecond']

theorem Narrow.laidOut {moment : DateTime} (hnarrow : Narrow moment) {year : List Char}
    (hyear : Digits 4 moment.date.year year) : LaidOut moment (year ++ afterYear moment) :=
  .mk hyear (digits_paddedDigits hnarrow.month) (digits_paddedDigits hnarrow.day)
    (digits_paddedDigits hnarrow.hour) (digits_paddedDigits hnarrow.minute)
    (digits_paddedDigits hnarrow.second)

/-- A moment is written in the layout if its year has four digits. -/
theorem Narrow.laidOut_write {moment : DateTime} (hnarrow : Narrow moment)
    (hyear : moment.date.year ≤ lastYear) (hlong : 1000 ≤ moment.date.year) :
    LaidOut moment (write moment).toList := by
  have hfour : (digitsOf moment.date.year).length = 4 := by
    have hle : (digitsOf moment.date.year).length ≤ 4 :=
      length_digitsOf_le (Nat.lt_succ_of_le hyear)
    have hgt := mt (length_digitsOf_le_three_iff moment.date.year).mp (by omega)
    omega
  have hdigits := digits_digitsOf moment.date.year
  rw [hfour] at hdigits
  rw [toList_write]
  exact hnarrow.laidOut hdigits

/-- A text with a shorter year is no schedule. -/
theorem parse_write_of_short {moment : DateTime} (hshort : moment.date.year < 1000) :
    parse (write moment) = .error (.layout (write moment)) := by
  have hfields : fields? (write moment).toList = none := by
    cases hfields : fields? (write moment).toList with
    | none => rfl
    | some fields =>
        have hlength := (fields?_eq_some_iff.mp hfields).length_eq
        have hthree := (length_digitsOf_le_three_iff moment.date.year).mpr hshort
        rw [toList_write, List.length_append, List.length_map, length_afterYear] at hlength
        omega
  rw [parse, hfields]

/-! ## What comes back -/

theorem narrow_of_inSeconds {moment : DateTime} (hmoment : moment.InSeconds) : Narrow moment := by
  have hlongest := daysInMonth_le moment.date.year moment.date.month
  obtain ⟨⟨-, -, -, hmonth, -, hday⟩, hhour, hminute, hsecond, -, -⟩ := hmoment
  constructor <;> omega

theorem write_toSecond (moment : DateTime) : write moment.toSecond = write moment :=
  rfl

theorem format?_of_inRange {moment : DateTime} (hrange : InRange moment.instant) :
    format? moment = some (write (DateTime.ofInstant moment.instant).toSecond) := by
  rw [format?, DateTime.toUtc?, if_pos hrange, Option.map_some, write_toSecond]

/-- What is written is read as what was written, if the year has four digits. -/
theorem parse_write_iff {moment : DateTime} (hmoment : moment.InSeconds) :
    parse (write moment) = .ok moment ↔ 1000 ≤ moment.date.year := by
  constructor
  · intro hparse
    by_contra hshort
    rw [parse_write_of_short (Nat.not_le.mp hshort)] at hparse
    cases hparse
  · intro hlong
    have hlayout := (narrow_of_inSeconds hmoment).laidOut_write hmoment.date.2.1 hlong
    exact parse_eq_ok_iff.mpr ⟨hmoment, hlayout⟩

/-- A schedule that is read is written again without the zeros at its head. -/
theorem toList_write_of_parse {text : String} {moment : DateTime}
    (hparse : parse text = .ok moment) :
    (write moment).toList = text.toList.dropWhile (· == '0') := by
  obtain ⟨hmoment, hlayout⟩ := parse_eq_ok_iff.mp hparse
  obtain ⟨year, hyear⟩ := hlayout.exists_year
  have hchars := hlayout.unique ((narrow_of_inSeconds hmoment).laidOut hyear)
  have hpositive : moment.date.year ≠ 0 := Nat.ne_of_gt hmoment.date.1
  rw [hchars, List.dropWhile_append, hyear.dropWhile_zeros, if_neg hpositive, toList_write]
  simp [digitsOf_ne_nil]

/-- The start of the year one thousand, from which on years have four digits. -/
def fourDigits : Int :=
  (daysBeforeYear 1000 : Int) * dayLength

/-- Every instant of the calendar is written, and in the same way for every clock that shows it.
From the year one thousand on the text is read as the instant without the fraction of its second,
and before that year it is no schedule.  A schedule that is read is written again without the zeros
at its head, so it is written as it was from the year one thousand on and never before. -/
theorem schedules_come_back_from_four_digits (instant : Int) (text : String) :
    (InRange instant → ∃ written,
      (∀ moment : DateTime, moment.instant = instant → format? moment = some written) ∧
      (fourDigits ≤ instant → ∃ read, parse written = .ok read ∧ read.InSeconds ∧
        read.instant = instant - instant % 1000000) ∧
      (instant < fourDigits → parse written = .error (.layout written))) ∧
    ∀ moment, parse text = .ok moment → ∃ again, format? moment = some again ∧
      again.toList = text.toList.dropWhile (· == '0') ∧
      (again = text ↔ fourDigits ≤ moment.instant) := by
  constructor
  · intro hrange
    have hyear := thousand_le_year_iff hrange
    have hmoment := inSeconds_ofInstant hrange
    refine ⟨write (DateTime.ofInstant instant).toSecond, fun moment hinstant => ?_,
      fun hlong => ?_, fun hshort => ?_⟩
    · rw [← hinstant] at hrange ⊢
      exact format?_of_inRange hrange
    · have hread := (parse_write_iff hmoment).mpr (hyear.mpr hlong)
      exact ⟨_, hread, hmoment, instant_toSecond_ofInstant hrange⟩
    · exact parse_write_of_short (Nat.not_le.mp (mt hyear.mp (Int.not_le.mpr hshort)))
  · intro moment hparse
    have hmoment := (parse_eq_ok_iff.mp hparse).toInSeconds
    have hyear := thousand_le_year_iff hmoment.inRange
    have hwritten := format?_of_inRange hmoment.inRange
    rw [hmoment.ofInstant_instant] at hwritten
    have hsame : (DateTime.ofInstant moment.instant).date.year = moment.date.year :=
      congrArg (fun shown => shown.date.year) hmoment.ofInstant_instant
    refine ⟨_, hwritten, toList_write_of_parse hparse, ?_⟩
    rw [fourDigits, ← hyear, hsame, ← parse_write_iff hmoment]
    constructor
    · rintro rfl
      exact hparse
    · intro hagain
      have hlayout := (parse_eq_ok_iff.mp hparse).layout
      have hlayout' := (parse_eq_ok_iff.mp hagain).layout
      exact String.ext (hlayout'.unique hlayout)

/-- Half a minute before a leap day is over in UTC, on a clock that is two hours ahead. -/
theorem schedules_come_back_from_four_digits_of_leap_day :
    let moment : DateTime := ⟨⟨2024, 3, 1⟩, 1, 59, 30, 250000, some 7200⟩
    let shown : DateTime := ⟨⟨2024, 2, 29⟩, 23, 59, 30, 0, some 0⟩
    InRange moment.instant ∧ fourDigits ≤ moment.instant ∧ (∃ text, format? moment = some text ∧
      ∃ read, parse text = .ok read ∧ read.instant = shown.instant) ∧
      parse "2024-02-29T23:59:30Z" = .ok shown ∧
      format? shown = some "2024-02-29T23:59:30Z" := by
  intro moment shown
  have hrange : InRange moment.instant := by decide +kernel
  have hlong : fourDigits ≤ moment.instant := by decide +kernel
  have hlong' : fourDigits ≤ shown.instant := by decide +kernel
  have hsecond : moment.instant - moment.instant % 1000000 = shown.instant := by decide +kernel
  have hparse : parse "2024-02-29T23:59:30Z" = .ok shown := by decide +kernel
  obtain ⟨hback, hagain⟩ :=
    schedules_come_back_from_four_digits moment.instant "2024-02-29T23:59:30Z"
  obtain ⟨text, htext, hread, -⟩ := hback hrange
  obtain ⟨read, hparsed, -, hinstant⟩ := hread hlong
  obtain ⟨again, hformat, -, hsame⟩ := hagain _ hparse
  rw [hsame.mpr hlong'] at hformat
  exact ⟨hrange, hlong, ⟨text, htext moment rfl, read, hparsed, hinstant.trans hsecond⟩, hparse,
    hformat⟩

/-- A moment in the year nine hundred and ninety-nine does not come back, and its schedule is
written as another text. -/
theorem moment_of_three_digits_is_lost :
    ¬ (∀ moment : DateTime, InRange moment.instant → ∃ text read, format? moment = some text ∧
      parse text = .ok read ∧ read.instant = moment.instant - moment.instant % 1000000) ∧
    ¬ ∀ text moment, parse text = .ok moment → format? moment = some text := by
  let moment : DateTime := ⟨⟨999, 1, 2⟩, 3, 4, 5, 0, some 0⟩
  have hparse : parse "0999-01-02T03:04:05Z" = .ok moment := by decide +kernel
  have hmoment := (parse_eq_ok_iff.mp hparse).toInSeconds
  have hwritten : format? moment = some (write moment) := by
    rw [format?_of_inRange hmoment.inRange, hmoment.ofInstant_instant]
  have hrefused : parse (write moment) = .error (.layout (write moment)) :=
    parse_write_of_short (by decide)
  constructor
  · intro hback
    obtain ⟨text, read, htext, hread, -⟩ := hback moment hmoment.inRange
    rw [hwritten] at htext
    cases htext
    rw [hrefused] at hread
    cases hread
  · intro hagain
    have htext := hagain _ _ hparse
    rw [hwritten] at htext
    rw [Option.some.inj htext, hparse] at hrefused
    cases hrefused

end OneShot.Schedule
