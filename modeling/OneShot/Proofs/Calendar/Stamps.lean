import OneShot.Calendar.Stamp
import OneShot.Proofs.Calendar.Instants
import OneShot.Proofs.Decimal.Numerals
import Mathlib.Algebra.Group.Nat.Defs
import Mathlib.Data.List.Induction

/-!
# Stamps that are read back

A moment is read back from its stamp, if it is one of the calendar and its offset
is one of whole minutes.  The moments that are read from stamps and counts are
such moments.
-/

namespace OneShot

open OneShot.Text

/-! ## Digits of a fixed number -/

namespace Text

/-- The lowest decimal digits of a number. -/
def lowDigits : Nat → Nat → List Nat
  | 0, _ => []
  | width + 1, n => lowDigits width (n / 10) ++ [n % 10]

theorem paddedDigits_eq (width n : Nat) :
    paddedDigits width n = (lowDigits width n).map digitChar := by
  induction width generalizing n with
  | zero => rfl
  | succ width ih => simp [paddedDigits, lowDigits, ih]

@[simp] theorem length_lowDigits (width n : Nat) : (lowDigits width n).length = width := by
  induction width generalizing n with
  | zero => rfl
  | succ width ih => simp [lowDigits, ih]

theorem lowDigits_lt (width n : Nat) : ∀ digit ∈ lowDigits width n, digit < 10 := by
  induction width generalizing n with
  | zero => simp [lowDigits]
  | succ width ih =>
      intro digit hdigit
      rcases List.mem_append.mp hdigit with hearlier | hlast
      · exact ih (n / 10) digit hearlier
      · rw [List.mem_singleton.mp hlast]
        omega

theorem numberOfDigits_append (digits : List Nat) (digit : Nat) :
    numberOfDigits (digits ++ [digit]) = 10 * numberOfDigits digits + digit := by
  simp [numberOfDigits]

theorem numberOfDigits_lowDigits (width n : Nat) :
    numberOfDigits (lowDigits width n) = n % 10 ^ width := by
  induction width generalizing n with
  | zero => simp [lowDigits, numberOfDigits, Nat.mod_one]
  | succ width ih =>
      rw [lowDigits, numberOfDigits_append, ih, Nat.pow_succ, Nat.mul_comm (10 ^ width) 10,
        Nat.mod_mul]
      omega

theorem numberOfDigits_lt (digits : List Nat) (hdigits : ∀ digit ∈ digits, digit < 10) :
    numberOfDigits digits < 10 ^ digits.length := by
  induction digits using List.reverseRecOn with
  | nil => simp [numberOfDigits]
  | append_singleton earlier digit ih =>
      have hearlier := ih fun other hother => hdigits other (List.mem_append_left _ hother)
      have hdigit := hdigits digit (by simp)
      rw [numberOfDigits_append, List.length_append, List.length_singleton, Nat.pow_succ]
      omega

end Text

namespace Calendar

namespace Stamp

/-! ## Reading what was written -/

theorem twoDigits?_paddedDigits {n : Nat} (hn : n < 100) (rest : List Char) :
    twoDigits? (paddedDigits 2 n ++ rest) = some (n, rest) := by
  have htens : asciiDigit? (digitChar (n / 10 % 10)) = some (n / 10 % 10) :=
    Decimal.asciiDigit?_digitChar (by omega)
  have hones : asciiDigit? (digitChar (n % 10)) = some (n % 10) :=
    Decimal.asciiDigit?_digitChar (by omega)
  have hnumber : 10 * (n / 10 % 10) + n % 10 = n := by omega
  simp [paddedDigits, twoDigits?, htens, hones, hnumber]

theorem paddedDigits_four (n : Nat) :
    paddedDigits 4 n = paddedDigits 2 (n / 100) ++ paddedDigits 2 (n % 100) := by
  have hthousands : n / 10 / 10 / 10 = n / 100 / 10 := by omega
  have hhundreds : n / 10 / 10 = n / 100 := by omega
  have htens : n / 10 % 10 = n % 100 / 10 % 10 := by omega
  have hones : n % 10 = n % 100 % 10 := by omega
  simp only [paddedDigits, List.nil_append, List.cons_append]
  rw [hthousands, hhundreds, htens, hones]

theorem date?_dateChars {date : Date} (hdate : date.Valid) (rest : List Char) :
    date? (dateChars date ++ rest) = some (date, rest) := by
  have hvalid := hdate
  obtain ⟨hyear, hyear', hmonth, hmonth', hday, hday'⟩ := hdate
  have hlast := daysInMonth_le date.year date.month
  have hcentury : date.year / 100 < 100 := by
    simp only [lastYear] at hyear'
    omega
  have hyears : date.year % 100 < 100 := by omega
  have hwhole : 100 * (date.year / 100) + date.year % 100 = date.year := by omega
  have hmonths : date.month < 100 := by omega
  have hdays : date.day < 100 := by omega
  simp [dateChars, paddedDigits_four, date?, after?, twoDigits?_paddedDigits hcentury,
    twoDigits?_paddedDigits hyears, twoDigits?_paddedDigits hmonths,
    twoDigits?_paddedDigits hdays, hwhole, hvalid]

/-- A fraction ends where no digit follows. -/
theorem fraction?_digits {micros : Nat} (hmicros : micros < 1000000) {rest : List Char}
    (hrest : ∀ c ∈ rest.head?, isAsciiDigit c = false) :
    fraction? ('.' :: (paddedDigits 6 micros ++ rest)) = some (micros, rest) := by
  have hdigits : ∀ c ∈ paddedDigits 6 micros, isAsciiDigit c = true := by
    rw [paddedDigits_eq]
    intro c hc
    obtain ⟨digit, hdigit, rfl⟩ := List.mem_map.mp hc
    simp [isAsciiDigit, Decimal.asciiDigit?_digitChar (lowDigits_lt 6 micros digit hdigit)]
  have hvalues : (paddedDigits 6 micros).filterMap asciiDigit? = lowDigits 6 micros := by
    rw [paddedDigits_eq, List.filterMap_map]
    have hread : ∀ digit ∈ lowDigits 6 micros, (asciiDigit? ∘ digitChar) digit = some digit :=
      fun digit hdigit => Decimal.asciiDigit?_digitChar (lowDigits_lt 6 micros digit hdigit)
    rw [List.filterMap_congr hread, List.filterMap_some]
  have hfraction : fraction (lowDigits 6 micros) = micros := by
    have hwhole : (lowDigits 6 micros ++ List.replicate 6 0).take 6 = lowDigits 6 micros :=
      List.take_left' (length_lowDigits 6 micros)
    rw [fraction, hwhole, numberOfDigits_lowDigits]
    exact Nat.mod_eq_of_lt hmicros
  have hends : rest.takeWhile isAsciiDigit = [] ∧ rest.dropWhile isAsciiDigit = rest := by
    cases rest with
    | nil => exact ⟨rfl, rfl⟩
    | cons c later =>
        have hc := hrest c rfl
        simp [hc]
  have hsome : paddedDigits 6 micros ≠ [] := by
    rw [paddedDigits_eq]
    intro hnone
    have hlength := congrArg List.length hnone
    simp at hlength
  simp [fraction?, List.takeWhile_append_of_pos hdigits, List.dropWhile_append_of_pos hdigits,
    hends, hvalues, hfraction, hsome]

theorem fraction?_none {rest : List Char} (hrest : ∀ c ∈ rest.head?, c ≠ '.' ∧ c ≠ ',') :
    fraction? rest = some (0, rest) := by
  cases rest with
  | nil => rfl
  | cons c later =>
      obtain ⟨hpoint, hcomma⟩ := hrest c rfl
      simp [fraction?, hpoint, hcomma]

/-- The time of a moment that the calendar has. -/
structure Time.Valid (time : Time) : Prop where
  hour : time.hour < 24
  minute : time.minute < 60
  second : time.second < 60
  microsecond : time.microsecond < 1000000

theorem time?_timeChars {time : Time} (htime : time.Valid) {rest : List Char}
    (hrest : ∀ c ∈ rest.head?, isAsciiDigit c = false ∧ c ≠ '.' ∧ c ≠ ',') :
    time? (timeChars time ++ rest) = some (time, rest) := by
  obtain ⟨hhour, hminute, hsecond, hmicro⟩ := htime
  have hhours : time.hour < 100 := by omega
  have hminutes : time.minute < 100 := by omega
  have hseconds : time.second < 100 := by omega
  have hfraction : fraction?
      ((if time.microsecond = 0 then [] else '.' :: paddedDigits 6 time.microsecond) ++ rest) =
        some (time.microsecond, rest) := by
    split
    next hzero =>
      rw [hzero]
      exact fraction?_none fun c hc => (hrest c hc).2
    next => exact fraction?_digits hmicro fun c hc => (hrest c hc).1
  simp [timeChars, time?, seconds?, after?, twoDigits?_paddedDigits hhours,
    twoDigits?_paddedDigits hminutes, twoDigits?_paddedDigits hseconds, hfraction, hhour, hminute,
    hsecond]

/-- An offset of whole minutes that is shorter than a day. -/
structure WholeMinutes (offset : Int) : Prop where
  minutes : offset % 60 = 0
  bound : offset.natAbs < 86400

theorem offsetMagnitude?_written (minutes : Nat) (hminutes : minutes < 1440) :
    offsetMagnitude? (paddedDigits 2 (minutes / 60) ++ ':' :: paddedDigits 2 (minutes % 60)) =
      some (minutes * 60) := by
  have hhour : minutes / 60 < 24 := by omega
  have hhours : minutes / 60 < 100 := by omega
  have hminute : minutes % 60 < 60 := by omega
  have hlast : twoDigits? (paddedDigits 2 (minutes % 60)) = some (minutes % 60, []) := by
    have hread := twoDigits?_paddedDigits (n := minutes % 60) (by omega) []
    rwa [List.append_nil] at hread
  have hwhole : 60 * (minutes / 60) + minutes % 60 = minutes := by omega
  simp [offsetMagnitude?, after?, twoDigits?_paddedDigits hhours, hlast, hhour, hminute, hwhole]

theorem zone?_zoneChars {offset : Option Int} (hoffset : ∀ shift ∈ offset, WholeMinutes shift) :
    zone? (zoneChars offset) = some offset := by
  cases offset with
  | none => rfl
  | some shift =>
      obtain ⟨hminutes, hbound⟩ := hoffset shift rfl
      have hmagnitude := offsetMagnitude?_written (shift.natAbs / 60) (by omega)
      have hwhole : shift.natAbs / 60 * 60 = shift.natAbs := by omega
      rw [hwhole] at hmagnitude
      -- the sign is followed by more than one character, so it does not stand alone
      obtain ⟨c, later, htail⟩ : ∃ c later, paddedDigits 2 (shift.natAbs / 60 / 60) ++
          ':' :: paddedDigits 2 (shift.natAbs / 60 % 60) = c :: later := ⟨_, _, rfl⟩
      rw [htail] at hmagnitude
      simp only [zoneChars, offsetChars, htail]
      by_cases hzero : shift = 0
      · simp [hzero, zone?]
      · by_cases hneg : shift < 0
        · have habs : -(shift.natAbs : Int) = shift := by omega
          generalize shift.natAbs = magnitude at hmagnitude habs
          simp [hzero, hneg, zone?, hmagnitude, habs]
        · have habs : (shift.natAbs : Int) = shift := by omega
          generalize shift.natAbs = magnitude at hmagnitude habs
          simp [hzero, hneg, zone?, hmagnitude, habs]

theorem head?_zoneChars (offset : Option Int) :
    ∀ c ∈ (zoneChars offset).head?, isAsciiDigit c = false ∧ c ≠ '.' ∧ c ≠ ',' := by
  cases offset with
  | none => simp [zoneChars]
  | some shift =>
      by_cases hzero : shift = 0
      · simp [zoneChars, hzero]
        decide
      · by_cases hneg : shift < 0
        · simp [zoneChars, offsetChars, hzero, hneg]
          decide
        · simp [zoneChars, offsetChars, hzero, hneg]
          decide

end Stamp

/-- A moment of the calendar, whose offset from UTC, if there is one, is one of
whole minutes and shorter than a day. -/
structure DateTime.Proper (moment : DateTime) : Prop where
  date : moment.date.Valid
  time : (Stamp.timeOf moment).Valid
  offset : ∀ shift ∈ moment.offset, Stamp.WholeMinutes shift

namespace Stamp

/-- A moment is read back from its stamp. -/
theorem read?_text {moment : DateTime} (hmoment : moment.Proper) :
    read? (text moment) = some moment := by
  have htime := time?_timeChars hmoment.time (head?_zoneChars moment.offset)
  have hzone := zone?_zoneChars hmoment.offset
  have hcalendar : calendar? (dateChars moment.date ++
      'T' :: (timeChars (timeOf moment) ++ zoneChars moment.offset)) = some moment := by
    simp only [calendar?, date?_dateChars hmoment.date, Option.bind_eq_bind, Option.bind_some]
    simp [isSeparator, htime, hzone]
    rfl
  have hchars : (text moment).toList = dateChars moment.date ++
      'T' :: (timeChars (timeOf moment) ++ zoneChars moment.offset) := by
    simp [text]
  rw [read?, hchars, hcalendar, Option.some_or]

/-! ## What is read -/

variable {chars rest : List Char} {moment : DateTime}

theorem valid_of_date? {date : Date} (hread : date? chars = some (date, rest)) : date.Valid := by
  simp only [date?, Option.bind_eq_bind, Option.bind_eq_some_iff] at hread
  obtain ⟨_, -, _, -, _, -, _, -, _, -, _, -, hlast⟩ := hread
  split at hlast
  next hvalid =>
    cases hlast
    exact hvalid
  next => cases hlast

theorem lt_of_asciiDigit? {c : Char} {digit : Nat} (hread : asciiDigit? c = some digit) :
    digit < 10 := by
  unfold asciiDigit? at hread
  split at hread
  next hdigit =>
    cases hread
    have hlast : c.toNat ≤ 57 := hdigit.2
    omega
  next => cases hread

theorem fraction_lt (digits : List Nat) (hdigits : ∀ digit ∈ digits, digit < 10) :
    fraction digits < 1000000 := by
  have hlength : ((digits ++ List.replicate 6 0).take 6).length = 6 := by simp
  have hlt := numberOfDigits_lt ((digits ++ List.replicate 6 0).take 6) (by
    intro digit hdigit
    rcases List.mem_append.mp (List.mem_of_mem_take hdigit) with hgiven | hzero
    · exact hdigits digit hgiven
    · rw [List.eq_of_mem_replicate hzero]
      omega)
  rw [hlength] at hlt
  exact hlt

theorem lt_of_fraction? {micros : Nat} (hread : fraction? chars = some (micros, rest)) :
    micros < 1000000 := by
  unfold fraction? at hread
  simp only at hread
  split at hread
  next c later =>
    split at hread
    next =>
      split at hread
      next => cases hread
      next =>
        cases hread
        apply fraction_lt
        intro digit hdigit
        obtain ⟨c, -, hc⟩ := List.mem_filterMap.mp hdigit
        exact lt_of_asciiDigit? hc
    next =>
      cases hread
      omega
  next =>
    cases hread
    omega

theorem lt_of_seconds? {second micros : Nat}
    (hread : seconds? chars = some ((second, micros), rest)) : micros < 1000000 := by
  unfold seconds? at hread
  split at hread
  next =>
    cases hread
    omega
  next later hcolon =>
    simp only [Option.bind_eq_bind, Option.bind_eq_some_iff] at hread
    obtain ⟨_, -, ⟨found, after⟩, hfraction, hlast⟩ := hread
    cases hlast
    exact lt_of_fraction? hfraction

theorem valid_of_time? {time : Time} (hread : time? chars = some (time, rest)) : time.Valid := by
  simp only [time?, Option.bind_eq_bind, Option.bind_eq_some_iff] at hread
  obtain ⟨_, -, _, -, _, -, ⟨⟨second, micros⟩, after⟩, hseconds, hlast⟩ := hread
  split at hlast
  next hbounds =>
    cases hlast
    exact ⟨hbounds.1, hbounds.2.1, hbounds.2.2, lt_of_seconds? hseconds⟩
  next => cases hlast

theorem wholeMinutes_of_offsetMagnitude? {magnitude : Nat}
    (hread : offsetMagnitude? chars = some magnitude) :
    WholeMinutes magnitude ∧ WholeMinutes (-(magnitude : Int)) := by
  simp only [offsetMagnitude?, Option.bind_eq_bind, Option.bind_eq_some_iff] at hread
  obtain ⟨⟨hours, _⟩, -, ⟨minutes, _⟩, -, hlast⟩ := hread
  split at hlast
  next hbounds =>
    cases hlast
    obtain ⟨-, hhours, hminutes⟩ := hbounds
    have hhours' : hours < 24 := hhours
    have hminutes' : minutes < 60 := hminutes
    constructor <;> constructor <;> push_cast <;> omega
  next => cases hlast

theorem wholeMinutes_of_zone? {offset : Option Int} (hread : zone? chars = some offset) :
    ∀ shift ∈ offset, WholeMinutes shift := by
  rintro shift ⟨⟩
  unfold zone? at hread
  split at hread
  next => cases hread
  next =>
    split at hread
    next =>
      cases hread
      exact ⟨rfl, by decide⟩
    next => cases hread
  next sign later =>
    split at hread
    next =>
      simp only [Option.bind_eq_bind, Option.map_eq_some_iff, Option.bind_eq_some_iff] at hread
      obtain ⟨_, ⟨magnitude, hmagnitude, hvalue⟩, hshift⟩ := hread
      cases hvalue
      cases hshift
      exact (wholeMinutes_of_offsetMagnitude? hmagnitude).1
    next =>
      split at hread
      next =>
        simp only [Option.bind_eq_bind, Option.map_eq_some_iff, Option.bind_eq_some_iff] at hread
        obtain ⟨_, ⟨magnitude, hmagnitude, hvalue⟩, hshift⟩ := hread
        cases hvalue
        cases hshift
        exact (wholeMinutes_of_offsetMagnitude? hmagnitude).2
      next => cases hread

theorem proper_of_calendar? (hread : calendar? chars = some moment) : moment.Proper := by
  simp only [calendar?, Option.bind_eq_bind, Option.bind_eq_some_iff] at hread
  obtain ⟨⟨date, rest⟩, hdate, htail⟩ := hread
  have hvalid := valid_of_date? hdate
  split at htail
  next =>
    cases htail
    exact ⟨hvalid, by constructor <;> simp [timeOf, Stamp.moment], by simp [Stamp.moment]⟩
  next separator later =>
    split at htail
    next =>
      simp only [Option.bind_eq_some_iff] at htail
      obtain ⟨⟨time, zone⟩, htime, offset, hzone, hlast⟩ := htail
      cases hlast
      exact ⟨hvalid, valid_of_time? htime, wholeMinutes_of_zone? hzone⟩
    next => cases htail

theorem proper_ofInstant {instant : Int} (hrange : InRange instant) :
    (DateTime.ofInstant instant).Proper := by
  obtain ⟨hfirst, hlast⟩ := hrange
  have hdays : (instant / dayLength).toNat < daysBeforeYear (lastYear + 1) := by
    simp only [dayLength] at hlast ⊢
    omega
  refine ⟨Date.valid_ofDayNumber hdays, ?_, ?_⟩
  · have hrest : (instant % dayLength).toNat < 86400000000 := by
      simp only [dayLength]
      omega
    constructor <;> simp only [timeOf, DateTime.ofInstant, DateTime.ofClockReading] <;> omega
  · rintro shift ⟨⟩
    exact ⟨rfl, by decide⟩

theorem proper_of_ofCount? {count : Int} {micros : Nat}
    (hread : ofCount? count micros = some moment) : moment.Proper := by
  unfold ofCount? at hread
  simp only at hread
  split at hread
  next hrange =>
    cases hread
    exact proper_ofInstant hrange.2
  next => cases hread

theorem proper_of_number? (hread : number? chars = some moment) : moment.Proper := by
  unfold number? at hread
  simp only at hread
  split at hread
  next => cases hread
  next =>
    split at hread
    next => exact proper_of_ofCount? hread
    next digits =>
      split at hread
      next => cases hread
      next =>
        obtain ⟨value, -, hwritten⟩ := Option.bind_eq_some_iff.mp hread
        unfold ofWrittenFloat? at hwritten
        split at hwritten
        next => cases hwritten
        next => exact proper_of_ofCount? hwritten
    next => cases hread

theorem proper_of_ofFloat? {value : Float} (hread : ofFloat? value = some moment) :
    moment.Proper := by
  unfold ofFloat? at hread
  split at hread
  next => cases hread
  next => exact proper_of_ofCount? hread

theorem proper_of_read? {text : String} (hread : read? text = some moment) : moment.Proper := by
  rcases Option.or_eq_some_iff.mp hread with hcalendar | ⟨-, hnumber⟩
  · exact proper_of_calendar? hcalendar
  · exact proper_of_number? hnumber

end Stamp

end Calendar

end OneShot
