import OneShot.Proofs.Calendar.Order
import OneShot.Proofs.Calendar.Stamps
import Mathlib.Data.String.Basic

/-!
# The layout of schedules

A text is read as a schedule if and only if it has the layout: digits of fixed widths for a date
of the calendar and a time of day, with the marks between them.  Because the widths are fixed and
the fields descend, texts in the layout are ordered as their instants are.
-/

namespace OneShot.Schedule

open Calendar
open OneShot.Text

/-! ## Digits of a fixed width -/

/-- ASCII digits of a number of characters, and the number that they write. -/
inductive Digits : Nat → Nat → List Char → Prop where
  | none : Digits 0 0 []
  | more {width value : Nat} {chars : List Char} (hearlier : Digits width value chars) {c : Char}
      (hlow : '0' ≤ c) (hhigh : c ≤ '9') :
      Digits (width + 1) (10 * value + (c.toNat - 48)) (chars ++ [c])

section Digits

variable {width value : Nat} {chars : List Char}

theorem Digits.length_eq (hdigits : Digits width value chars) : chars.length = width := by
  induction hdigits with
  | none => rfl
  | more hearlier hlow hhigh ih => rw [List.length_append, ih, List.length_singleton]

theorem number?_append (chars : List Char) (c : Char) :
    number? (chars ++ [c]) =
      (number? chars).bind fun value => (asciiDigit? c).map fun digit => 10 * value + digit := by
  simp only [number?, List.mapM_append]
  cases chars.mapM asciiDigit? with
  | none => rfl
  | some digits =>
      cases hc : asciiDigit? c with
      | none => simp [hc]
      | some digit => simp [hc, numberOfDigits_append]

/-- A number is read from digits and from nothing else. -/
theorem digits_iff_number? :
    Digits width value chars ↔ chars.length = width ∧ number? chars = some value := by
  constructor
  · intro hdigits
    refine ⟨hdigits.length_eq, ?_⟩
    induction hdigits with
    | none => rfl
    | more hearlier hlow hhigh ih =>
        rw [number?_append, ih, asciiDigit?, if_pos ⟨hlow, hhigh⟩]
        rfl
  · rintro ⟨rfl, hnumber⟩
    induction chars using List.reverseRecOn generalizing value with
    | nil =>
        cases hnumber
        exact .none
    | append_singleton earlier c ih =>
        rw [number?_append] at hnumber
        obtain ⟨higher, hhigher, hvalue⟩ := Option.bind_eq_some_iff.mp hnumber
        obtain ⟨digit, hdigit, rfl⟩ := Option.map_eq_some_iff.mp hvalue
        rw [asciiDigit?] at hdigit
        split at hdigit
        next hrange =>
          cases hdigit
          rw [List.length_append, List.length_singleton]
          exact (ih hhigher).more hrange.1 hrange.2
        next => cases hdigit

/-- Lists that begin with equally many characters are compared there first. -/
theorem append_lt_append_iff {front front' back back' : List Char}
    (hlength : front.length = front'.length) :
    front ++ back < front' ++ back' ↔ front < front' ∨ front = front' ∧ back < back' := by
  induction front generalizing front' with
  | nil =>
      obtain rfl : front' = [] := List.length_eq_zero_iff.mp hlength.symm
      simp
  | cons c rest ih =>
      obtain ⟨c', rest', rfl⟩ := List.exists_cons_of_length_eq_add_one hlength.symm
      simp only [List.cons_append, List.cons_lt_cons_iff, ih (Nat.succ.inj hlength),
        List.cons.injEq]
      tauto

theorem Digits.compare {value' : Nat} {chars' : List Char} (hdigits : Digits width value chars)
    (hdigits' : Digits width value' chars') :
    (chars < chars' ↔ value < value') ∧ (chars = chars' ↔ value = value') := by
  induction hdigits generalizing value' chars' with
  | none =>
      cases hdigits'
      simp
  | @more width value chars hearlier c hlow hhigh ih =>
      cases hdigits' with
      | @more _ value' chars' hearlier' c' hlow' hhigh' =>
          obtain ⟨hlt, heq⟩ := ih hearlier'
          have hlength : chars.length = chars'.length := by
            rw [hearlier.length_eq, hearlier'.length_eq]
          have hsame : c = c' ↔ c.toNat = c'.toNat := Char.toNat_inj.symm
          have hless : [c] < [c'] ↔ c.toNat < c'.toNat := by
            rw [List.cons_lt_cons_iff]
            simp only [List.lt_irrefl, and_false, or_false]
            exact Iff.rfl
          have hbounds : 48 ≤ c.toNat ∧ c.toNat ≤ 57 := ⟨hlow, hhigh⟩
          have hbounds' : 48 ≤ c'.toNat ∧ c'.toNat ≤ 57 := ⟨hlow', hhigh'⟩
          have happend : chars ++ [c] = chars' ++ [c'] ↔ chars = chars' ∧ c = c' :=
            List.append_singleton_inj
          rw [append_lt_append_iff hlength, happend, hless, hlt, heq, hsame]
          omega

end Digits

/-! ## The layout -/

/-- The layout of a schedule for the fields of a moment. -/
inductive LaidOut (moment : DateTime) : List Char → Prop where
  | mk {year month day hour minute second : List Char}
      (hyear : Digits 4 moment.date.year year) (hmonth : Digits 2 moment.date.month month)
      (hday : Digits 2 moment.date.day day) (hhour : Digits 2 moment.hour hour)
      (hminute : Digits 2 moment.minute minute) (hsecond : Digits 2 moment.second second) :
      LaidOut moment (year ++ '-' :: (month ++ '-' :: (day ++ 'T' ::
        (hour ++ ':' :: (minute ++ ':' :: (second ++ ['Z']))))))

/-- The moment that a text stands for as a schedule. -/
structure StandsFor (text : String) (moment : DateTime) : Prop extends moment.InSeconds where
  layout : LaidOut moment text.toList

theorem Digits.exists_four {value : Nat} {chars : List Char} (hdigits : Digits 4 value chars) :
    ∃ c1 c2 c3 c4, chars = [c1, c2, c3, c4] ∧ number? [c1, c2, c3, c4] = some value := by
  obtain ⟨hlength, hnumber⟩ := digits_iff_number?.mp hdigits
  obtain ⟨c1, rest, rfl⟩ := List.exists_cons_of_length_eq_add_one hlength
  obtain ⟨c2, c3, c4, rfl⟩ := List.length_eq_three.mp (Nat.succ.inj hlength)
  exact ⟨c1, c2, c3, c4, rfl, hnumber⟩

theorem Digits.exists_two {value : Nat} {chars : List Char} (hdigits : Digits 2 value chars) :
    ∃ c1 c2, chars = [c1, c2] ∧ number? [c1, c2] = some value := by
  obtain ⟨hlength, hnumber⟩ := digits_iff_number?.mp hdigits
  obtain ⟨c1, c2, rfl⟩ := List.length_eq_two.mp hlength
  exact ⟨c1, c2, rfl, hnumber⟩

theorem fields?_eq_some_iff {chars : List Char} {fields : Fields} :
    fields? chars = some fields ↔ LaidOut fields.moment chars := by
  constructor
  · intro hfields
    unfold fields? at hfields
    split at hfields
    next y1 y2 y3 y4 m1 m2 d1 d2 h1 h2 n1 n2 s1 s2 =>
      simp only [Option.pure_def, Option.bind_eq_bind, Option.bind_eq_some_iff] at hfields
      obtain ⟨year, hyear, month, hmonth, day, hday, hour, hhour, minute, hminute, second,
        hsecond, hsome⟩ := hfields
      cases hsome
      have hdigits : ∀ {chars : List Char} {value : Nat}, number? chars = some value →
          Digits chars.length value chars := fun hnumber => digits_iff_number?.mpr ⟨rfl, hnumber⟩
      exact @LaidOut.mk (Fields.moment ⟨year, month, day, hour, minute, second⟩)
        [y1, y2, y3, y4] [m1, m2] [d1, d2] [h1, h2] [n1, n2] [s1, s2] (hdigits hyear)
        (hdigits hmonth) (hdigits hday) (hdigits hhour) (hdigits hminute) (hdigits hsecond)
    next => cases hfields
  · rintro ⟨hyears, hmonths, hdays, hhours, hminutes, hseconds⟩
    obtain ⟨y1, y2, y3, y4, rfl, hyear⟩ := hyears.exists_four
    obtain ⟨m1, m2, rfl, hmonth⟩ := hmonths.exists_two
    obtain ⟨d1, d2, rfl, hday⟩ := hdays.exists_two
    obtain ⟨h1, h2, rfl, hhour⟩ := hhours.exists_two
    obtain ⟨n1, n2, rfl, hminute⟩ := hminutes.exists_two
    obtain ⟨s1, s2, rfl, hsecond⟩ := hseconds.exists_two
    simp only [List.cons_append, List.nil_append, fields?, hyear, hmonth, hday, hhour, hminute,
      hsecond]
    rfl

/-! ## Reading -/

theorem Digits.value_lt {width value : Nat} {chars : List Char}
    (hdigits : Digits width value chars) : value < 10 ^ width := by
  induction hdigits with
  | none => decide
  | @more width value chars hearlier c hlow hhigh ih =>
      have hbound : c.toNat ≤ 57 := hhigh
      rw [Nat.pow_succ]
      omega

theorem LaidOut.year_le {moment : DateTime} {chars : List Char} (hlayout : LaidOut moment chars) :
    moment.date.year ≤ lastYear := by
  cases hlayout with
  | mk hyear => exact Nat.le_of_lt_succ hyear.value_lt

/-- The checks that are made one after the other say that the moment is one of the calendar. -/
theorem Fields.inSeconds_iff {fields : Fields} (hyear : fields.year ≤ lastYear) :
    fields.moment.InSeconds ↔ fields.Admitted ∧ fields.year ≠ 0 ∧
      fields.day ≤ daysInMonth fields.year fields.month ∧ fields.second ≤ 59 := by
  have hlongest := daysInMonth_le fields.year fields.month
  constructor
  · rintro ⟨⟨hfirst, -, hmonth, hmonth', hday, hday'⟩, hhour, hminute, hsecond, -, -⟩
    simp only [Fields.moment] at *
    unfold Fields.Admitted
    omega
  · rintro ⟨⟨hmonth, hmonth', hday, -, hhour, hminute, -⟩, hnonzero, hday', hsecond⟩
    exact
      { date := ⟨Nat.one_le_iff_ne_zero.mpr hnonzero, hyear, hmonth, hmonth', hday, hday'⟩
        hour := hhour
        minute := hminute
        second := hsecond
        microsecond := rfl
        offset := rfl }

theorem parse_of_fields? {text : String} {fields : Fields}
    (hfields : fields? text.toList = some fields) (moment : DateTime) :
    parse text = .ok moment ↔ fields.moment.InSeconds ∧ moment = fields.moment := by
  rw [Fields.inSeconds_iff (fields?_eq_some_iff.mp hfields).year_le, parse, hfields]
  simp only
  split
  next hunadmitted => simp [hunadmitted]
  next hadmitted =>
    split
    next hzero => simp [hzero]
    next hnonzero =>
      split
      next hlong => simp [hlong]
      next hshort =>
        split
        next hleap => simp [hleap]
        next hregular =>
          simp [not_not.mp hadmitted, hnonzero, Nat.not_lt.mp hshort, Nat.not_lt.mp hregular,
            eq_comm]

/-- A text is read as the moment that it stands for. -/
theorem parse_eq_ok_iff {text : String} {moment : DateTime} :
    parse text = .ok moment ↔ StandsFor text moment := by
  constructor
  · intro hparse
    cases hfields : fields? text.toList with
    | none =>
        rw [parse, hfields] at hparse
        cases hparse
    | some fields =>
        obtain ⟨hmoment, rfl⟩ := (parse_of_fields? hfields moment).mp hparse
        exact ⟨hmoment, fields?_eq_some_iff.mp hfields⟩
  · rintro ⟨hmoment, hlayout⟩
    let fields : Fields := ⟨moment.date.year, moment.date.month, moment.date.day, moment.hour,
      moment.minute, moment.second⟩
    have hsame : moment = fields.moment := by
      obtain ⟨_, _, _, _, micro, offset⟩ := moment
      obtain ⟨-, -, -, -, rfl, rfl⟩ := hmoment
      rfl
    rw [hsame] at hlayout hmoment
    exact (parse_of_fields? (fields?_eq_some_iff.mpr hlayout) moment).mpr ⟨hmoment, hsame⟩

theorem fault_of_parse {text : String} {fault : ScheduleFault}
    (hparse : parse text = .error fault) :
    fault ∈ [.layout text, .field text, .yearZero text, .dayOfMonth text, .leapSecond text] := by
  unfold parse at hparse
  split at hparse
  next =>
    cases hparse
    simp
  next fields hfields =>
    split_ifs at hparse <;>
      · cases hparse
        simp

/-- Whatever is wrong with a text, the message names the text. -/
theorem message_of_parse {text : String} {fault : ScheduleFault}
    (hparse : parse text = .error fault) :
    ∃ detail, fault.message = "Invalid schedule " ++ quoted text ++ detail := by
  have hfield : (ScheduleFault.field text).message = "Invalid schedule " ++ quoted text ++
      (": time data " ++ (quoted text ++ " does not match format '%Y-%m-%dT%H:%M:%SZ'")) := by
    unfold ScheduleFault.message
    simp only
    rw [String.append_assoc, String.append_assoc]
  have hcauses := fault_of_parse hparse
  simp only [List.mem_cons, List.not_mem_nil, or_false] at hcauses
  rcases hcauses with rfl | rfl | rfl | rfl | rfl
  · exact ⟨_, rfl⟩
  · exact ⟨_, hfield⟩
  · exact ⟨_, rfl⟩
  · exact ⟨_, rfl⟩
  · exact ⟨_, rfl⟩

/-! ## Order -/

theorem Digits.append_lt_iff {width value value' : Nat} {chars chars' rest rest' : List Char}
    (hdigits : Digits width value chars) (hdigits' : Digits width value' chars') (mark : Char) :
    chars ++ mark :: rest < chars' ++ mark :: rest' ↔
      value < value' ∨ value = value' ∧ rest < rest' := by
  have hlength : chars.length = chars'.length := by rw [hdigits.length_eq, hdigits'.length_eq]
  obtain ⟨hlt, heq⟩ := hdigits.compare hdigits'
  have hmark : mark :: rest < mark :: rest' ↔ rest < rest' := by
    simp
  rw [append_lt_append_iff hlength, hmark, hlt, heq]

/-- Texts in the layout are ordered as the moments that they stand for. -/
theorem LaidOut.lt_iff {moment later : DateTime} {chars others : List Char}
    (hlayout : LaidOut moment chars) (hlayout' : LaidOut later others) :
    chars < others ↔ moment.Before later := by
  obtain ⟨hyear, hmonth, hday, hhour, hminute, hsecond⟩ := hlayout
  obtain ⟨hyear', hmonth', hday', hhour', hminute', hsecond'⟩ := hlayout'
  have hirrefl : ¬ ([] : List Char) < [] := List.lt_irrefl _
  rw [hyear.append_lt_iff hyear', hmonth.append_lt_iff hmonth', hday.append_lt_iff hday',
    hhour.append_lt_iff hhour', hminute.append_lt_iff hminute', hsecond.append_lt_iff hsecond']
  obtain ⟨⟨_, _, _⟩, _, _, _, _, _⟩ := moment
  obtain ⟨⟨_, _, _⟩, _, _, _, _, _⟩ := later
  simp only [DateTime.Before, Date.Before, Date.mk.injEq, hirrefl, and_false, or_false]
  omega

/-- Exactly the texts in the layout with a date of the calendar and a time of day are schedules,
every other text is refused with a message that names it, and schedules are ordered as their
instants are. -/
theorem schedules_are_laid_out_and_ordered (text : String) :
    (∀ moment, parse text = .ok moment ↔ StandsFor text moment) ∧
    ((¬ ∃ moment, StandsFor text moment) ↔ ∃ fault, parse text = .error fault ∧
      ∃ detail, fault.message = "Invalid schedule " ++ quoted text ++ detail) ∧
    ∀ other moment later, parse text = .ok moment → parse other = .ok later →
      (text < other ↔ moment.instant < later.instant) := by
  refine ⟨fun moment => parse_eq_ok_iff, ?_, ?_⟩
  · constructor
    · intro hnone
      cases hparse : parse text with
      | error fault => exact ⟨fault, rfl, message_of_parse hparse⟩
      | ok moment => exact absurd ⟨moment, parse_eq_ok_iff.mp hparse⟩ hnone
    · rintro ⟨fault, hparse, -⟩ ⟨moment, hstands⟩
      rw [parse_eq_ok_iff.mpr hstands] at hparse
      cases hparse
  · intro other moment later hparse hparse'
    have hstands := parse_eq_ok_iff.mp hparse
    have hstands' := parse_eq_ok_iff.mp hparse'
    rw [String.lt_iff_toList_lt, hstands.layout.lt_iff hstands'.layout,
      hstands.toInSeconds.instant_lt_iff hstands'.toInSeconds]

/-- The twenty-ninth of February is a schedule in a leap year only, and it comes before the
first of March. -/
theorem schedules_are_laid_out_and_ordered_in_leap_year :
    let last : DateTime := ⟨⟨2024, 2, 29⟩, 23, 59, 59, 0, some 0⟩
    let next : DateTime := ⟨⟨2024, 3, 1⟩, 0, 0, 0, 0, some 0⟩
    StandsFor "2024-02-29T23:59:59Z" last ∧ (¬ ∃ moment, StandsFor "2023-02-29T23:59:59Z" moment) ∧
      "2024-02-29T23:59:59Z" < "2024-03-01T00:00:00Z" ∧ last.instant < next.instant := by
  intro last next
  have hlast : parse "2024-02-29T23:59:59Z" = .ok last := by decide +kernel
  have hnext : parse "2024-03-01T00:00:00Z" = .ok next := by decide +kernel
  have hnone : parse "2023-02-29T23:59:59Z" = .error (.dayOfMonth "2023-02-29T23:59:59Z") := by
    decide +kernel
  have hbefore : "2024-02-29T23:59:59Z" < "2024-03-01T00:00:00Z" := by decide +kernel
  obtain ⟨hread, -, hordered⟩ := schedules_are_laid_out_and_ordered "2024-02-29T23:59:59Z"
  obtain ⟨-, hrefused, -⟩ := schedules_are_laid_out_and_ordered "2023-02-29T23:59:59Z"
  refine ⟨(hread last).mp hlast, hrefused.mpr ⟨_, hnone, ?_⟩, hbefore, ?_⟩
  · exact message_of_parse hnone
  · exact (hordered _ _ _ hlast hnext).mp hbefore

end OneShot.Schedule
