import OneShot.Proofs.Decimal.Numerals
import Mathlib.Data.List.TakeWhile

/-!
# Which texts are integers

A text is read as an integer if and only if it is a numeral: a sign and digits of any script, with
single underscores between digits and blanks around, and not too many digits.  So an integer has
many texts besides the one that is written for it.
-/

namespace OneShot

open OneShot.Text

namespace Decimal

/-! ## Runs of digits -/

/-- Digits, between two of which an underscore may stand. -/
inductive Run (digit? : Char → Option Nat) : List Char → List Nat → Prop where
  | last {c : Char} {digit : Nat} (hdigit : digit? c = some digit) : Run digit? [c] [digit]
  | next {c : Char} {digit : Nat} {rest : List Char} {digits : List Nat}
      (hdigit : digit? c = some digit) (hrest : Run digit? rest digits) :
      Run digit? (c :: rest) (digit :: digits)
  | apart {c : Char} {digit : Nat} {rest : List Char} {digits : List Nat}
      (hdigit : digit? c = some digit) (hrest : Run digit? rest digits) :
      Run digit? (c :: '_' :: rest) (digit :: digits)

section Runs

variable {digit? : Char → Option Nat} {chars : List Char} {digits : List Nat}

theorem Run.exists_cons (hrun : Run digit? chars digits) :
    ∃ c rest digit later, chars = c :: rest ∧ digits = digit :: later ∧ digit? c = some digit := by
  cases hrun with
  | last hdigit => exact ⟨_, _, _, _, rfl, rfl, hdigit⟩
  | next hdigit hrest => exact ⟨_, _, _, _, rfl, rfl, hdigit⟩
  | apart hdigit hrest => exact ⟨_, _, _, _, rfl, rfl, hdigit⟩

theorem Run.exists_last (hrun : Run digit? chars digits) :
    ∃ earlier c digit, chars = earlier ++ [c] ∧ digit? c = some digit := by
  induction hrun with
  | last hdigit => exact ⟨[], _, _, rfl, hdigit⟩
  | @next c _ _ _ hdigit hrest ih =>
      obtain ⟨earlier, last, value, rfl, hlast⟩ := ih
      exact ⟨c :: earlier, last, value, rfl, hlast⟩
  | @apart c _ _ _ hdigit hrest ih =>
      obtain ⟨earlier, last, value, rfl, hlast⟩ := ih
      exact ⟨c :: '_' :: earlier, last, value, rfl, hlast⟩

theorem Run.runOf_eq (hmark : digit? '_' = none) (hrun : Run digit? chars digits)
    (afterDigit : Bool) : runOf digit? afterDigit chars = (digits, []) := by
  induction hrun generalizing afterDigit with
  | last hdigit => simp [runOf, hdigit]
  | next hdigit hrest ih => simp [runOf, hdigit, ih]
  | apart hdigit hrest ih =>
      obtain ⟨c, rest, digit, later, rfl, rfl, hfirst⟩ := hrest.exists_cons
      rw [runOf, hdigit]
      simp only
      rw [runOf, hmark]
      simp [hfirst, ih]

theorem eq_nil_of_runOf {afterDigit : Bool} (hrun : runOf digit? afterDigit chars = ([], [])) :
    chars = [] := by
  cases chars with
  | nil => rfl
  | cons c rest =>
      rw [runOf] at hrun
      split at hrun
      next => simp at hrun
      next hnone =>
        split at hrun
        next hmark =>
          -- an underscore that is passed over is followed by a digit
          cases rest with
          | nil => simp at hmark
          | cons next later =>
              cases hnext : digit? next with
              | none => simp [hnext] at hmark
              | some digit => simp [runOf, hnext] at hrun
        next => simp at hrun

theorem run_of_runOf {afterDigit : Bool} {digit : Nat}
    (hrun : runOf digit? afterDigit chars = (digit :: digits, [])) :
    Run digit? chars (digit :: digits) ∨
      (afterDigit = true ∧ ∃ rest, chars = '_' :: rest ∧ Run digit? rest (digit :: digits)) := by
  induction chars generalizing afterDigit digit digits with
  | nil => simp [runOf] at hrun
  | cons c rest ih =>
      rw [runOf] at hrun
      split at hrun
      next found hfound =>
        obtain ⟨hdigits, htail⟩ := Prod.mk.inj hrun
        obtain ⟨rfl, hlater⟩ := List.cons.inj hdigits
        have hrest : runOf digit? true rest = (digits, []) := Prod.ext hlater htail
        left
        cases digits with
        | nil =>
            rw [eq_nil_of_runOf hrest]
            exact .last hfound
        | cons second later =>
            rcases ih hrest with hnext | ⟨-, after, rfl, hnext⟩
            · exact .next hfound hnext
            · exact .apart hfound hnext
      next hnone =>
        split at hrun
        next hmark =>
          simp only [Bool.and_eq_true, beq_iff_eq] at hmark
          obtain ⟨⟨rfl, hafter⟩, -⟩ := hmark
          rcases ih hrun with hnext | ⟨hfalse, -⟩
          · exact Or.inr ⟨hafter, rest, rfl, hnext⟩
          · cases hfalse
        next => simp at hrun

theorem runOf_eq_iff (hmark : digit? '_' = none) :
    (digits ≠ [] ∧ runOf digit? false chars = (digits, [])) ↔ Run digit? chars digits := by
  constructor
  · rintro ⟨hdigits, hrun⟩
    obtain ⟨digit, later, rfl⟩ := List.exists_cons_of_ne_nil hdigits
    rcases run_of_runOf hrun with hwhole | ⟨hfalse, -⟩
    · exact hwhole
    · cases hfalse
  · intro hrun
    obtain ⟨_, _, digit, later, -, rfl, -⟩ := hrun.exists_cons
    exact ⟨List.cons_ne_nil digit later, hrun.runOf_eq hmark false⟩

end Runs

/-! ## Characters of numerals -/

/-- A character that stands around a numeral; the information separators do not. -/
def isNumeralBlank (c : Char) : Bool :=
  isAsciiBlank c || (127 ≤ c.toNat && isBlank c)

theorem decimalValue?_lt {c : Char} {digit : Nat} (hdigit : decimalValue? c = some digit) :
    digit < 10 := by
  obtain ⟨first, hfirst, rfl⟩ := Option.map_eq_some_iff.mp hdigit
  have hrange := List.find?_some hfirst
  simp only [Bool.and_eq_true, decide_eq_true_eq] at hrange
  omega

/-- No digit is a blank. -/
theorem decimalValue?_of_isBlank {c : Char} (hblank : isBlank c = true) :
    decimalValue? c = none := by
  have hapart : ∀ range ∈ blankRanges, ∀ first ∈ scriptZeros,
      range.2 < first ∨ first + 10 ≤ range.1 := by decide
  obtain ⟨range, hrange, hc⟩ := List.any_eq_true.mp hblank
  simp only [Bool.and_eq_true, decide_eq_true_eq] at hc
  rw [decimalValue?, Option.map_eq_none_iff, List.find?_eq_none]
  intro first hfirst
  have := hapart range hrange first hfirst
  simp only [Bool.and_eq_true, decide_eq_true_eq]
  omega

theorem isBlank_of_isNumeralBlank {c : Char} (hblank : isNumeralBlank c = true) :
    isBlank c = true := by
  simp only [isNumeralBlank, isAsciiBlank, Bool.or_eq_true, Bool.and_eq_true, beq_iff_eq,
    decide_eq_true_eq] at hblank
  rcases hblank with (rfl | hcontrol) | ⟨-, hwide⟩
  · decide
  · exact List.any_eq_true.mpr ⟨(0x09, 0x0D), by decide, by simpa using hcontrol⟩
  · exact hwide

theorem isNumeralBlank_of_decimalValue? {c : Char} {digit : Nat}
    (hdigit : decimalValue? c = some digit) : isNumeralBlank c = false := by
  by_contra hblank
  have hnone := decimalValue?_of_isBlank (isBlank_of_isNumeralBlank (eq_true_of_ne_false hblank))
  rw [hnone] at hdigit
  cases hdigit

theorem decimalValue?_of_ascii {c : Char} (hc : c.toNat < 127) :
    decimalValue? c = asciiDigit? c := by
  have hall : ∀ n < 127, decimalValue? (Char.ofNat n) = asciiDigit? (Char.ofNat n) := by decide
  have hchar := hall c.toNat hc
  rwa [Char.ofNat_toNat] at hchar

/-- How a character of a number is brought to ASCII. -/
inductive InAscii : Char → Char → Prop where
  | same {c : Char} (hc : c.toNat < 127) : InAscii c c
  | blank {c : Char} (hc : 127 ≤ c.toNat) (hblank : isBlank c = true) : InAscii c ' '
  | digit {c : Char} {digit : Nat} (hc : 127 ≤ c.toNat) (hblank : isBlank c = false)
      (hdigit : decimalValue? c = some digit) : InAscii c (digitChar digit)

theorem inAscii_of_toAscii? {c a : Char} (hread : toAscii? c = some a) : InAscii c a := by
  unfold toAscii? at hread
  split at hread
  next hc =>
    cases hread
    exact .same hc
  next hc =>
    split at hread
    next hblank =>
      cases hread
      exact .blank (Nat.not_lt.mp hc) hblank
    next hblank =>
      obtain ⟨digit, hdigit, rfl⟩ := Option.map_eq_some_iff.mp hread
      exact .digit (Nat.not_lt.mp hc) (eq_false_of_ne_true hblank) hdigit

section InAscii

variable {c a : Char}

theorem InAscii.asciiDigit?_eq (hascii : InAscii c a) : asciiDigit? a = decimalValue? c := by
  cases hascii with
  | same hc => exact (decimalValue?_of_ascii hc).symm
  | blank hc hblank =>
      rw [decimalValue?_of_isBlank hblank]
      decide
  | digit hc hblank hdigit =>
      rw [hdigit]
      exact asciiDigit?_digitChar (decimalValue?_lt hdigit)

theorem InAscii.isAsciiBlank_eq (hascii : InAscii c a) : isAsciiBlank a = isNumeralBlank c := by
  unfold isNumeralBlank
  cases hascii with
  | same hc =>
      have hlow : decide (127 ≤ c.toNat) = false := decide_eq_false (by omega)
      rw [hlow, Bool.false_and, Bool.or_false]
  | blank hc hblank =>
      rw [decide_eq_true hc, hblank, Bool.true_and, Bool.or_true]
      decide
  | digit hc hblank hdigit =>
      have hhigh : isAsciiBlank c = false := by
        simp only [isAsciiBlank, Bool.or_eq_false_iff, beq_eq_false_iff_ne]
        refine ⟨?_, ?_⟩
        · rintro rfl
          exact absurd hc (by decide)
        · simp only [Bool.and_eq_false_iff, decide_eq_false_iff_not]
          omega
      rw [hblank, Bool.and_false, Bool.or_false, hhigh]
      exact (plain_digitChar (decimalValue?_lt hdigit)).visible

/-- A mark has no counterpart beyond ASCII. -/
theorem InAscii.eq_of_mark (hascii : InAscii c a) (hblank : a ≠ ' ')
    (hdigit : asciiDigit? a = none) : c = a := by
  cases hascii with
  | same hc => rfl
  | blank hc hspace => exact absurd rfl hblank
  | digit hc hspace hvalue =>
      rw [asciiDigit?_digitChar (decimalValue?_lt hvalue)] at hdigit
      cases hdigit

end InAscii

/-- The counterpart of a character in ASCII, if it has one. -/
def asciiOf (c : Char) : Char :=
  (toAscii? c).getD c

def Readable (chars : List Char) : Prop :=
  ∀ c ∈ chars, toAscii? c = some (asciiOf c)

theorem readable_of_isNumeralBlank {c : Char} (hblank : isNumeralBlank c = true) :
    toAscii? c = some (asciiOf c) := by
  have hsome : (toAscii? c).isSome = true := by
    unfold toAscii?
    split
    next => rfl
    next hc =>
      have hhigh : 127 ≤ c.toNat := Nat.not_lt.mp hc
      simp only [isNumeralBlank, isAsciiBlank, Bool.or_eq_true, Bool.and_eq_true, beq_iff_eq,
        decide_eq_true_eq] at hblank
      rcases hblank with (rfl | hcontrol) | ⟨-, hwide⟩
      · exact absurd hhigh (by decide)
      · omega
      · rw [if_pos hwide]
        rfl
  obtain ⟨a, ha⟩ := Option.isSome_iff_exists.mp hsome
  rw [asciiOf, ha, Option.getD_some]

theorem readable_of_decimalValue? {c : Char} {digit : Nat} (hdigit : decimalValue? c = some digit) :
    toAscii? c = some (asciiOf c) := by
  have hsome : (toAscii? c).isSome = true := by
    unfold toAscii?
    split
    next => rfl
    next =>
      split
      next => rfl
      next => rw [hdigit, Option.map_some, Option.isSome_some]
  obtain ⟨a, ha⟩ := Option.isSome_iff_exists.mp hsome
  rw [asciiOf, ha, Option.getD_some]

theorem mapM_toAscii?_eq_some_iff {chars read : List Char} :
    chars.mapM toAscii? = some read ↔ Readable chars ∧ read = chars.map asciiOf := by
  induction chars generalizing read with
  | nil => simp [Readable, eq_comm]
  | cons c rest ih =>
      rw [List.mapM_cons]
      cases hc : toAscii? c with
      | none => simp [Readable, hc]
      | some a =>
          have ha : asciiOf c = a := by rw [asciiOf, hc, Option.getD_some]
          cases hrest : rest.mapM toAscii? with
          | none =>
              have hunreadable : ¬ Readable rest := by
                intro hreadable
                rw [ih.mpr ⟨hreadable, rfl⟩] at hrest
                cases hrest
              simp only [Readable, List.mem_cons, forall_eq_or_imp] at hunreadable ⊢
              simp [hunreadable]
          | some others =>
              obtain ⟨hreadable, rfl⟩ := ih.mp hrest
              have hwhole : Readable (c :: rest) := by
                intro other hother
                rcases List.mem_cons.mp hother with rfl | hlater
                · rw [hc, ha]
                · exact hreadable other hlater
              simp [hwhole, ha, eq_comm]

/-- Runs of digits are the same ones in ASCII. -/
theorem Run.map_asciiOf_iff {chars : List Char} {digits : List Nat} (hreadable : Readable chars) :
    Run asciiDigit? (chars.map asciiOf) digits ↔ Run decimalValue? chars digits := by
  have hvalue : ∀ c, toAscii? c = some (asciiOf c) → asciiDigit? (asciiOf c) = decimalValue? c :=
    fun c hc => (inAscii_of_toAscii? hc).asciiDigit?_eq
  constructor
  · intro hrun
    generalize hmapped : chars.map asciiOf = mapped at hrun
    induction hrun generalizing chars with
    | last hdigit =>
        obtain ⟨c, rfl, rfl⟩ := List.map_eq_singleton_iff.mp hmapped
        rw [hvalue c (hreadable c (by simp))] at hdigit
        exact .last hdigit
    | next hdigit hrest ih =>
        obtain ⟨c, rest, rfl, rfl, rfl⟩ := List.map_eq_cons_iff.mp hmapped
        rw [hvalue c (hreadable c (by simp))] at hdigit
        exact .next hdigit (ih (fun other hother => hreadable other (by simp [hother])) rfl)
    | apart hdigit hrest ih =>
        obtain ⟨c, tail, rfl, rfl, htail⟩ := List.map_eq_cons_iff.mp hmapped
        obtain ⟨mark, rest, rfl, hmark, rfl⟩ := List.map_eq_cons_iff.mp htail
        have hascii : InAscii mark '_' := hmark ▸ inAscii_of_toAscii? (hreadable mark (by simp))
        obtain rfl : mark = '_' := hascii.eq_of_mark (by decide) (by decide)
        rw [hvalue c (hreadable c (by simp))] at hdigit
        exact .apart hdigit (ih (fun other hother => hreadable other (by simp [hother])) rfl)
  · intro hrun
    have hmark : asciiOf '_' = '_' := by decide
    induction hrun with
    | last hdigit =>
        exact .last (by rw [hvalue _ (hreadable _ (by simp)), hdigit])
    | next hdigit hrest ih =>
        apply Run.next
        · rw [hvalue _ (hreadable _ (by simp)), hdigit]
        · exact ih fun other hother => hreadable other (by simp [hother])
    | apart hdigit hrest ih =>
        rw [List.map_cons, List.map_cons, hmark]
        apply Run.apart
        · rw [hvalue _ (hreadable _ (by simp)), hdigit]
        · exact ih fun other hother => hreadable other (by simp [hother])

theorem Run.readable {chars : List Char} {digits : List Nat}
    (hrun : Run decimalValue? chars digits) : Readable chars := by
  induction hrun with
  | last hdigit =>
      intro c hc
      rw [List.mem_singleton.mp hc]
      exact readable_of_decimalValue? hdigit
  | next hdigit hrest ih =>
      intro c hc
      rcases List.mem_cons.mp hc with rfl | hlater
      · exact readable_of_decimalValue? hdigit
      · exact ih c hlater
  | apart hdigit hrest ih =>
      intro c hc
      rcases List.mem_cons.mp hc with rfl | hlater
      · exact readable_of_decimalValue? hdigit
      · rcases List.mem_cons.mp hlater with rfl | hlater
        · decide
        · exact ih c hlater

/-! ## Blanks around -/

theorem dropTail_append_tail (drop : Char → Bool) (chars : List Char) :
    dropTail drop chars ++ (chars.reverse.takeWhile drop).reverse = chars := by
  rw [dropTail, ← List.reverse_append, List.takeWhile_append_dropWhile, List.reverse_reverse]

theorem dropTail_map (drop : Char → Bool) (f : Char → Char) (chars : List Char) :
    dropTail drop (chars.map f) = (dropTail (drop ∘ f) chars).map f := by
  rw [dropTail, dropTail, ← List.map_reverse, List.dropWhile_map, List.map_reverse]

theorem dropTail_append_of_pos {drop : Char → Bool} {core tail : List Char}
    (htail : ∀ c ∈ tail, drop c = true) (hcore : ∀ c ∈ core.getLast?, drop c = false) :
    dropTail drop (core ++ tail) = core := by
  have hkept : core.reverse.dropWhile drop = core.reverse := by
    cases hreversed : core.reverse with
    | nil => rfl
    | cons last earlier =>
        have hlast : drop last = false := hcore last (by rw [← List.head?_reverse, hreversed]; rfl)
        rw [List.dropWhile_cons, hlast, if_neg Bool.false_ne_true]
  have hreversed : ∀ c ∈ tail.reverse, drop c = true := fun c hc =>
    htail c (List.mem_reverse.mp hc)
  rw [dropTail, List.reverse_append, List.dropWhile_append_of_pos hreversed, hkept,
    List.reverse_reverse]

/-- The characters that are left once the blanks at either end are dropped. -/
def trimmed (chars : List Char) : List Char :=
  dropTail isNumeralBlank (chars.dropWhile isNumeralBlank)

theorem trimmed_append {before core after : List Char}
    (hbefore : ∀ c ∈ before, isNumeralBlank c = true)
    (hafter : ∀ c ∈ after, isNumeralBlank c = true)
    (hfirst : ∀ c ∈ core.head?, isNumeralBlank c = false)
    (hlast : ∀ c ∈ core.getLast?, isNumeralBlank c = false) :
    trimmed (before ++ (core ++ after)) = core := by
  cases core with
  | nil =>
      have hnone : (before ++ after).dropWhile isNumeralBlank = [] := by
        rw [List.dropWhile_eq_nil_iff]
        intro c hc
        rcases List.mem_append.mp hc with hc | hc
        · exact hbefore c hc
        · exact hafter c hc
      rw [trimmed, List.nil_append, hnone]
      rfl
  | cons c rest =>
      have hkept : ((c :: rest) ++ after).dropWhile isNumeralBlank = (c :: rest) ++ after := by
        rw [List.cons_append, List.dropWhile_cons, hfirst c rfl, if_neg Bool.false_ne_true]
      rw [trimmed, List.dropWhile_append_of_pos hbefore, hkept]
      exact dropTail_append_of_pos hafter hlast

theorem exists_around_trimmed (chars : List Char) :
    ∃ before after, chars = before ++ (trimmed chars ++ after) ∧
      (∀ c ∈ before, isNumeralBlank c = true) ∧ ∀ c ∈ after, isNumeralBlank c = true := by
  refine ⟨chars.takeWhile isNumeralBlank,
    ((chars.dropWhile isNumeralBlank).reverse.takeWhile isNumeralBlank).reverse, ?_, ?_, ?_⟩
  · rw [trimmed, dropTail_append_tail, List.takeWhile_append_dropWhile]
  · exact fun c hc => List.mem_takeWhile_imp hc
  · exact fun c hc => List.mem_takeWhile_imp (List.mem_reverse.mp hc)

theorem dropWhile_congr {drop drop' : Char → Bool} {chars : List Char}
    (hsame : ∀ c ∈ chars, drop c = drop' c) : chars.dropWhile drop = chars.dropWhile drop' := by
  induction chars with
  | nil => rfl
  | cons c rest ih =>
      rw [List.dropWhile_cons, List.dropWhile_cons, hsame c List.mem_cons_self,
        ih fun other hother => hsame other (List.mem_cons_of_mem c hother)]

theorem numberChars?_eq_some_iff {text : String} {chars : List Char} :
    numberChars? text = some chars ↔
      Readable text.toList ∧ chars = (trimmed text.toList).map asciiOf := by
  have htrimmed : Readable text.toList →
      dropTail isAsciiBlank ((text.toList.map asciiOf).dropWhile isAsciiBlank) =
        (trimmed text.toList).map asciiOf := by
    intro hreadable
    have hsame : ∀ c ∈ text.toList, (isAsciiBlank ∘ asciiOf) c = isNumeralBlank c :=
      fun c hc => (inAscii_of_toAscii? (hreadable c hc)).isAsciiBlank_eq
    have hsubset : ∀ c ∈ (text.toList.dropWhile isNumeralBlank).reverse, c ∈ text.toList :=
      fun c hc => (List.dropWhile_sublist _).subset (List.mem_reverse.mp hc)
    rw [List.dropWhile_map, dropWhile_congr hsame, dropTail_map, trimmed, dropTail, dropTail,
      dropWhile_congr fun c hc => hsame c (hsubset c hc)]
  rw [numberChars?, Option.map_eq_some_iff]
  constructor
  · rintro ⟨read, hread, rfl⟩
    obtain ⟨hreadable, rfl⟩ := mapM_toAscii?_eq_some_iff.mp hread
    exact ⟨hreadable, htrimmed hreadable⟩
  · rintro ⟨hreadable, rfl⟩
    exact ⟨_, mapM_toAscii?_eq_some_iff.mpr ⟨hreadable, rfl⟩, htrimmed hreadable⟩

/-! ## Numerals -/

/-- The parts of the text of an integer. -/
structure Numeral where
  before : List Char
  sign : List Char
  body : List Char
  after : List Char
  digits : List Nat
  blanks : ∀ c ∈ before ++ after, isNumeralBlank c = true
  signs : sign = [] ∨ sign = ['+'] ∨ sign = ['-']
  run : Run decimalValue? body digits
  short : digits.length ≤ longestInteger

namespace Numeral

def chars (numeral : Numeral) : List Char :=
  numeral.before ++ ((numeral.sign ++ numeral.body) ++ numeral.after)

def value (numeral : Numeral) : Int :=
  if numeral.sign = ['-'] then -(numberOfDigits numeral.digits : Int)
  else numberOfDigits numeral.digits

variable (numeral : Numeral)

theorem readable : Readable numeral.chars := by
  intro c hc
  simp only [chars, List.mem_append] at hc
  rcases hc with hbefore | (hsign | hbody) | hafter
  · exact readable_of_isNumeralBlank (numeral.blanks c (List.mem_append_left _ hbefore))
  · rcases numeral.signs with hnone | hplus | hminus
    · simp [hnone] at hsign
    · obtain rfl : c = '+' := by simpa [hplus] using hsign
      decide
    · obtain rfl : c = '-' := by simpa [hminus] using hsign
      decide
  · exact numeral.run.readable c hbody
  · exact readable_of_isNumeralBlank (numeral.blanks c (List.mem_append_right _ hafter))

theorem trimmed_chars : trimmed numeral.chars = numeral.sign ++ numeral.body := by
  obtain ⟨first, rest, digit, later, hbody, -, hfirst⟩ := numeral.run.exists_cons
  obtain ⟨earlier, last, value, hbody', hlast⟩ := numeral.run.exists_last
  apply trimmed_append
  · exact fun c hc => numeral.blanks c (List.mem_append_left _ hc)
  · exact fun c hc => numeral.blanks c (List.mem_append_right _ hc)
  · intro c hc
    rcases numeral.signs with hsign | hsign | hsign <;> rw [hsign] at hc
    · obtain rfl : first = c := by simpa [hbody] using hc
      exact isNumeralBlank_of_decimalValue? hfirst
    · obtain rfl : '+' = c := by simpa using hc
      decide
    · obtain rfl : '-' = c := by simpa using hc
      decide
  · intro c hc
    obtain rfl : last = c := by simpa [hbody'] using hc
    exact isNumeralBlank_of_decimalValue? hlast

theorem signed_core :
    signed (numeral.sign ++ numeral.body) = (decide (numeral.sign = ['-']), numeral.body) := by
  obtain ⟨first, rest, digit, later, hbody, -, hfirst⟩ := numeral.run.exists_cons
  rcases numeral.signs with hsign | hsign | hsign
  · have hplus : first ≠ '+' := by
      rintro rfl
      cases hfirst
    have hminus : first ≠ '-' := by
      rintro rfl
      cases hfirst
    simp [hsign, hbody, signed, hplus, hminus]
  · simp [hsign, signed]
  · simp [hsign, signed]

end Numeral

/-- Whether an integer is what a text stands for. -/
def Denotes (text : String) (value : Int) : Prop :=
  ∃ numeral : Numeral, numeral.chars = text.toList ∧ numeral.value = value

theorem integerOf?_eq_some_iff {chars : List Char} {value : Int} :
    integerOf? chars = some value ↔
      ∃ digits, Run asciiDigit? (signed chars).2 digits ∧ digits.length ≤ longestInteger ∧
        value = if (signed chars).1 then -(numberOfDigits digits : Int)
          else numberOfDigits digits := by
  obtain ⟨⟨digits, tail⟩, hrun⟩ : ∃ run, digitRun false (signed chars).2 = run := ⟨_, rfl⟩
  have hiff : ∀ found, Run asciiDigit? (signed chars).2 found ↔
      found ≠ [] ∧ digits = found ∧ tail = [] := by
    intro found
    rw [← runOf_eq_iff (by decide)]
    simp only [digitRun] at hrun
    rw [hrun, Prod.mk.injEq]
  simp only [integerOf?, hrun, hiff]
  cases digits with
  | nil => simp +contextual
  | cons digit later =>
      cases tail with
      | cons c rest => simp
      | nil =>
          simp only
          split
          next hlong =>
            constructor
            · intro hnone
              cases hnone
            · rintro ⟨found, ⟨-, rfl, -⟩, hshort, -⟩
              exact absurd hlong (Nat.not_lt.mpr hshort)
          next hshort =>
            constructor
            · intro hvalue
              cases hvalue
              exact ⟨_, ⟨List.cons_ne_nil digit later, rfl, trivial⟩, Nat.not_lt.mp hshort, rfl⟩
            · rintro ⟨found, ⟨-, rfl, -⟩, -, rfl⟩
              rfl

theorem signed_map {chars : List Char} (hreadable : Readable chars) :
    signed (chars.map asciiOf) = ((signed chars).1, (signed chars).2.map asciiOf) := by
  cases chars with
  | nil => rfl
  | cons c rest =>
      have hascii : InAscii c (asciiOf c) := inAscii_of_toAscii? (hreadable c List.mem_cons_self)
      by_cases hplus : asciiOf c = '+'
      · obtain rfl : c = '+' := (hplus ▸ hascii).eq_of_mark (by decide) (by decide)
        rfl
      · by_cases hminus : asciiOf c = '-'
        · obtain rfl : c = '-' := (hminus ▸ hascii).eq_of_mark (by decide) (by decide)
          rfl
        · have hplus' : c ≠ '+' := by
            rintro rfl
            exact hplus (by decide)
          have hminus' : c ≠ '-' := by
            rintro rfl
            exact hminus (by decide)
          simp [signed, hplus, hminus, hplus', hminus']

theorem exists_sign (chars : List Char) :
    ∃ sign, chars = sign ++ (signed chars).2 ∧ (sign = [] ∨ sign = ['+'] ∨ sign = ['-']) ∧
      (sign = ['-'] ↔ (signed chars).1 = true) := by
  unfold signed
  split
  next rest => exact ⟨['+'], by simp⟩
  next rest => exact ⟨['-'], by simp⟩
  next => exact ⟨[], by simp⟩

/-- A text is read as the integer that it denotes. -/
theorem readInteger?_eq_some_iff {text : String} {value : Int} :
    readInteger? text = some value ↔ Denotes text value := by
  rw [readInteger?, Option.bind_eq_some_iff]
  constructor
  · rintro ⟨chars, hchars, hvalue⟩
    obtain ⟨hreadable, rfl⟩ := numberChars?_eq_some_iff.mp hchars
    obtain ⟨before, after, haround, hbefore, hafter⟩ := exists_around_trimmed text.toList
    have hcore : Readable (trimmed text.toList) := fun c hc =>
      hreadable c (by rw [haround]; simp [hc])
    obtain ⟨sign, hsplit, hsigns, hminus⟩ := exists_sign (trimmed text.toList)
    obtain ⟨digits, hrun, hshort, rfl⟩ := integerOf?_eq_some_iff.mp hvalue
    rw [signed_map hcore] at hrun ⊢
    have hbody : Readable (signed (trimmed text.toList)).2 := fun c hc =>
      hcore c (by rw [hsplit]; exact List.mem_append_right sign hc)
    let numeral : Numeral :=
      { before, sign, after, digits
        body := (signed (trimmed text.toList)).2
        blanks := fun c hc => (List.mem_append.mp hc).elim (hbefore c) (hafter c)
        signs := hsigns
        short := hshort
        run := (Run.map_asciiOf_iff hbody).mp hrun }
    refine ⟨numeral, ?_, ?_⟩
    · simp only [Numeral.chars, numeral]
      rw [← hsplit, ← haround]
    · simp only [Numeral.value, numeral, hminus]
  · rintro ⟨numeral, htext, rfl⟩
    refine ⟨(numeral.sign ++ numeral.body).map asciiOf, ?_, ?_⟩
    · rw [numberChars?_eq_some_iff, ← htext, numeral.trimmed_chars]
      exact ⟨numeral.readable, rfl⟩
    · rw [integerOf?_eq_some_iff]
      have hreadable : Readable (numeral.sign ++ numeral.body) := fun c hc =>
        numeral.readable c (by rw [Numeral.chars]; simp only [List.mem_append] at hc ⊢; tauto)
      rw [signed_map hreadable, numeral.signed_core]
      refine ⟨numeral.digits, ?_, numeral.short, ?_⟩
      · exact (Run.map_asciiOf_iff numeral.run.readable).mpr numeral.run
      · simp only [Numeral.value, decide_eq_true_eq]

end Decimal

end OneShot
