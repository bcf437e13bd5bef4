import OneShot.Decimal.Read
import Mathlib.Algebra.Group.Nat.Defs
import Mathlib.Data.List.Basic

/-!
# Reading a written integer

An integer is read back from the text that it is written as.  A version of a
row that went through the hands of a client as text is therefore compared as
the number that it was.
-/

namespace OneShot

open OneShot.Text

/-! ## The digits of a number -/

namespace Text

theorem digitsOf_lt (n : Nat) : ∀ digit ∈ digitsOf n, digit < 10 := by
  fun_induction digitsOf n with
  | case1 n hlt => simpa using hlt
  | case2 n hle ih =>
      intro digit hdigit
      rcases List.mem_append.mp hdigit with hearlier | hlast
      · exact ih digit hearlier
      · rw [List.mem_singleton.mp hlast]
        exact Nat.mod_lt n (by omega)

theorem digitsOf_ne_nil (n : Nat) : digitsOf n ≠ [] := by
  unfold digitsOf
  split <;> simp

theorem numberOfDigits_digitsOf (n : Nat) : numberOfDigits (digitsOf n) = n := by
  fun_induction digitsOf n with
  | case1 n hlt => simp [numberOfDigits]
  | case2 n hle ih =>
      have happend : numberOfDigits (digitsOf (n / 10) ++ [n % 10]) =
          10 * numberOfDigits (digitsOf (n / 10)) + n % 10 := by
        simp [numberOfDigits]
      rw [happend, ih]
      omega

theorem length_digitsOf_le {n width : Nat} (hn : n < 10 ^ (width + 1)) :
    (digitsOf n).length ≤ width + 1 := by
  induction width generalizing n with
  | zero =>
      have hone : n < 10 := by simpa using hn
      rw [digitsOf, if_pos hone]
      exact Nat.le_refl 1
  | succ width ih =>
      rw [digitsOf]
      split
      next => simp
      next =>
        have htenth : n / 10 < 10 ^ (width + 1) := by
          rw [Nat.pow_succ] at hn
          omega
        have hlength := ih htenth
        rw [List.length_append, List.length_singleton]
        omega

end Text

namespace Decimal

/-- A character that stands for itself in a number: in ASCII, and not blank. -/
structure Plain (c : Char) : Prop where
  ascii : toAscii? c = some c
  visible : isAsciiBlank c = false

theorem plain_minus : Plain '-' := by
  constructor <;> decide

theorem plain_digitChar {digit : Nat} (hdigit : digit < 10) : Plain (digitChar digit) := by
  constructor
  · exact (by decide : ∀ digit < 10, toAscii? (digitChar digit) = some (digitChar digit))
      digit hdigit
  · exact (by decide : ∀ digit < 10, isAsciiBlank (digitChar digit) = false) digit hdigit

theorem asciiDigit?_digitChar {digit : Nat} (hdigit : digit < 10) :
    asciiDigit? (digitChar digit) = some digit :=
  (by decide : ∀ digit < 10, asciiDigit? (digitChar digit) = some digit) digit hdigit

theorem numberChars?_of_plain {text : String} (hplain : ∀ c ∈ text.toList, Plain c) :
    numberChars? text = some text.toList := by
  have hascii : text.toList.mapM toAscii? = some text.toList := by
    generalize text.toList = chars at hplain
    induction chars with
    | nil => rfl
    | cons c rest ih =>
        rw [List.mapM_cons, (hplain c List.mem_cons_self).ascii,
          ih fun other hother => hplain other (List.mem_cons_of_mem c hother)]
        rfl
  have hvisible : ∀ chars : List Char, (∀ c ∈ chars, Plain c) →
      chars.dropWhile isAsciiBlank = chars := by
    intro chars hchars
    cases chars with
    | nil => rfl
    | cons c rest =>
        rw [List.dropWhile_cons, (hchars c List.mem_cons_self).visible, if_neg (by simp)]
  unfold numberChars? dropTail
  rw [hascii, Option.map_some, hvisible _ hplain, hvisible _ (by simpa using hplain),
    List.reverse_reverse]

theorem digitRun_map_digitChar {digits : List Nat} (hdigits : ∀ digit ∈ digits, digit < 10)
    (afterDigit : Bool) : digitRun afterDigit (digits.map digitChar) = (digits, []) := by
  unfold digitRun
  induction digits generalizing afterDigit with
  | nil => rfl
  | cons digit rest ih =>
      rw [List.map_cons, runOf, asciiDigit?_digitChar (hdigits digit List.mem_cons_self)]
      simp only [ih (fun other hother => hdigits other (List.mem_cons_of_mem digit hother))]

theorem signed_natText (n : Nat) : signed (natText n).toList = (false, (natText n).toList) := by
  obtain ⟨first, rest, hdigits⟩ := List.exists_cons_of_ne_nil (digitsOf_ne_nil n)
  have hfirst : first < 10 := digitsOf_lt n first (by simp [hdigits])
  have hsign : ∀ digit < 10, digitChar digit ≠ '+' ∧ digitChar digit ≠ '-' := by decide
  obtain ⟨hplus, hminus⟩ := hsign first hfirst
  unfold natText
  rw [String.toList_ofList, hdigits, List.map_cons]
  unfold signed
  split
  next rest' heq => exact absurd (List.cons.inj heq).1 hplus
  next rest' heq => exact absurd (List.cons.inj heq).1 hminus
  next => rfl

theorem plain_natText (n : Nat) : ∀ c ∈ (natText n).toList, Plain c := by
  intro c hc
  rw [natText, String.toList_ofList] at hc
  obtain ⟨digit, hdigit, rfl⟩ := List.mem_map.mp hc
  exact plain_digitChar (digitsOf_lt n digit hdigit)

theorem digitRun_natText (n : Nat) :
    digitRun false (natText n).toList = (digitsOf n, []) := by
  rw [natText, String.toList_ofList]
  exact digitRun_map_digitChar (digitsOf_lt n) false

/-- Different numbers have different texts. -/
theorem natText_inj {one other : Nat} (heq : natText one = natText other) : one = other := by
  have hdigits : (digitsOf one, ([] : List Char)) = (digitsOf other, []) := by
    rw [← digitRun_natText one, ← digitRun_natText other, heq]
  rw [← numberOfDigits_digitsOf one, ← numberOfDigits_digitsOf other, (Prod.mk.inj hdigits).1]

/-- An integer is read back from its text, unless it has too many digits. -/
theorem readInteger?_intText (n : Int) :
    readInteger? (intText n) =
      if longestInteger < (digitsOf n.natAbs).length then none else some n := by
  obtain ⟨first, rest, hdigits⟩ := List.exists_cons_of_ne_nil (digitsOf_ne_nil n.natAbs)
  have hnumber : numberOfDigits (first :: rest) = n.natAbs := by
    rw [← hdigits, numberOfDigits_digitsOf]
  by_cases hneg : n < 0
  · have htext : (intText n).toList = '-' :: (natText n.natAbs).toList := by
      rw [intText, if_pos hneg, String.toList_append]
      rfl
    have hplain : ∀ c ∈ (intText n).toList, Plain c := by
      rw [htext]
      intro c hc
      rcases List.mem_cons.mp hc with rfl | hrest
      · exact plain_minus
      · exact plain_natText n.natAbs c hrest
    have hvalue : -(n.natAbs : Int) = n := by omega
    rw [readInteger?, numberChars?_of_plain hplain, Option.bind_some, htext, integerOf?]
    simp only [signed, digitRun_natText, hdigits, hnumber, if_true, hvalue]
  · have htext : intText n = natText n.natAbs := by rw [intText, if_neg hneg]
    have hvalue : (n.natAbs : Int) = n := by omega
    rw [htext, readInteger?, numberChars?_of_plain (plain_natText n.natAbs), Option.bind_some,
      integerOf?, signed_natText]
    simp only [digitRun_natText, hdigits, hnumber, Bool.false_eq_true, if_false, hvalue]

theorem eq_of_readInteger?_intText {n found : Int} (hread : readInteger? (intText n) = some found) :
    found = n := by
  rw [readInteger?_intText] at hread
  split at hread
  next => cases hread
  next => exact (Option.some.inj hread).symm

theorem readInteger?_intText_of_lt {n : Int} {width : Nat} (hn : n.natAbs < 10 ^ (width + 1))
    (hwidth : width < longestInteger) : readInteger? (intText n) = some n := by
  have hlength := length_digitsOf_le hn
  rw [readInteger?_intText, if_neg (by omega)]

end Decimal

end OneShot
