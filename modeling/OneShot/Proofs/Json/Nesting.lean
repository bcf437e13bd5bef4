import OneShot.Json.Reader
import Mathlib.Data.List.Basic

/-!
# Values that are nested too deep

The reader goes forward through a text, and for every bracket and every brace that it enters
there is room for one less.  So a text that is too deep opens more of them than there is room for.
-/

namespace OneShot.Json

open OneShot.Text

def isOpening (c : Char) : Bool :=
  c == '[' || c == '{'

/-- How many brackets and braces are opened, those inside strings included. -/
def openings (chars : List Char) : Nat :=
  chars.countP isOpening

theorem openings_le_of_suffix {rest chars : List Char} (hsuffix : rest <:+ chars) :
    openings rest ≤ openings chars :=
  hsuffix.sublist.countP_le

/-! ## Tokens -/

section Tokens

variable {chars rest : List Char}

end Tokens

/-! ## Values -/

/-- A reader goes forward, and what is too deep for it opens more than it has room for. -/
structure Bounded {α : Type} (room : Nat) (chars : List Char)
    (result : Except ReadFault (α × List Char)) : Prop where
  forward : ∀ value rest, result = .ok (value, rest) → rest <:+ chars
  deep : result = .error .tooDeep → room < openings chars

namespace Bounded

variable {α β : Type} {room : Nat} {chars rest : List Char}
  {result : Except ReadFault (α × List Char)}

theorem ok {value : α} (hsuffix : rest <:+ chars) :
    Bounded room chars (.ok (value, rest)) := by
  constructor
  · intro _ _ hok
    cases hok
    exact hsuffix
  · intro hdeep
    cases hdeep

theorem error {fault : ReadFault} (hdeep : fault = .tooDeep → room < openings chars) :
    Bounded room chars (.error fault : Except ReadFault (α × List Char)) := by
  constructor
  · intro _ _ hok
    cases hok
  · intro hfault
    exact hdeep (Except.error.inj hfault)

theorem malformed : Bounded room chars (.error .malformed : Except ReadFault (α × List Char)) :=
  error nofun

theorem tooDeep (hopen : room < openings chars) :
    Bounded room chars (.error .tooDeep : Except ReadFault (α × List Char)) :=
  error fun _ => hopen

theorem wellFormed {found : Option (α × List Char)}
    (hforward : ∀ value rest, found = some (value, rest) → rest <:+ chars) :
    Bounded room chars (wellFormed found) := by
  cases found with
  | none => exact malformed
  | some read => exact ok (hforward _ _ rfl)

/-- What holds of a rest holds of the whole. -/
theorem of_suffix (hbounded : Bounded room rest result) (hsuffix : rest <:+ chars) :
    Bounded room chars result :=
  ⟨fun value after hok => (hbounded.forward value after hok).trans hsuffix,
    fun hdeep => Nat.lt_of_lt_of_le (hbounded.deep hdeep) (openings_le_of_suffix hsuffix)⟩

/-- What is entered by a bracket or a brace has room for one less. -/
theorem enter {c : Char} (hopening : isOpening c = true) (hbounded : Bounded room rest result) :
    Bounded (room + 1) (c :: rest) result := by
  refine ⟨(hbounded.of_suffix (List.suffix_cons c rest)).forward, fun hdeep => ?_⟩
  rw [openings, List.countP_cons_of_pos hopening]
  exact Nat.succ_lt_succ (hbounded.deep hdeep)

theorem bind (hbounded : Bounded room chars result)
    {next : α × List Char → Except ReadFault (β × List Char)}
    (hnext : ∀ value rest, Bounded room rest (next (value, rest))) :
    Bounded room chars (result >>= next) := by
  cases result with
  | error fault => exact error fun hdeep => hbounded.deep (congrArg _ hdeep)
  | ok read => exact (hnext read.1 read.2).of_suffix (hbounded.forward _ _ rfl)

theorem map (hbounded : Bounded room chars result) (change : α → β) :
    Bounded room chars (result.map fun read => (change read.1, read.2)) := by
  cases result with
  | error fault => exact error fun hdeep => hbounded.deep (congrArg _ hdeep)
  | ok read => exact ok (hbounded.forward _ _ rfl)

end Bounded

namespace BoundedWith

variable {fuel : Nat}

end BoundedWith

/-- Brackets inside a string are no arrays. -/
example : (read 1 "[[]]" matches .error .tooDeep) ∧ (read 1 "[\"[[\"]" matches .ok _) := by
  decide +kernel

end OneShot.Json
