import OneShot.Proofs.Traversal
import OneShot.Toml.Reader

/-!
# What interrupts the reading of a document

A whole number stops the reading of a document only if it has more digits than integers may have,
wherever in the document it stands.  And a document is too deep only if it is long: what is inside
an array or a table is read two or three calls further down and takes two bits of fuel, and there is
no more fuel than there are characters.
-/

namespace OneShot.Toml

open OneShot.Decimal

variable {α β : Type} {deep deep' : Prop}

/-- Whether a reading may stop for a reason, given what it takes to be too deep. -/
def Allows (deep : Prop) : Fault → Prop
  | .malformed => True
  | .tooLong digits => longestInteger < digits
  | .tooDeep => deep

/-- A reading that stops only for a reason for which it may. -/
def Stops (deep : Prop) (reading : Except Fault α) : Prop :=
  ∀ fault, reading = .error fault → Allows deep fault

theorem stops_ok (found : α) : Stops deep (.ok found : Except Fault α) :=
  nofun

theorem stops_error {fault : Fault} (hallows : Allows deep fault) :
    Stops deep (.error fault : Except Fault α) := by
  intro other hstop
  cases hstop
  exact hallows

theorem stops_malformed : Stops deep (.error .malformed : Except Fault α) :=
  stops_error trivial

theorem stops_wellFormed (found : Option α) : Stops deep (wellFormed found) := by
  cases found with
  | none => exact stops_malformed
  | some found => exact stops_ok found

namespace Stops

variable {reading : Except Fault α}

theorem bind {next : α → Except Fault β} (hreading : Stops deep reading)
    (hnext : ∀ found, Stops deep (next found)) : Stops deep (reading >>= next) := by
  cases reading with
  | ok found => exact hnext found
  | error fault => exact stops_error (hreading fault rfl)

theorem map (hreading : Stops deep reading) (f : α → β) : Stops deep (reading.map f) := by
  cases reading with
  | ok found => exact stops_ok (f found)
  | error fault => exact stops_error (hreading fault rfl)

theorem mono (hreading : Stops deep reading) (himp : deep → deep') : Stops deep' reading := by
  intro fault hstop
  have hallows := hreading fault hstop
  cases fault with
  | malformed => trivial
  | tooLong digits => exact hallows
  | tooDeep => exact himp hallows

end Stops

/-! ## Numbers -/

theorem stops_wholeNumber (negative : Bool) (digits : List Nat) :
    Stops deep (wholeNumber negative digits) := by
  unfold wholeNumber
  split
  next hlong => exact stops_error hlong
  next => exact stops_ok _

theorem stops_decimal? {chars rest : List Char} {reading : Except Fault Toml}
    (hreading : decimal? chars = some (reading, rest)) : Stops deep reading := by
  unfold decimal? at hreading
  simp only at hreading
  split at hreading
  next => cases hreading
  next =>
    split at hreading
    next =>
      cases hreading
      exact stops_wholeNumber _ _
    next =>
      cases hreading
      exact stops_ok _

theorem stops_number? {chars rest : List Char} {reading : Except Fault Toml}
    (hreading : number? chars = some (reading, rest)) : Stops deep reading := by
  unfold number? at hreading
  obtain hmarked | ⟨-, hdecimal⟩ := Option.or_eq_some_iff.mp hreading
  · obtain ⟨found, -, hfound⟩ := Option.map_eq_some_iff.mp hmarked
    cases hfound
    exact stops_ok _
  · exact stops_decimal? hdecimal

theorem stops_scalar (chars : List Char) : Stops deep (scalar chars) := by
  unfold scalar
  split
  · exact stops_wellFormed _
  · exact stops_wellFormed _
  · dsimp only
    split
    next => exact stops_ok _
    next hnumber => exact (stops_number? hnumber).map _
    next => exact stops_wellFormed _

/-! ## Values -/

/-- There are at least so many calls wherever something is read. -/
def Spares (room : List Char → Nat) (least : Nat) : Prop :=
  ∀ chars, least ≤ room chars

/-- What is read with some fuel and too deep has little room for it: two bits of fuel, one for an
array or a table and one for what is inside, take three calls at most. -/
structure StopsWith (room : List Char → Nat) (least fuel : Nat) : Prop where
  value : ∀ used chars, Stops (2 * least < 2 * used + 3 * fuel) (value room fuel used chars)
  items : ∀ used chars, Stops (2 * least + 3 < 2 * used + 3 * fuel) (items room fuel used chars)
  members : ∀ used members chars,
    Stops (2 * least + 3 < 2 * used + 3 * fuel) (inlineMembers room fuel used members chars)

namespace StopsWith

variable {room : List Char → Nat} {least fuel : Nat}

theorem value_succ (hroom : Spares room least) (hfuel : StopsWith room least fuel) (used : Nat)
    (chars : List Char) :
    Stops (2 * least < 2 * used + 3 * (fuel + 1)) (Toml.value room (fuel + 1) used chars) := by
  have hleast := hroom chars
  unfold Toml.value
  split
  next hdeep => exact stops_error (show _ < _ by omega)
  next =>
    split
    next =>
      exact (stops_wellFormed _).bind fun rest =>
        ((hfuel.items (used + 2) rest).mono (by omega)).bind fun _ => stops_ok _
    next =>
      split
      next => exact stops_ok _
      next => exact ((hfuel.members (used + 3) [] _).mono (by omega)).map _
    next => exact stops_scalar _

theorem items_succ (hfuel : StopsWith room least fuel) (used : Nat) (chars : List Char) :
    Stops (2 * least + 3 < 2 * used + 3 * (fuel + 1)) (Toml.items room (fuel + 1) used chars) := by
  unfold Toml.items
  split
  · exact stops_ok _
  · refine ((hfuel.value used _).mono (by omega)).bind fun _ =>
      (stops_wellFormed _).bind fun _ => ?_
    split
    · exact stops_ok _
    · exact (stops_wellFormed _).bind fun _ =>
        ((hfuel.items used _).mono (by omega)).bind fun _ => stops_ok _
    · exact stops_malformed

theorem members_succ (hfuel : StopsWith room least fuel) (used : Nat) (members : Draft.Members)
    (chars : List Char) :
    Stops (2 * least + 3 < 2 * used + 3 * (fuel + 1))
      (inlineMembers room (fuel + 1) used members chars) := by
  unfold inlineMembers
  refine (stops_wellFormed _).bind fun _ => (stops_wellFormed _).bind fun _ =>
    ((hfuel.value used _).mono (by omega)).bind fun _ => (stops_wellFormed _).bind fun _ => ?_
  split
  · exact stops_ok _
  · exact (hfuel.members used _ _).mono (by omega)
  · exact stops_malformed

end StopsWith

/-! ## Documents -/

theorem length_plainNewlines_le (chars : List Char) :
    (plainNewlines chars).length ≤ chars.length := by
  induction chars using plainNewlines.induct with
  | case1 rest ih =>
      simp only [plainNewlines, List.length_cons]
      omega
  | case2 c rest hplain ih =>
      simp only [plainNewlines, List.length_cons]
      omega
  | case3 => exact Nat.le_refl 0

section Documents

variable {room : List Char → Nat} {least : Nat} (hroom : Spares room least)
include hroom

theorem stopsWith (fuel : Nat) : StopsWith room least fuel := by
  induction fuel with
  | zero =>
      constructor
      · intro used chars
        unfold value
        exact stops_malformed
      · intro used chars
        unfold items
        exact stops_malformed
      · intro used members chars
        unfold inlineMembers
        exact stops_malformed
  | succ fuel ih => exact ⟨ih.value_succ hroom, ih.items_succ, ih.members_succ⟩

theorem stops_pair (fuel : Nat) (chars : List Char) (progress : Progress) :
    Stops (least < 3 * fuel) (pair room fuel chars progress) :=
  (stops_wellFormed _).bind fun _ => (stops_wellFormed _).bind fun _ =>
    (((stopsWith hroom (2 * fuel)).value 0 _).mono (by omega)).bind fun _ =>
      (stops_wellFormed _).bind fun _ => stops_ok _

theorem stops_line (fuel : Nat) (chars : List Char) (progress : Progress) :
    Stops (least < 3 * fuel) (line room fuel chars progress) := by
  unfold line
  split
  · exact stops_wellFormed _
  · exact stops_wellFormed _
  · split
    · exact stops_pair hroom _ _ _
    · exact stops_ok _
  · exact stops_ok _

theorem stops_lines (fuel : Nat) (chars : List Char) (progress : Progress) :
    Stops (least < 3 * fuel) (lines room fuel chars progress) := by
  induction fuel generalizing chars progress with
  | zero => exact stops_malformed
  | succ fuel ih =>
      cases chars with
      | nil => exact stops_ok progress
      | cons c rest =>
          exact (stops_line hroom _ _ _).bind fun _ => (stops_wellFormed _).bind fun _ =>
            (ih _ _).mono (by omega)

theorem allows_of_read {text : String} {fault : Fault} (hread : read room text = .error fault) :
    Allows (least < 3 * (text.toList.length + 1)) fault := by
  have hlength := length_plainNewlines_le text.toList
  exact ((stops_lines hroom _ _ _).map _).mono (by omega) fault hread

end Documents

/-- Two calls are enough for an array in an array, and for no table in a table. -/
example : (read (fun _ => 2) "a = [[]]" matches .ok _) ∧
    (read (fun _ => 2) "a = [[[]]]" matches .error .tooDeep) ∧
    (read (fun _ => 2) "a = \x7bb = \x7b\x7d\x7d" matches .error .tooDeep) := by
  decide +kernel

end OneShot.Toml
