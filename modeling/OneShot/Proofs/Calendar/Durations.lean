import OneShot.Proofs.Calendar.Order
import OneShot.Proofs.Decimal.Quotients

/-!
# Durations in whole seconds

The microseconds between two moments become a float of seconds, and the whole seconds are those of
the float.  A float has places enough for all microseconds of five centuries.  Of a longer duration
the last microseconds of a second are lost to the rounding, which then counts a second too many.
-/

namespace OneShot.Calendar

open OneShot.Decimal

/-! ## Whole seconds -/

/-- Whether a duration is so close below a whole second that a float does not tell. -/
def RoundsUp (micros : Nat) : Prop :=
  (10 ^ 6 - micros % 10 ^ 6) * 2 ^ (53 - (micros / 10 ^ 6).log2) ≤ 10 ^ 6

instance (micros : Nat) : Decidable (RoundsUp micros) :=
  inferInstanceAs (Decidable (_ ≤ _))

/-- The seconds that are counted for a duration. -/
def countedSeconds (micros : Nat) : Nat :=
  micros / 10 ^ 6 + if RoundsUp micros then 1 else 0

section Counted

variable {micros later : Nat}

theorem lt_lack {places : Nat} (hplaces : 20 ≤ places) :
    10 ^ 6 < (10 ^ 6 - micros % 10 ^ 6) * 2 ^ places := by
  have hpower : 2 ^ 20 ≤ 2 ^ places := Nat.pow_le_pow_right (by decide) hplaces
  have hlack : 1 ≤ 10 ^ 6 - micros % 10 ^ 6 := by omega
  have hproduct := Nat.mul_le_mul hlack hpower
  omega

theorem not_roundsUp_of_lt (hlt : micros < 2 ^ 34 * 10 ^ 6) : ¬ RoundsUp micros := by
  have hlog : (micros / 10 ^ 6).log2 ≤ 33 := by
    rcases Nat.eq_zero_or_pos (micros / 10 ^ 6) with hzero | hpos
    · rw [hzero]
      decide
    · exact Nat.le_of_lt_succ ((Nat.log2_lt hpos.ne').mpr (by omega))
  exact (lt_lack (by omega)).not_ge

theorem countedSeconds_of_not_roundsUp (hexact : ¬ RoundsUp micros) :
    countedSeconds micros = micros / 10 ^ 6 := by
  rw [countedSeconds, if_neg hexact, Nat.add_zero]

theorem countedSeconds_mono (hle : micros ≤ later) :
    countedSeconds micros ≤ countedSeconds later := by
  have hwhole : micros / 10 ^ 6 ≤ later / 10 ^ 6 := Nat.div_le_div_right hle
  unfold countedSeconds
  by_cases hup : RoundsUp micros
  · rcases Nat.lt_or_eq_of_le hwhole with hlt | heq
    · split <;> split <;> omega
    · have hrest : 10 ^ 6 - later % 10 ^ 6 ≤ 10 ^ 6 - micros % 10 ^ 6 := by omega
      have hup' : RoundsUp later := by
        unfold RoundsUp at hup ⊢
        rw [← heq]
        exact (Nat.mul_le_mul_right _ hrest).trans hup
      rw [if_pos hup, if_pos hup', heq]
  · rw [if_neg hup]
    split <;> omega

/-- The places of the float of a duration are told by its whole seconds. -/
theorem roundsUp_iff {places : Nat} (hlow : 2 ^ 52 ≤ micros * 2 ^ places / 10 ^ 6)
    (hhigh : micros * 2 ^ places / 10 ^ 6 < 2 ^ 53) :
    RoundsUp micros ↔ (10 ^ 6 - micros % 10 ^ 6) * 2 ^ (places + 1) ≤ 10 ^ 6 := by
  have hpower := Nat.two_pow_pos places
  have hfloor : micros / 10 ^ 6 * 2 ^ places ≤ micros * 2 ^ places / 10 ^ 6 := by
    rw [Nat.le_div_iff_mul_le (by decide), Nat.mul_right_comm]
    exact Nat.mul_le_mul_right _ (Nat.div_mul_le_self micros _)
  have hceil : micros * 2 ^ places / 10 ^ 6 < (micros / 10 ^ 6 + 1) * 2 ^ places := by
    rw [Nat.div_lt_iff_lt_mul (by decide), Nat.mul_right_comm]
    exact Nat.mul_lt_mul_of_pos_right (by omega) hpower
  rcases Nat.eq_zero_or_pos (micros / 10 ^ 6) with hzero | hpos
  · rw [hzero, Nat.zero_add, Nat.one_mul] at hceil
    have hplaces : 52 < places := (Nat.pow_lt_pow_iff_right (by decide)).mp (hlow.trans_lt hceil)
    refine iff_of_false (not_roundsUp_of_lt (by omega)) (lt_lack (by omega)).not_ge
  · obtain ⟨hleast, hmost⟩ := (Nat.log2_eq_iff hpos.ne').mp rfl
    have hbelow : (micros / 10 ^ 6).log2 + places < 53 := by
      rw [← Nat.pow_lt_pow_iff_right (a := 2) (by decide), Nat.pow_add]
      exact (Nat.mul_le_mul_right _ hleast).trans_lt (hfloor.trans_lt hhigh)
    have habove : 52 < (micros / 10 ^ 6).log2 + 1 + places := by
      rw [← Nat.pow_lt_pow_iff_right (a := 2) (by decide), Nat.pow_add]
      exact (hlow.trans_lt hceil).trans_le (Nat.mul_le_mul_right _ hmost)
    have hplaces : 53 - (micros / 10 ^ 6).log2 = places + 1 := by omega
    rw [RoundsUp, hplaces]

end Counted

section Floats

variable {micros : Nat}

theorem secondsOfMicros_natCast (hpos : 0 < micros) (hlt : micros < 10 ^ (17 + 1)) :
    secondsOfMicros micros = Float.ofScientific micros true 6 := by
  have hdigits := Text.length_digitsOf_le hlt
  unfold secondsOfMicros ofDecimal
  rw [if_neg (by omega), Int.natAbs_natCast]
  rw [if_neg (by simpa using hpos.ne')]
  simp only
  rw [if_neg (by omega), if_neg (by omega)]
  rfl

theorem secondsOfMicros_neg (hpos : 0 < micros) :
    secondsOfMicros (-micros) = -secondsOfMicros micros := by
  unfold secondsOfMicros
  rw [if_pos (by omega), if_neg (by omega), Int.natAbs_neg]

/-- The float of a duration, and the places that it has behind the point. -/
theorem full_secondsOfMicros (hpos : 0 < micros) (hlt : micros < 2 ^ 39 * 10 ^ 6) :
    ∃ places : Nat, 0 < places ∧ places < 74 ∧
      2 ^ 52 ≤ micros * 2 ^ places / 10 ^ 6 ∧ micros * 2 ^ places / 10 ^ 6 < 2 ^ 53 ∧
      Full (secondsOfMicros micros).toModel.unpack (roundDiv (micros * 2 ^ places) (10 ^ 6))
        (-places) := by
  rw [secondsOfMicros_natCast hpos (hlt.trans (by decide))]
  obtain ⟨places, hfew, hlow, hhigh, hfull⟩ := full_ofScientific hpos (hlt.trans (by decide))
  refine ⟨places, Nat.pos_of_ne_zero ?_, hfew, hlow, hhigh, hfull⟩
  rintro rfl
  omega

theorem secondsOfMicros_zero : secondsOfMicros (0 : Nat) = 0.0 := rfl

theorem integralPart_secondsOfMicros (hlt : micros < 2 ^ 39 * 10 ^ 6) :
    (Binary.ofBits (secondsOfMicros micros).toBits).integralPart = countedSeconds micros := by
  rcases Nat.eq_zero_or_pos micros with rfl | hpos
  · have hzero : Binary.ofBits (0.0 : Float).toBits = ⟨0, -1074, false⟩ := rfl
    rw [secondsOfMicros_zero, hzero, countedSeconds_of_not_roundsUp (by decide)]
    simp only [Binary.integralPart, Binary.times, Nat.zero_mul, Nat.zero_div]
  · obtain ⟨places, hplaces, -, hlow, hhigh, hfull⟩ := full_secondsOfMicros hpos hlt
    rw [hfull.integralPart_eq hplaces, roundDiv_div_two_pow hplaces (by decide), countedSeconds]
    simp only [roundsUp_iff hlow hhigh]

end Floats

theorem isNegative_secondsOfMicros {micros : Int} (hlt : micros.natAbs < 2 ^ 39 * 10 ^ 6) :
    isNegative (secondsOfMicros micros) = decide (micros < 0) := by
  obtain ⟨count, rfl | rfl⟩ := micros.eq_nat_or_neg
  · rw [Int.natAbs_natCast] at hlt
    rw [decide_eq_false (by omega)]
    rcases Nat.eq_zero_or_pos count with rfl | hpos
    · rfl
    · obtain ⟨places, -, -, -, -, hfull⟩ := full_secondsOfMicros hpos hlt
      exact hfull.not_isNegative
  · rw [Int.natAbs_neg, Int.natAbs_natCast] at hlt
    rcases Nat.eq_zero_or_pos count with rfl | hpos
    · rfl
    · obtain ⟨places, -, hfew, -, -, hfull⟩ := full_secondsOfMicros hpos hlt
      rw [decide_eq_true (by omega), secondsOfMicros_neg hpos]
      exact hfull.isNegative_neg (by omega) (by omega)

end OneShot.Calendar
