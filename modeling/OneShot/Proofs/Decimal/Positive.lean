import OneShot.Proofs.Decimal.Floats

/-!
# Floats above zero

Rounding keeps numbers above zero there, as long as they are not below the least of the format, and
packing keeps what was rounded.  So a whole number above zero is a float above zero, or infinity.
-/

namespace OneShot.Decimal

open Float.Model (UnpackedFloat)
open Float.Model.UnpackedFloat (Sign)

/-- Above zero, and infinite or in the range of the format but for numbers that are too large. -/
inductive Above : UnpackedFloat → Prop
  | infinity : Above (.infinity .positive)
  | finite {mantissa : Nat} {exponent : Int} {hpos : 0 < mantissa} (hleast : -1074 ≤ exponent)
      (hfits : mantissa < 2 ^ 53) : Above (.finite .positive mantissa exponent hpos)

/-! ## Rounding -/

theorem shiftRight_mantissa (extended : UnpackedFloat.ExtendedMantissa) (places : Nat) :
    (extended >>> places).mantissa = extended.mantissa / 2 ^ places := by
  induction places with
  | zero => simp [HShiftRight.hShiftRight, Nat.repeat]
  | succ places ih =>
      change (extended >>> places).mantissa / 2 = _
      rw [ih, Nat.div_div_eq_div_mul, ← Nat.pow_succ]

theorem le_roundedMantissa (extended : UnpackedFloat.ExtendedMantissa) :
    extended.mantissa ≤ extended.roundedMantissa := by
  obtain ⟨mantissa, round, sticky⟩ := extended
  cases round <;> cases sticky <;>
    simp [UnpackedFloat.ExtendedMantissa.roundedMantissa,
      UnpackedFloat.ExtendedMantissa.accuracy, UnpackedFloat.Accuracy.roundToNearestEven]

theorem shifted_bounds {mantissa : Nat} {exponent : Int} (accuracy : UnpackedFloat.Accuracy)
    (hpos : 0 < mantissa) (hleast : -1074 ≤ mantissa.log2 + exponent) :
    let shifted := UnpackedFloat.shiftToTargetExponent .binary64 mantissa exponent accuracy
    0 < shifted.1.mantissa ∧ shifted.1.mantissa < 2 ^ 53 ∧ -1074 ≤ shifted.2 := by
  unfold UnpackedFloat.shiftToTargetExponent UnpackedFloat.shiftToExponent
  simp only [shiftRight_mantissa]
  have hmantissa : (UnpackedFloat.ExtendedMantissa.ofMantissaAndAccuracy mantissa
      accuracy).mantissa = mantissa := by
    rcases accuracy with _ | _ | _ | _ <;> rfl
  rw [hmantissa]
  have htarget : Float.Model.Format.binary64.targetExponent
      (Float.Model.totalExponent mantissa exponent) =
        max (mantissa.log2 + exponent - 52) (-1074) := by
    simp only [Float.Model.Format.targetExponent, Float.Model.totalExponent,
      Float.Model.Format.mantissaBits, Float.Model.Format.minExponent]
    omega
  rw [htarget]
  generalize hplaces : (max ((mantissa.log2 : Int) + exponent - 52) (-1074) - exponent).toNat =
    places
  refine ⟨?_, ?_, by omega⟩
  · have hle : 2 ^ places ≤ mantissa :=
      (Nat.pow_le_pow_right (by decide) (by omega)).trans
        (Nat.log2_self_le (Nat.ne_of_gt hpos))
    exact Nat.div_pos hle (by positivity)
  · rw [Nat.div_lt_iff_lt_mul (by positivity), ← Nat.pow_add]
    exact Nat.lt_log2_self.trans_le (Nat.pow_le_pow_right (by decide) (by omega))

/-- What is not below the least number of the format is rounded to a number above zero. -/
theorem above_roundWithAccuracy {mantissa : Nat} {exponent : Int}
    (accuracy : UnpackedFloat.Accuracy) (hpos : 0 < mantissa)
    (hleast : -1074 ≤ mantissa.log2 + exponent) :
    Above (UnpackedFloat.roundWithAccuracy .binary64 .positive mantissa exponent accuracy) := by
  have hfirst := shifted_bounds accuracy hpos hleast
  unfold UnpackedFloat.roundWithAccuracy
  generalize UnpackedFloat.shiftToTargetExponent .binary64 mantissa exponent accuracy = shifted
    at hfirst ⊢
  obtain ⟨extended, places⟩ := shifted
  have hrounded : 0 < extended.roundedMantissa := hfirst.1.trans_le (le_roundedMantissa extended)
  have hinrange : -1074 ≤ extended.roundedMantissa.log2 + places := by
    have hplaces : -1074 ≤ places := hfirst.2.2
    omega
  -- rounding up may have carried, which is why the mantissa is shifted once more
  have hsecond := shifted_bounds .exact hrounded hinrange
  simp only [dif_neg (Nat.ne_of_gt hsecond.1)]
  exact .finite hsecond.2.2 hsecond.2.1

/-! ## Packing -/

theorem above_unpack_packComponents {exponent : BitVec 11} {mantissa : BitVec 52}
    (hnumber : exponent = -1#11 → mantissa = 0#52)
    (hnonzero : exponent = 0#11 → mantissa ≠ 0#52) :
    Above (UnpackedFloat.unpack .binary64
      (UnpackedFloat.packComponents .binary64 .positive exponent mantissa)) := by
  have hfits : mantissa.toNat < 2 ^ 52 := mantissa.isLt
  unfold UnpackedFloat.unpack
  simp only [UnpackedFloat.unpackExponent_packComponents,
    UnpackedFloat.unpackMantissa_packComponents, UnpackedFloat.unpackSign_packComponents]
  split
  next hall =>
    rw [if_pos (hnumber hall)]
    exact .infinity
  next =>
    split
    next hzero =>
      rw [dif_neg (hnonzero hzero), hzero]
      exact .finite (by decide) (hfits.trans (by decide))
    next hexponent =>
      refine .finite ?_ (1#1 ++ mantissa).isLt
      have hleast : 0 < exponent.toNat := by
        simpa [BitVec.toNat_pos, BitVec.pos_iff_ne_zero] using hexponent
      simp only [Float.Model.Format.exponentBias]
      omega

theorem above_unpack_pack {unpacked : UnpackedFloat} (habove : Above unpacked) :
    Above (Float.Model.pack unpacked).unpack := by
  change Above (UnpackedFloat.unpack .binary64 (UnpackedFloat.pack .binary64 unpacked))
  cases habove with
  | infinity => exact above_unpack_packComponents (fun _ => rfl) (by decide)
  | @finite mantissa exponent hpos hleast hfits =>
    unfold UnpackedFloat.pack
    dsimp only
    split
    next => exact above_unpack_packComponents (fun _ => rfl) (by decide)
    next hrange =>
      simp only [Float.Model.Format.exponentBias] at hrange ⊢
      generalize hbiased : (exponent + ↑(2 ^ (11 - 1) - 1 : Nat) + (52 : Nat)).toNat = biased
        at hrange ⊢
      have hbits : (BitVec.ofNat 11 biased).toNat = biased := by
        rw [BitVec.toNat_ofNat, Nat.mod_eq_of_lt (by omega)]
      split
      -- the leading place is left out if the mantissa has all places, else the number is subnormal
      next =>
        refine above_unpack_packComponents (fun hall => ?_) (fun hzero => ?_)
        · rw [hall] at hbits
          change 2047 = biased at hbits
          omega
        · rw [hzero] at hbits
          change 0 = biased at hbits
          omega
      next hplaces =>
        have hplaces' : mantissa.log2 < 52 := by
          have hlog := (Nat.log2_lt (Nat.ne_of_gt hpos)).mpr hfits
          change ¬ mantissa.log2 + 1 = 53 at hplaces
          omega
        have hsmall : mantissa < 2 ^ 52 := (Nat.log2_lt (Nat.ne_of_gt hpos)).mp hplaces'
        refine above_unpack_packComponents (fun hall => absurd hall (by decide)) fun _ hzero => ?_
        have hnat := congrArg BitVec.toNat hzero
        rw [BitVec.toNat_ofNat, Nat.mod_eq_of_lt hsmall] at hnat
        exact Nat.ne_of_gt hpos hnat

theorem value?_pos_of_above {x : Float} (habove : Above x.toModel.unpack) :
    ∃ a ∈ value? x, 0 < a := by
  unfold value?
  generalize x.toModel.unpack = unpacked at habove ⊢
  cases habove with
  | infinity => exact ⟨⊤, rfl, EReal.zero_lt_top⟩
  | @finite mantissa exponent hpos =>
      exact ⟨magnitude mantissa exponent, rfl, EReal.coe_pos.mpr (magnitude_pos hpos)⟩

/-! ## Whole numbers -/

theorem log2_mul_two_pow {mantissa : Nat} (hpos : 0 < mantissa) (places : Nat) :
    (mantissa * 2 ^ places).log2 = mantissa.log2 + places := by
  have hproduct : 0 < mantissa * 2 ^ places := by positivity
  have hbounds := (Nat.log2_eq_iff (Nat.ne_of_gt hpos)).mp rfl
  rw [Nat.log2_eq_iff (Nat.ne_of_gt hproduct), Nat.pow_add, Nat.add_right_comm, Nat.pow_add]
  exact ⟨Nat.mul_le_mul_right _ hbounds.1,
    Nat.mul_lt_mul_of_pos_right hbounds.2 (Nat.two_pow_pos places)⟩

theorem le_log2_mul_two_pow {mantissa : Nat} (hpos : 0 < mantissa) (places : Nat) :
    places ≤ (mantissa * 2 ^ places).log2 :=
  (log2_mul_two_pow hpos places).ge.trans' (Nat.le_add_left places _)

theorem mul_finite {mantissa mantissa' : Nat} {exponent exponent' : Int} (hpos : 0 < mantissa)
    (hpos' : 0 < mantissa') :
    UnpackedFloat.mul .binary64 (.finite .positive mantissa exponent hpos)
        (.finite .positive mantissa' exponent' hpos') =
      UnpackedFloat.roundWithAccuracy .binary64 .positive (mantissa * mantissa')
        (exponent + exponent') .exact :=
  rfl

theorem above_mul_one {unpacked : UnpackedFloat} (habove : Above unpacked) :
    Above (UnpackedFloat.mul .binary64 unpacked
      (Float.exactlyRepresentablePowersOfTen[0]).toModel.unpack) := by
  have hone : (Float.exactlyRepresentablePowersOfTen[0]).toModel.unpack =
      .finite .positive (2 ^ 52) (-52) (by decide) := rfl
  rw [hone]
  cases habove with
  | infinity => exact .infinity
  | @finite mantissa exponent hpos hleast =>
      refine above_roundWithAccuracy .exact (by positivity) ?_
      have hlog := le_log2_mul_two_pow hpos 52
      omega

theorem above_ofNat {n : Nat} (hpos : 0 < n) : Above (UnpackedFloat.ofNat .binary64 n) := by
  unfold UnpackedFloat.ofNat UnpackedFloat.ofInt UnpackedFloat.normalize
  rw [Int.compare_eq_gt.mpr (by omega)]
  unfold UnpackedFloat.round UnpackedFloat.decreaseExponent
  simp only [Int.toNat_natCast, Nat.shiftLeft_eq]
  generalize (0 - Float.Model.Format.binary64.targetExponent
    (Float.Model.totalExponent n 0)).toNat = places
  refine above_roundWithAccuracy .exact (by positivity) ?_
  have hlog := le_log2_mul_two_pow hpos places
  omega

theorem above_ofScientific {mantissa : Nat} (hpos : 0 < mantissa) :
    Above (Float.ofScientific mantissa false 0).toModel.unpack := by
  unfold Float.ofScientific
  split
  -- numbers that a float holds exactly take a path of their own
  next hsmall =>
    have hsame : mantissa.toUInt64.toNat = mantissa :=
      Nat.mod_eq_of_lt (hsmall.1.trans (by decide))
    refine above_unpack_pack (above_mul_one (above_unpack_pack ?_))
    change Above (UnpackedFloat.ofNat .binary64 mantissa.toUInt64.toNat)
    rw [hsame]
    exact above_ofNat hpos
  next =>
    refine above_unpack_pack ?_
    change Above (UnpackedFloat.ofScientific .binary64 mantissa 0)
    unfold UnpackedFloat.ofScientific
    rw [dif_neg (Nat.ne_of_gt hpos), if_neg (by decide), if_neg (by simp), if_pos (by decide)]
    rw [mul_finite]
    refine above_roundWithAccuracy .exact (Nat.mul_pos ?_ (by decide)) ?_
    · rw [Nat.shiftLeft_eq]
      positivity
    · have hlog := le_log2_mul_two_pow hpos 53
      rw [Nat.shiftLeft_eq, Int.toNat_zero, Nat.pow_zero, Nat.mul_one]
      change -1074 ≤ ((mantissa * 2 ^ 53).log2 : Int) + (-53 + 0)
      omega

/-- A whole number above zero is read as a float above zero, be it infinity. -/
theorem value?_floatOfInt_pos {value : Int} (hpos : 0 < value) :
    ∃ a ∈ value? (floatOfInt value), 0 < a := by
  unfold floatOfInt ofDecimal
  simp only [if_neg (not_lt.mpr hpos.le)]
  rw [if_neg (by simpa using hpos.ne')]
  split
  next => exact ⟨⊤, rfl, EReal.zero_lt_top⟩
  next =>
    rw [if_neg (by omega)]
    exact value?_pos_of_above (above_ofScientific (by omega))

end OneShot.Decimal
