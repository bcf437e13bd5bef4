import OneShot.Calendar.Duration
import OneShot.Proofs.Decimal.Positive

/-!
# Quotients as floats

A quotient of whole numbers becomes a float in one rounding, to the nearest mantissa of 53 places
and to the even one of two that are as near.  The rounding keeps whole numbers, so the integral part
of the float is that of the quotient, or the next whole number if the quotient comes close to it.
-/

namespace OneShot.Decimal

open Float.Model (UnpackedFloat)
open Float.Model.UnpackedFloat (Sign ExtendedMantissa accuracyOfFraction)

/-! ## Rounded quotients -/

section Rounded

variable {num den : Nat}

theorem roundDiv_mul {factor : Nat} (hfactor : 0 < factor) :
    roundDiv (num * factor) (den * factor) = roundDiv num den := by
  have hcompare : compare (2 * (num % den * factor)) (den * factor) =
      compare (2 * (num % den)) den := by
    rw [← Nat.mul_assoc]
    rcases lt_trichotomy (2 * (num % den)) den with hlt | heq | hgt
    · rw [compare_lt_iff_lt.mpr hlt,
        compare_lt_iff_lt.mpr (Nat.mul_lt_mul_of_pos_right hlt hfactor)]
    · rw [heq, compare_eq_iff_eq.mpr rfl, compare_eq_iff_eq.mpr rfl]
    · rw [compare_gt_iff_gt.mpr hgt,
        compare_gt_iff_gt.mpr (Nat.mul_lt_mul_of_pos_right hgt hfactor)]
  unfold roundDiv
  rw [Nat.mul_mod_mul_right, Nat.mul_div_mul_right num den hfactor, hcompare]

theorem roundDiv_one (num : Nat) : roundDiv num 1 = num := by
  have hexact : compare 0 1 = Ordering.lt := rfl
  simp [roundDiv, Nat.mod_one, hexact]

theorem roundDiv_bounds (num den : Nat) :
    num / den ≤ roundDiv num den ∧ roundDiv num den ≤ num / den + 1 := by
  unfold roundDiv
  dsimp only
  split
  · omega
  · omega
  · split <;> omega

/-- A quotient is rounded up from the middle on if the number above is even. -/
theorem roundDiv_eq_succ_iff (hodd : num / den % 2 = 1) :
    roundDiv num den = num / den + 1 ↔ den ≤ 2 * (num % den) := by
  unfold roundDiv
  dsimp only
  split
  next hlt =>
    rw [compare_lt_iff_lt] at hlt
    omega
  next hgt =>
    rw [compare_gt_iff_gt] at hgt
    omega
  next heq =>
    rw [compare_eq_iff_eq] at heq
    simp [hodd, heq]

theorem even_le_roundDiv_iff {bound : Nat} (heven : bound % 2 = 0) (hbound : 0 < bound)
    (hden : 0 < den) : bound ≤ roundDiv num den ↔ (2 * bound - 1) * den ≤ 2 * num := by
  obtain ⟨hlow, hhigh⟩ := roundDiv_bounds num den
  have hsplit := Nat.div_add_mod num den
  have hrest := Nat.mod_lt num hden
  rcases lt_trichotomy bound (num / den + 1) with hbelow | heq | habove
  · refine iff_of_true (by omega) ?_
    calc (2 * bound - 1) * den ≤ 2 * (num / den) * den := by gcongr; omega
      _ ≤ 2 * num := by rw [Nat.mul_assoc]; gcongr; exact Nat.div_mul_le_self num den
  · have hodd : num / den % 2 = 1 := by omega
    have hup := roundDiv_eq_succ_iff hodd
    have hproduct : (2 * bound - 1) * den = 2 * (den * (num / den)) + den := by
      rw [heq, show 2 * (num / den + 1) - 1 = 2 * (num / den) + 1 by omega]
      ring
    rw [hproduct]
    omega
  · refine iff_of_false (by omega) ?_
    have hproduct : (2 * (num / den) + 3) * den ≤ (2 * bound - 1) * den := by gcongr; omega
    have hexpand : (2 * (num / den) + 3) * den = 2 * (den * (num / den)) + 3 * den := by ring
    omega

/-- With some binary places a quotient reaches a whole number if it lacks no more than half of the
last place. -/
theorem le_roundDiv_div_two_pow_iff {places whole : Nat} (hplaces : 0 < places) (hden : 0 < den)
    (hwhole : 0 < whole) : whole ≤ roundDiv (num * 2 ^ places) den / 2 ^ places ↔
      2 ^ (places + 1) * (whole * den) ≤ 2 ^ (places + 1) * num + den := by
  have hpower : 0 < 2 ^ places := Nat.two_pow_pos places
  have heven : whole * 2 ^ places % 2 = 0 := by
    obtain ⟨less, rfl⟩ := Nat.exists_eq_add_of_le' hplaces
    rw [Nat.pow_succ, ← Nat.mul_assoc, Nat.mul_mod_left]
  have hpos : 0 < whole * 2 ^ places := Nat.mul_pos hwhole hpower
  have hproduct : (2 * (whole * 2 ^ places) - 1) * den =
      2 ^ (places + 1) * (whole * den) - den := by
    rw [Nat.sub_mul, Nat.one_mul, Nat.pow_succ]
    congr 1
    ring
  have hnum : 2 * (num * 2 ^ places) = 2 ^ (places + 1) * num := by ring
  rw [Nat.le_div_iff_mul_le hpower, even_le_roundDiv_iff heven hpos hden, hproduct, hnum,
    Nat.sub_le_iff_le_add]

/-- The integral part of a quotient that is rounded to some binary places. -/
theorem roundDiv_div_two_pow {places : Nat} (hplaces : 0 < places) (hden : 0 < den) :
    roundDiv (num * 2 ^ places) den / 2 ^ places =
      num / den + if (den - num % den) * 2 ^ (places + 1) ≤ den then 1 else 0 := by
  have hsplit := Nat.div_add_mod num den
  have hrest := Nat.mod_lt num hden
  have hhere : num / den ≤ roundDiv (num * 2 ^ places) den / 2 ^ places := by
    rcases Nat.eq_zero_or_pos (num / den) with hzero | hpos
    · rw [hzero]
      exact Nat.zero_le _
    · refine (le_roundDiv_div_two_pow_iff hplaces hden hpos).mpr (Nat.le_add_right_of_le ?_)
      gcongr
      exact Nat.div_mul_le_self num den
  have hnext : num / den + 1 ≤ roundDiv (num * 2 ^ places) den / 2 ^ places ↔
      (den - num % den) * 2 ^ (places + 1) ≤ den := by
    have hlack : (num / den + 1) * den = num + (den - num % den) := by
      rw [Nat.add_mul, Nat.one_mul, Nat.mul_comm]
      omega
    rw [le_roundDiv_div_two_pow_iff hplaces hden (Nat.succ_pos _), hlack, Nat.mul_add,
      Nat.add_le_add_iff_left, Nat.mul_comm]
  have hlast : ¬ num / den + 2 ≤ roundDiv (num * 2 ^ places) den / 2 ^ places := by
    rw [le_roundDiv_div_two_pow_iff hplaces hden (Nat.succ_pos _), not_le]
    have hlack : num + den < (num / den + 2) * den := by
      rw [Nat.add_mul, Nat.mul_comm]
      omega
    calc 2 ^ (places + 1) * num + den
        ≤ 2 ^ (places + 1) * num + 2 ^ (places + 1) * den := by
          gcongr
          exact Nat.le_mul_of_pos_left den (Nat.two_pow_pos _)
      _ = 2 ^ (places + 1) * (num + den) := by ring
      _ < 2 ^ (places + 1) * ((num / den + 2) * den) := by gcongr
  split <;> omega

end Rounded

/-! ## Fractions of the last place -/

/-- A mantissa with its round and sticky bits that stands for a quotient. -/
structure Holds (extended : ExtendedMantissa) (num den : Nat) : Prop where
  mantissa : extended.mantissa = num / den
  accuracy : extended.accuracy = accuracyOfFraction (num % den) den

theorem accuracyOfFraction_eq_exact_iff {num den : Nat} :
    accuracyOfFraction num den = .exact ↔ num = 0 := by
  unfold accuracyOfFraction
  split <;> simp_all

theorem accuracy_eq_exact_iff {extended : ExtendedMantissa} :
    extended.accuracy = .exact ↔ (extended.roundBit || extended.stickyBit) = false := by
  obtain ⟨mantissa, round, sticky⟩ := extended
  cases round <;> cases sticky <;> simp [ExtendedMantissa.accuracy]

theorem holds_ofMantissaAndAccuracy (num den : Nat) :
    Holds (.ofMantissaAndAccuracy (num / den) (accuracyOfFraction (num % den) den)) num den := by
  generalize haccuracy : accuracyOfFraction (num % den) den = accuracy
  rcases accuracy with _ | _ | _ | _ <;> exact ⟨rfl, haccuracy.symm⟩

namespace Holds

variable {extended : ExtendedMantissa} {num den : Nat}

theorem shiftRightOne (h : Holds extended num den) (hden : 0 < den) :
    Holds extended.shiftRightOne num (den * 2) := by
  have hrest := Nat.mod_lt num hden
  have hsticky : (extended.roundBit || extended.stickyBit) = decide (num % den ≠ 0) := by
    rw [Bool.eq_iff_iff, decide_eq_true_iff, ← not_iff_not, Bool.not_eq_true,
      ← accuracy_eq_exact_iff, h.accuracy, accuracyOfFraction_eq_exact_iff, not_not]
  refine ⟨?_, ?_⟩
  · rw [← Nat.div_div_eq_div_mul, ← h.mantissa]
    rfl
  · have hmod : num % (den * 2) = num % den + den * (num / den % 2) := Nat.mod_mul
    unfold ExtendedMantissa.shiftRightOne
    rw [hsticky, h.mantissa, hmod]
    rcases Nat.mod_two_eq_zero_or_one (num / den) with heven | hodd
    · rw [heven, Nat.mul_zero, Nat.add_zero]
      by_cases hexact : num % den = 0
      · simp [hexact, accuracyOfFraction, ExtendedMantissa.accuracy]
      · have hbelow : compare (2 * (num % den)) (den * 2) = .lt :=
          compare_lt_iff_lt.mpr (by omega)
        simp [hexact, accuracyOfFraction, ExtendedMantissa.accuracy, hbelow]
    · rw [hodd, Nat.mul_one]
      by_cases hexact : num % den = 0
      · have hmiddle : compare (2 * den) (den * 2) = .eq :=
          compare_eq_iff_eq.mpr (Nat.mul_comm 2 den)
        simp [hexact, accuracyOfFraction, ExtendedMantissa.accuracy, hmiddle, hden.ne']
      · have habove : compare (2 * (num % den + den)) (den * 2) = .gt :=
          compare_gt_iff_gt.mpr (by omega)
        simp [hexact, accuracyOfFraction, ExtendedMantissa.accuracy, habove]

theorem shiftRight (h : Holds extended num den) (hden : 0 < den) (places : Nat) :
    Holds (extended >>> places) num (den * 2 ^ places) := by
  induction places with
  | zero => simpa [HShiftRight.hShiftRight, Nat.repeat] using h
  | succ places ih =>
      have hshifted := ih.shiftRightOne (Nat.mul_pos hden (Nat.two_pow_pos places))
      rwa [Nat.mul_assoc, ← Nat.pow_succ] at hshifted

theorem roundedMantissa_eq (h : Holds extended num den) (hden : 0 < den) :
    extended.roundedMantissa = roundDiv num den := by
  rw [ExtendedMantissa.roundedMantissa, h.mantissa, h.accuracy, accuracyOfFraction, roundDiv]
  by_cases hexact : num % den = 0
  · have hbelow : compare (2 * 0) den = .lt := compare_lt_iff_lt.mpr hden
    rw [if_pos hexact, hexact, hbelow]
    rfl
  · rw [if_neg hexact]
    cases compare (2 * (num % den)) den with
    | lt | gt => rfl
    | eq => rcases Nat.mod_two_eq_zero_or_one (num / den) with heven | hodd <;>
        simp [UnpackedFloat.Accuracy.roundToNearestEven, *]

end Holds

/-! ## Rounding to all places -/

/-- A float above zero with all its places that stands for a mantissa and an exponent, where the
mantissa may have been carried to one place more. -/
inductive Full : UnpackedFloat → Nat → Int → Prop
  | fits {mantissa : Nat} {exponent : Int} {hpos : 0 < mantissa} (hleast : 2 ^ 52 ≤ mantissa)
      (hfits : mantissa < 2 ^ 53) :
      Full (.finite .positive mantissa exponent hpos) mantissa exponent
  | carried {exponent : Int} :
      Full (.finite .positive (2 ^ 52) (exponent + 1) (by decide)) (2 ^ 53) exponent

theorem log2_eq_52 {mantissa : Nat} (hleast : 2 ^ 52 ≤ mantissa) (hfits : mantissa < 2 ^ 53) :
    mantissa.log2 = 52 :=
  (Nat.log2_eq_iff (by omega)).mpr ⟨hleast, hfits⟩

theorem shiftToTargetExponent_eq {mantissa : Nat} {exponent : Int}
    (accuracy : UnpackedFloat.Accuracy) (hlog : 52 ≤ mantissa.log2) (hleast : -1074 ≤ exponent) :
    UnpackedFloat.shiftToTargetExponent .binary64 mantissa exponent accuracy =
      (ExtendedMantissa.ofMantissaAndAccuracy mantissa accuracy >>> (mantissa.log2 - 52),
        exponent + (mantissa.log2 - 52 : Nat)) := by
  have htarget : Float.Model.Format.binary64.targetExponent
      (Float.Model.totalExponent mantissa exponent) = mantissa.log2 + exponent - 52 := by
    simp only [Float.Model.Format.targetExponent, Float.Model.totalExponent,
      Float.Model.Format.mantissaBits, Float.Model.Format.minExponent]
    omega
  have hplaces : (mantissa.log2 + exponent - 52 - exponent).toNat = mantissa.log2 - 52 := by omega
  rw [UnpackedFloat.shiftToTargetExponent, htarget, UnpackedFloat.shiftToExponent, hplaces]

theorem Full.of_eq {mantissa rounded : Nat} {exponent last : Int} {hpos : 0 < mantissa}
    (hcases : 2 ^ 52 ≤ rounded ∧ rounded < 2 ^ 53 ∧ mantissa = rounded ∧ last = exponent ∨
      rounded = 2 ^ 53 ∧ mantissa = 2 ^ 52 ∧ last = exponent + 1) :
    Full (.finite .positive mantissa last hpos) rounded exponent := by
  rcases hcases with ⟨hleast, hfits, rfl, rfl⟩ | ⟨rfl, rfl, rfl⟩
  · exact .fits hleast hfits
  · exact .carried

theorem full_shiftToTargetExponent {rounded : Nat} {exponent : Int} (hlow : 2 ^ 52 ≤ rounded)
    (hhigh : rounded ≤ 2 ^ 53) (hleast : -1074 ≤ exponent)
    (hpos : 0 < (UnpackedFloat.shiftToTargetExponent .binary64 rounded exponent .exact).1.mantissa) :
    Full (.finite .positive
        (UnpackedFloat.shiftToTargetExponent .binary64 rounded exponent .exact).1.mantissa
        (UnpackedFloat.shiftToTargetExponent .binary64 rounded exponent .exact).2 hpos)
      rounded exponent := by
  have hlog : 52 ≤ rounded.log2 := (Nat.le_log2 (by omega)).mpr hlow
  have hexact : (ExtendedMantissa.ofMantissaAndAccuracy rounded .exact).mantissa = rounded := rfl
  refine .of_eq ?_
  rw [shiftToTargetExponent_eq .exact hlog hleast, shiftRight_mantissa, hexact]
  rcases Nat.lt_or_eq_of_le hhigh with hfits | rfl
  · rw [log2_eq_52 hlow hfits]
    exact .inl ⟨hlow, hfits, Nat.div_one rounded, Int.add_zero exponent⟩
  · rw [Nat.log2_two_pow]
    exact .inr ⟨rfl, by decide, rfl⟩

/-- A quotient with at least as many places as a float has is rounded to all of them. -/
theorem full_roundWithAccuracy {num den : Nat} {exponent : Int} (hden : 0 < den)
    (hplaces : 2 ^ 52 ≤ num / den) (hleast : -1074 ≤ exponent) :
    ∃ shift : Nat,
      2 ^ 52 ≤ num / (den * 2 ^ shift) ∧ num / (den * 2 ^ shift) < 2 ^ 53 ∧
        Full (UnpackedFloat.roundWithAccuracy .binary64 .positive (num / den) exponent
            (accuracyOfFraction (num % den) den))
          (roundDiv num (den * 2 ^ shift)) (exponent + shift) := by
  have hlog : 52 ≤ (num / den).log2 := (Nat.le_log2 (by omega)).mpr hplaces
  obtain ⟨shift, hshift⟩ := Nat.exists_eq_add_of_le hlog
  have hbounds := (Nat.log2_eq_iff (by omega)).mp hshift
  have hpower := Nat.two_pow_pos shift
  have hden' : 0 < den * 2 ^ shift := Nat.mul_pos hden hpower
  have hlow : 2 ^ 52 ≤ num / (den * 2 ^ shift) := by
    rw [← Nat.div_div_eq_div_mul, Nat.le_div_iff_mul_le hpower, ← Nat.pow_add]
    exact hbounds.1
  have hhigh : num / (den * 2 ^ shift) < 2 ^ 53 := by
    rw [← Nat.div_div_eq_div_mul, Nat.div_lt_iff_lt_mul hpower, ← Nat.pow_add]
    exact hbounds.2.trans_eq (congrArg (2 ^ ·) (by omega))
  refine ⟨shift, hlow, hhigh, ?_⟩
  have hholds := (holds_ofMantissaAndAccuracy num den).shiftRight hden shift
  have hrounded := roundDiv_bounds num (den * 2 ^ shift)
  have hexponent : -1074 ≤ exponent + shift := by omega
  have hsecond : 0 < (UnpackedFloat.shiftToTargetExponent .binary64
      (roundDiv num (den * 2 ^ shift)) (exponent + shift) .exact).1.mantissa :=
    (shifted_bounds .exact (by omega) (by omega)).1
  unfold UnpackedFloat.roundWithAccuracy
  rw [shiftToTargetExponent_eq _ hlog hleast, hshift, Nat.add_sub_cancel_left]
  simp only [hholds.roundedMantissa_eq hden']
  rw [dif_neg hsecond.ne']
  exact full_shiftToTargetExponent (by omega) (by omega) hexponent hsecond

/-! ## Packing -/

theorem ofBitVec_toBitVec (sign : Sign) : Sign.ofBitVec sign.toBitVec = sign := by
  cases sign <;> rfl

theorem unpack_packComponents {exponent : BitVec 11} {places : BitVec 52} (sign : Sign)
    (hnumber : exponent ≠ -1#11) (hnormal : exponent ≠ 0#11) (hpos : 0 < (1#1 ++ places).toNat) :
    UnpackedFloat.unpack .binary64
        (UnpackedFloat.packComponents .binary64 sign exponent places) =
      .finite sign (1#1 ++ places).toNat (exponent.toNat - 1075) hpos := by
  unfold UnpackedFloat.unpack
  simp only [UnpackedFloat.unpackExponent_packComponents,
    UnpackedFloat.unpackMantissa_packComponents, UnpackedFloat.unpackSign_packComponents,
    ofBitVec_toBitVec]
  rw [if_neg hnumber, if_neg hnormal]
  rfl

/-- A mantissa that has all its places is packed and unpacked as it was. -/
theorem unpack_pack_finite {mantissa : Nat} {exponent : Int} (sign : Sign) (hpos : 0 < mantissa)
    (hleast : 2 ^ 52 ≤ mantissa) (hfits : mantissa < 2 ^ 53) (hlow : -1074 ≤ exponent)
    (hhigh : exponent ≤ 971) :
    (Float.Model.pack (.finite sign mantissa exponent hpos)).unpack =
      .finite sign mantissa exponent hpos := by
  change UnpackedFloat.unpack .binary64 (UnpackedFloat.pack .binary64 _) = _
  have hbiased : (exponent + ↑(2 ^ (11 - 1) - 1 : Nat) + (52 : Nat)).toNat =
      (exponent + 1075).toNat := by
    omega
  unfold UnpackedFloat.pack
  simp only [Float.Model.Format.exponentBias, Float.Model.Format.mantissaBits,
    log2_eq_52 hleast hfits, hbiased]
  rw [if_neg (by omega), if_pos trivial]
  generalize hexponent : BitVec.ofNat 11 (exponent + 1075).toNat = field
  have hfield : field.toNat = exponent + 1075 := by
    rw [← hexponent, BitVec.toNat_ofNat, Nat.mod_eq_of_lt (by omega)]
    omega
  have hmantissa : (1#1 ++ BitVec.ofNat 52 mantissa).toNat = mantissa := by
    rw [toNat_one_append, BitVec.toNat_ofNat]
    omega
  have hnumber : field ≠ -1#11 := by
    rintro rfl
    change ((2047 : Nat) : Int) = exponent + 1075 at hfield
    omega
  have hnormal : field ≠ 0#11 := by
    rintro rfl
    change ((0 : Nat) : Int) = exponent + 1075 at hfield
    omega
  have hpos' : 0 < (1#1 ++ BitVec.ofNat 52 mantissa).toNat := by
    rw [hmantissa]
    exact hpos
  rw [unpack_packComponents sign hnumber hnormal hpos']
  congr 1
  omega

/-! ## Bits -/

section Bits

variable (bits : UInt64)

theorem exponentBits_eq : ((bits >>> 52) &&& 0x7FF).toNat =
    (@UnpackedFloat.unpackExponent .binary64 bits.toBitVec).toNat := by
  have hmask : ∀ n : Nat, n &&& 2047 = n % 2 ^ 11 := fun n => Nat.and_two_pow_sub_one_eq_mod n 11
  simp [UnpackedFloat.unpackExponent, BitVec.extractLsb, hmask]

theorem mantissaBits_eq : (bits &&& 0xFFFFFFFFFFFFF).toNat =
    (@UnpackedFloat.unpackMantissa .binary64 bits.toBitVec).toNat := by
  have hmask : ∀ n : Nat, n &&& 4503599627370495 = n % 2 ^ 52 :=
    fun n => Nat.and_two_pow_sub_one_eq_mod n 52
  simp [UnpackedFloat.unpackMantissa, BitVec.extractLsb, hmask]

theorem signBit_eq : (bits >>> 63 == 1) = true ↔
    @UnpackedFloat.unpackSign .binary64 bits.toBitVec ≠ 0#1 := by
  have hbits : (bits >>> 63).toNat < 2 := by
    have hlt := bits.toNat_lt
    rw [UInt64.toNat_shiftRight]
    simp only [Nat.shiftRight_eq_div_pow]
    change bits.toNat / 2 ^ 63 < 2
    omega
  have hsign : (@UnpackedFloat.unpackSign .binary64 bits.toBitVec).toNat =
      (bits >>> 63).toNat := by
    rw [← Nat.mod_eq_of_lt hbits]
    simp [UnpackedFloat.unpackSign, BitVec.extractLsb]
  rw [beq_iff_eq, ← UInt64.toNat_inj, ne_eq, ← BitVec.toNat_inj, hsign]
  change _ = 1 ↔ ¬ _ = 0
  omega

end Bits

theorem ofBits_of_unpack {x : Float} {sign : Sign} {mantissa : Nat} {exponent : Int}
    {hpos : 0 < mantissa} (hx : x.toModel.unpack = .finite sign mantissa exponent hpos) :
    (Binary.ofBits x.toBits).significand = mantissa ∧
      (Binary.ofBits x.toBits).scale = exponent ∧ (isNegative x = true ↔ sign = .negative) := by
  change UnpackedFloat.unpack .binary64 x.toBits.toBitVec = _ at hx
  unfold Binary.ofBits isNegative
  rw [exponentBits_eq, mantissaBits_eq, signBit_eq]
  unfold UnpackedFloat.unpack at hx
  simp only [Float.Model.Format.exponentBias] at hx
  have hsign : ∀ b : BitVec 1, Sign.ofBitVec b = .negative ↔ b ≠ 0#1 := by
    intro b
    unfold Sign.ofBitVec
    split <;> simp_all
  split at hx
  next => split at hx <;> cases hx
  next =>
    split at hx
    next hleast =>
      split at hx
      next => cases hx
      next =>
        cases hx
        rw [hleast, ← hsign]
        exact ⟨rfl, rfl, Iff.rfl⟩
    next hnormal =>
      cases hx
      have hnonzero : (@UnpackedFloat.unpackExponent .binary64 x.toBits.toBitVec).toNat ≠ 0 :=
        fun hzero => hnormal (BitVec.eq_of_toNat_eq hzero)
      simp only [beq_eq_false_iff_ne.mpr hnonzero, hsign, toNat_one_append]
      exact ⟨rfl, rfl, trivial⟩

/-! ## Division -/

namespace Full

variable {unpacked : UnpackedFloat} {mantissa : Nat} {exponent : Int}

theorem unpack_pack (h : Full unpacked mantissa exponent) (hlow : -1074 ≤ exponent)
    (hhigh : exponent ≤ 970) : (Float.Model.pack unpacked).unpack = unpacked := by
  cases h with
  | fits hleast hfits => exact unpack_pack_finite _ _ hleast hfits hlow (by omega)
  | carried => exact unpack_pack_finite _ _ (by decide) (by decide) (by omega) (by omega)

theorem exists_finite (h : Full unpacked mantissa exponent) :
    ∃ mantissa exponent hpos, unpacked = .finite .positive mantissa exponent hpos := by
  cases h with
  | fits | carried => exact ⟨_, _, _, rfl⟩

theorem not_isNegative {x : Float} (h : Full x.toModel.unpack mantissa exponent) :
    isNegative x = false := by
  obtain ⟨_, _, _, hx⟩ := h.exists_finite
  have hsign := (ofBits_of_unpack hx).2.2
  simpa using hsign

theorem unpack_pack_neg (h : Full unpacked mantissa exponent) (hlow : -1074 ≤ exponent)
    (hhigh : exponent ≤ 970) : (Float.Model.pack unpacked.neg).unpack = unpacked.neg := by
  cases h with
  | fits hleast hfits => exact unpack_pack_finite _ _ hleast hfits hlow (by omega)
  | carried => exact unpack_pack_finite _ _ (by decide) (by decide) (by omega) (by omega)

theorem isNegative_neg {x : Float} (h : Full x.toModel.unpack mantissa exponent)
    (hlow : -1074 ≤ exponent) (hhigh : exponent ≤ 970) : isNegative (-x) = true := by
  obtain ⟨_, _, _, hx⟩ := h.exists_finite
  have hneg : (-x).toModel.unpack = x.toModel.unpack.neg := h.unpack_pack_neg hlow hhigh
  rw [hx] at hneg
  exact (ofBits_of_unpack hneg).2.2.mpr rfl

/-- The integral part of a float with places behind the point. -/
theorem integralPart_eq {x : Float} {places : Nat}
    (h : Full x.toModel.unpack mantissa (-places)) (hplaces : 0 < places) :
    (Binary.ofBits x.toBits).integralPart = mantissa / 2 ^ places := by
  generalize hx : x.toModel.unpack = unpacked at h
  generalize hexponent : (-places : Int) = exponent at h
  cases h with
  | fits =>
      obtain ⟨hmantissa, hscale, -⟩ := ofBits_of_unpack hx
      have hwhole : (-places : Int).toNat = 0 := by omega
      have hbehind : (-(-places : Int)).toNat = places := by omega
      simp [Binary.integralPart, Binary.times, hmantissa, hscale, ← hexponent, hwhole]
  | carried =>
      obtain ⟨less, rfl⟩ := Nat.exists_eq_add_of_le' hplaces
      obtain ⟨hmantissa, hscale, -⟩ := ofBits_of_unpack hx
      have hwhole : (exponent + 1).toNat = 0 := by omega
      have hbehind : (-(exponent + 1)).toNat = less := by omega
      have hpower := Nat.mul_div_mul_right (2 ^ 52) (2 ^ less) (by decide : 0 < 2)
      simp only [Binary.integralPart, Binary.times, hmantissa, hscale, hwhole, hbehind]
      exact hpower.symm

end Full

section Division

variable {mantissa mantissa' : Nat} {exponent exponent' : Int} {lift : Nat}

theorem div_finite (hpos : 0 < mantissa) (hpos' : 0 < mantissa')
    (hlift : mantissa.log2 + lift = mantissa'.log2 + 53)
    (hleast : -1074 ≤ exponent - exponent' - lift) :
    UnpackedFloat.div .binary64 (.finite .positive mantissa exponent hpos)
        (.finite .positive mantissa' exponent' hpos') =
      UnpackedFloat.roundWithAccuracy .binary64 .positive (mantissa * 2 ^ lift / mantissa')
        (exponent - exponent' - lift)
        (accuracyOfFraction (mantissa * 2 ^ lift % mantissa') mantissa') := by
  have htarget : min (exponent - exponent') (Float.Model.Format.binary64.targetExponent
      (Float.Model.totalExponent mantissa exponent -
        Float.Model.totalExponent mantissa' exponent')) = exponent - exponent' - lift := by
    simp only [Float.Model.Format.targetExponent, Float.Model.totalExponent,
      Float.Model.Format.mantissaBits, Float.Model.Format.minExponent]
    omega
  have hplaces : (exponent - exponent' - (exponent - exponent' - lift)).toNat = lift := by omega
  simp only [UnpackedFloat.div, UnpackedFloat.divCore, htarget, hplaces, Nat.shiftLeft_eq]
  rfl

/-- A numerator that is lifted by so many places has a quotient of 53 or 54 places. -/
theorem quotient_bounds (hpos : 0 < mantissa) (hpos' : 0 < mantissa')
    (hlift : mantissa.log2 + lift = mantissa'.log2 + 53) :
    2 ^ 52 * mantissa' ≤ mantissa * 2 ^ lift ∧ mantissa * 2 ^ lift < 2 ^ 54 * mantissa' := by
  have hproduct : 0 < mantissa * 2 ^ lift := by positivity
  have hbounds := (Nat.log2_eq_iff hproduct.ne').mp ((log2_mul_two_pow hpos lift).trans hlift)
  have hbounds' := (Nat.log2_eq_iff hpos'.ne').mp rfl
  rw [Nat.add_assoc, Nat.pow_add, Nat.pow_add] at hbounds
  rw [Nat.pow_succ] at hbounds'
  omega

/-- A quotient of floats above zero is rounded once. -/
theorem full_div_finite (hpos : 0 < mantissa) (hpos' : 0 < mantissa')
    (hlift : mantissa.log2 + lift = mantissa'.log2 + 53)
    (hleast : -1074 ≤ exponent - exponent' - lift) :
    ∃ shift : Nat, shift ≤ 1 ∧ 2 ^ 52 ≤ mantissa * 2 ^ lift / (mantissa' * 2 ^ shift) ∧
      mantissa * 2 ^ lift / (mantissa' * 2 ^ shift) < 2 ^ 53 ∧
      Full (UnpackedFloat.div .binary64 (.finite .positive mantissa exponent hpos)
          (.finite .positive mantissa' exponent' hpos'))
        (roundDiv (mantissa * 2 ^ lift) (mantissa' * 2 ^ shift))
        (exponent - exponent' - lift + shift) := by
  obtain ⟨hlow, hhigh⟩ := quotient_bounds hpos hpos' hlift
  obtain ⟨shift, hleast', hless, hfull⟩ :=
    full_roundWithAccuracy hpos' ((Nat.le_div_iff_mul_le hpos').mpr hlow) hleast
  rw [← div_finite hpos hpos' hlift hleast] at hfull
  refine ⟨shift, ?_, hleast', hless, hfull⟩
  by_contra hshift
  have hpower : 2 ^ 2 ≤ 2 ^ shift := Nat.pow_le_pow_right (by decide) (by omega)
  rw [Nat.le_div_iff_mul_le (by positivity)] at hleast'
  have hcontra : 2 ^ 52 * (mantissa' * 2 ^ 2) ≤ mantissa * 2 ^ lift := hleast'.trans' (by gcongr)
  omega

end Division

/-- Whole numbers, with mantissas shifted at will, are divided with one rounding of their
quotient. -/
theorem full_div {num den i j : Nat} (hpos : 0 < num * 2 ^ i) (hpos' : 0 < den * 2 ^ j)
    (hlow : num.log2 + i ≤ den.log2 + j + 53) (hhigh : num.log2 ≤ den.log2 + 52)
    (hleast : den.log2 ≤ num.log2 + 1000) :
    ∃ places : Nat, 2 ^ 52 ≤ num * 2 ^ places / den ∧ num * 2 ^ places / den < 2 ^ 53 ∧
      Full (UnpackedFloat.div .binary64 (.finite .positive (num * 2 ^ i) (-i) hpos)
          (.finite .positive (den * 2 ^ j) (-j) hpos'))
        (roundDiv (num * 2 ^ places) den) (-places) := by
  have hnum : 0 < num := Nat.pos_of_mul_pos_right hpos
  have hden : 0 < den := Nat.pos_of_mul_pos_right hpos'
  obtain ⟨lift, hlift⟩ := Nat.exists_eq_add_of_le hlow
  have hlift' : (num * 2 ^ i).log2 + lift = (den * 2 ^ j).log2 + 53 := by
    rw [log2_mul_two_pow hnum, log2_mul_two_pow hden]
    omega
  have hexponent : (-1074 : Int) ≤ -i - -j - lift := by omega
  obtain ⟨shift, hshift, hleast', hless, hfull⟩ := full_div_finite hpos hpos' hlift' hexponent
  obtain ⟨places, hplaces⟩ : ∃ places, i + lift = places + (j + shift) :=
    ⟨_, (Nat.sub_add_cancel (by omega)).symm⟩
  have hnum' : num * 2 ^ i * 2 ^ lift = num * 2 ^ places * 2 ^ (j + shift) := by
    rw [Nat.mul_assoc, ← Nat.pow_add, hplaces, Nat.pow_add, ← Nat.mul_assoc]
  have hden' : den * 2 ^ j * 2 ^ shift = den * 2 ^ (j + shift) := by
    rw [Nat.mul_assoc, ← Nat.pow_add]
  have hplaces' : (-i - -j - lift + shift : Int) = -places := by omega
  have hpower := Nat.two_pow_pos (j + shift)
  rw [hnum', hden', Nat.mul_div_mul_right _ _ hpower] at hleast' hless
  rw [hnum', hden', roundDiv_mul hpower, hplaces'] at hfull
  exact ⟨places, hleast', hless, hfull⟩

/-! ## Whole numbers -/

theorem Full.eq_finite {unpacked : UnpackedFloat} {mantissa : Nat} {exponent : Int}
    (h : Full unpacked mantissa exponent) (hfits : mantissa < 2 ^ 53) (hpos : 0 < mantissa) :
    unpacked = .finite .positive mantissa exponent hpos := by
  cases h with
  | fits => rfl
  | carried => exact absurd hfits (lt_irrefl _)

/-- A mantissa that has all its places is not rounded. -/
theorem roundWithAccuracy_exact {mantissa : Nat} {exponent : Int} (hleast : 2 ^ 52 ≤ mantissa)
    (hfits : mantissa < 2 ^ 53) (hexponent : -1074 ≤ exponent) (hpos : 0 < mantissa) :
    UnpackedFloat.roundWithAccuracy .binary64 .positive mantissa exponent .exact =
      .finite .positive mantissa exponent hpos := by
  obtain ⟨shift, hleast', -, hfull⟩ :=
    full_roundWithAccuracy Nat.one_pos ((Nat.div_one mantissa).symm ▸ hleast) hexponent
  have hexact : accuracyOfFraction (mantissa % 1) 1 = .exact :=
    accuracyOfFraction_eq_exact_iff.mpr (Nat.mod_one mantissa)
  rw [hexact, Nat.div_one, Nat.one_mul] at hfull
  cases shift with
  | zero =>
      rw [Nat.pow_zero, roundDiv_one, Int.natCast_zero, Int.add_zero] at hfull
      exact hfull.eq_finite hfits hpos
  | succ shift =>
      have hpower : 2 ≤ 1 * 2 ^ (shift + 1) := by
        rw [Nat.one_mul, Nat.pow_succ]
        exact Nat.le_mul_of_pos_left 2 (Nat.two_pow_pos shift)
      have hless := Nat.div_le_div_left hpower (by decide : 0 < 2) (a := mantissa)
      omega

theorem unpack_toFloat {n : UInt64} (hpos : 0 < n.toNat) (hfits : n.toNat < 2 ^ 53) :
    n.toFloat.toModel.unpack = .finite .positive (n.toNat * 2 ^ (52 - n.toNat.log2))
      (-(52 - n.toNat.log2 : Nat)) (Nat.mul_pos hpos (Nat.two_pow_pos _)) := by
  change (Float.Model.pack (UnpackedFloat.ofNat .binary64 n.toNat)).unpack = _
  generalize n.toNat = n at hpos hfits
  have hlog : n.log2 < 53 := (Nat.log2_lt hpos.ne').mpr hfits
  have hlifted := log2_mul_two_pow hpos (52 - n.log2)
  have hbounds := (Nat.log2_eq_iff (Nat.mul_pos hpos (Nat.two_pow_pos _)).ne').mp hlifted
  rw [Nat.add_sub_of_le (Nat.le_of_lt_succ hlog)] at hbounds
  have htarget : (-Float.Model.Format.binary64.targetExponent
      (Float.Model.totalExponent n 0)).toNat = 52 - n.log2 := by
    simp only [Float.Model.Format.targetExponent, Float.Model.totalExponent,
      Float.Model.Format.mantissaBits, Float.Model.Format.minExponent]
    omega
  unfold UnpackedFloat.ofNat UnpackedFloat.ofInt UnpackedFloat.normalize
  rw [Int.compare_eq_gt.mpr (by omega)]
  unfold UnpackedFloat.round UnpackedFloat.decreaseExponent
  simp only [Int.toNat_natCast, Nat.shiftLeft_eq, Int.zero_sub, htarget]
  rw [roundWithAccuracy_exact hbounds.1 hbounds.2 (by omega)]
  exact unpack_pack_finite _ _ hbounds.1 hbounds.2 (by omega) (by omega)

section Millionths

variable {n : Nat}

theorem exists_quotient (hpos : 0 < n) (hlt : n < 2 ^ 72) :
    ∃ quotient, (Float.ofScientific n true 6).toModel = Float.Model.pack quotient ∧
      ∃ places : Nat, 2 ^ 52 ≤ n * 2 ^ places / 10 ^ 6 ∧ n * 2 ^ places / 10 ^ 6 < 2 ^ 53 ∧
        Full quotient (roundDiv (n * 2 ^ places) (10 ^ 6)) (-places) := by
  have hlog : n.log2 < 72 := (Nat.log2_lt hpos.ne').mpr hlt
  have hmillion : Nat.log2 (10 ^ 6) = 19 := by decide
  unfold Float.ofScientific
  split
  -- numbers that a float holds exactly take a path of their own
  next hsmall =>
    refine ⟨_, rfl, ?_⟩
    have hsame : n.toUInt64.toNat = n := Nat.mod_eq_of_lt (hsmall.1.trans (by decide))
    have hnum := unpack_toFloat (n := n.toUInt64) (by omega) (by omega)
    have hden : (Float.exactlyRepresentablePowersOfTen[6]).toModel.unpack =
        .finite .positive (10 ^ 6 * 2 ^ 33) (-(33 : Nat)) (by decide) := rfl
    simp only [hsame] at hnum
    rw [hnum, hden]
    exact full_div _ _ (by omega) (by omega) (by omega)
  next =>
    refine ⟨_, rfl, ?_⟩
    have hdivision : UnpackedFloat.ofScientific .binary64 n (Int.negOfNat 6) =
        UnpackedFloat.div .binary64
          (.finite .positive (n * 2 ^ 0) (-(0 : Nat)) (Nat.mul_pos hpos Nat.one_pos))
          (.finite .positive (10 ^ 6 * 2 ^ 0) (-(0 : Nat)) (by decide)) := by
      have hrange : ¬ Int.negOfNat 6 < -(2 ^ 11 + (n.log2 : Int)) := by
        change ¬ (-6 : Int) < _
        omega
      unfold UnpackedFloat.ofScientific
      rw [dif_neg hpos.ne', if_neg (by decide), if_neg hrange, if_neg (by decide)]
      simp only [Nat.pow_zero, Nat.mul_one]
      rfl
    simp only [if_true, hdivision]
    exact full_div _ _ (by omega) (by omega) (by omega)

/-- A number of millionths becomes a float in one rounding. -/
theorem full_ofScientific (hpos : 0 < n) (hlt : n < 2 ^ 72) :
    ∃ places : Nat, places < 74 ∧
      2 ^ 52 ≤ n * 2 ^ places / 10 ^ 6 ∧ n * 2 ^ places / 10 ^ 6 < 2 ^ 53 ∧
      Full (Float.ofScientific n true 6).toModel.unpack (roundDiv (n * 2 ^ places) (10 ^ 6))
        (-places) := by
  obtain ⟨quotient, hquotient, places, hlow, hhigh, hfull⟩ := exists_quotient hpos hlt
  have hplaces : 2 ^ places < 2 ^ 74 := by
    have hproduct := Nat.le_mul_of_pos_left (2 ^ places) hpos
    omega
  rw [Nat.pow_lt_pow_iff_right (by decide)] at hplaces
  refine ⟨places, hplaces, hlow, hhigh, ?_⟩
  rwa [hquotient, hfull.unpack_pack (by omega) (by omega)]

end Millionths

end OneShot.Decimal
