import OneShot.Decimal.Quantity
import Mathlib

/-!
# Floats as extended reals

A float stands for a real number, for one of the infinities, or for no number at all.  Floats are
compared as what they stand for, and no comparison holds of one that stands for nothing.  Sums of
numbers are numbers unless infinities meet, and so is everything that is read from a text, except
for the word that says that it is no number.
-/

namespace OneShot.Decimal

open Float.Model (UnpackedFloat)
open Float.Model.UnpackedFloat (Sign)

/-! ## Mantissas and exponents -/

/-- A mantissa and an exponent as floats have them: the mantissa fills its places unless the
exponent is the least one. -/
structure Canonical (mantissa : Nat) (exponent : Int) : Prop where
  least : -1074 ≤ exponent
  fits : mantissa < 2 ^ 53
  full : -1074 < exponent → 2 ^ 52 ≤ mantissa

/-- A mantissa with its leading place in front. -/
theorem toNat_one_append (places : BitVec 52) :
    (1#1 ++ places).toNat = 2 ^ 52 + places.toNat := by
  rw [BitVec.toNat_append, ← Nat.shiftLeft_add_eq_or_of_lt places.isLt]
  rfl

theorem canonical_of_unpack {bits : Float.Model} {sign : Sign} {mantissa : Nat} {exponent : Int}
    {hpos : 0 < mantissa} (hbits : bits.unpack = .finite sign mantissa exponent hpos) :
    Canonical mantissa exponent := by
  unfold Float.Model.unpack UnpackedFloat.unpack at hbits
  simp only [Float.Model.Format.exponentBias] at hbits
  have hplaces : (@UnpackedFloat.unpackMantissa .binary64 bits.toBits.toBitVec).toNat < 2 ^ 52 :=
    BitVec.isLt _
  split at hbits
  next => split at hbits <;> cases hbits
  next =>
    split at hbits
    next hleast =>
      split at hbits
      next => cases hbits
      next =>
        cases hbits
        rw [hleast]
        exact ⟨by decide, hplaces.trans (by decide), fun hlt => absurd hlt (by decide)⟩
    next hnormal =>
      cases hbits
      have hexponent :
          0 < (@UnpackedFloat.unpackExponent .binary64 bits.toBits.toBitVec).toNat := by
        simpa [BitVec.toNat_pos, BitVec.pos_iff_ne_zero] using hnormal
      rw [toNat_one_append]
      constructor <;> omega

/-- The real number of a mantissa and an exponent. -/
noncomputable def magnitude (mantissa : Nat) (exponent : Int) : ℝ :=
  mantissa * 2 ^ exponent

section Magnitudes

variable {mantissa mantissa' : Nat} {exponent exponent' : Int}

theorem magnitude_pos (hpos : 0 < mantissa) : 0 < magnitude mantissa exponent := by
  have hcast : (0 : ℝ) < mantissa := by exact_mod_cast hpos
  exact mul_pos hcast (by positivity)

theorem Canonical.magnitude_lt (h : Canonical mantissa exponent)
    (h' : Canonical mantissa' exponent') (hlt : exponent < exponent') :
    magnitude mantissa exponent < magnitude mantissa' exponent' := by
  have hfits : (mantissa : ℝ) < 2 ^ 53 := by exact_mod_cast h.fits
  have hfull : (2 ^ 52 : ℝ) ≤ mantissa' := by exact_mod_cast h'.full (h.least.trans_lt hlt)
  calc (mantissa * 2 ^ exponent : ℝ) < 2 ^ 53 * 2 ^ exponent := by gcongr
    _ = 2 ^ 52 * 2 ^ (exponent + 1) := by rw [zpow_add_one₀ two_ne_zero]; ring
    _ ≤ mantissa' * 2 ^ exponent' := by
      gcongr
      · exact one_le_two
      · exact hlt

/-- Canonical numbers are compared by their exponents first. -/
theorem Canonical.compare_magnitude (h : Canonical mantissa exponent)
    (h' : Canonical mantissa' exponent') :
    compare (magnitude mantissa exponent) (magnitude mantissa' exponent') =
      (compare exponent exponent').then (compare mantissa mantissa') := by
  rcases lt_trichotomy exponent exponent' with hlt | rfl | hgt
  · rw [compare_lt_iff_lt.mpr hlt, compare_lt_iff_lt.mpr (h.magnitude_lt h' hlt)]
    rfl
  · have hmono : StrictMono fun mantissa : Nat => magnitude mantissa exponent := by
      intro first second hlt
      have hcast : (first : ℝ) < second := by exact_mod_cast hlt
      exact mul_lt_mul_of_pos_right hcast (by positivity)
    rw [compare_eq_iff_eq.mpr rfl, Ordering.eq_then, ← cmp_eq_compare, ← cmp_eq_compare]
    exact hmono.cmp_map_eq mantissa mantissa'
  · rw [compare_gt_iff_gt.mpr hgt, compare_gt_iff_gt.mpr (h'.magnitude_lt h hgt)]
    rfl

end Magnitudes

/-! ## What floats stand for -/

/-- What an unpacked float stands for. -/
noncomputable def unpackedValue? : UnpackedFloat → Option EReal
  | .notANumber => none
  | .infinity .positive => some ⊤
  | .infinity .negative => some ⊥
  | .zero _ => some (0 : ℝ)
  | .finite .positive mantissa exponent _ => some (magnitude mantissa exponent)
  | .finite .negative mantissa exponent _ => some (-magnitude mantissa exponent : ℝ)

/-- The real number or the infinity that a float stands for, if it stands for one. -/
noncomputable def value? (x : Float) : Option EReal :=
  unpackedValue? x.toModel.unpack

/-! ## Comparisons -/

theorem compare_coe (x y : ℝ) : compare (x : EReal) (y : EReal) = compare x y := by
  rw [← cmp_eq_compare, ← cmp_eq_compare]
  exact EReal.coe_strictMono.cmp_map_eq x y

theorem compare_neg (x y : ℝ) : compare (-x) (-y) = (compare x y).swap := by
  rw [← cmp_eq_compare, ← cmp_eq_compare, cmp_swap]
  have hanti : StrictAnti fun x : ℝ => -x := fun _ _ => neg_lt_neg
  exact hanti.cmp_map_eq x y

/-- In canonical form floats are compared as what they stand for. -/
theorem unpacked_compare {first second : UnpackedFloat}
    (hfirst : ∀ sign mantissa exponent hpos, first = .finite sign mantissa exponent hpos →
      Canonical mantissa exponent)
    (hsecond : ∀ sign mantissa exponent hpos, second = .finite sign mantissa exponent hpos →
      Canonical mantissa exponent) :
    first.compare second =
      (unpackedValue? first).bind fun x => (unpackedValue? second).map fun y => compare x y := by
  rcases first with (_ | _) | _ | _ | ⟨_ | _, mantissa, exponent, hpos⟩ <;>
    rcases second with (_ | _) | _ | _ | ⟨_ | _, mantissa', exponent', hpos'⟩ <;>
    simp only [unpackedValue?, UnpackedFloat.compare, Option.bind_some, Option.bind_none,
      Option.map_some, Option.map_none, Option.some.injEq, compare_coe, compare_neg]
  case finite.positive.finite.positive =>
    exact ((hfirst _ _ _ _ rfl).compare_magnitude (hsecond _ _ _ _ rfl)).symm
  case finite.negative.finite.negative =>
    rw [(hfirst _ _ _ _ rfl).compare_magnitude (hsecond _ _ _ _ rfl)]
  case finite.negative.finite.positive =>
    exact (compare_lt_iff_lt.mpr
      ((neg_neg_of_pos (magnitude_pos hpos)).trans (magnitude_pos hpos'))).symm
  case finite.positive.finite.negative =>
    exact (compare_gt_iff_gt.mpr
      ((neg_neg_of_pos (magnitude_pos hpos')).trans (magnitude_pos hpos))).symm
  case zero.finite.negative =>
    exact (compare_gt_iff_gt.mpr (neg_neg_of_pos (magnitude_pos hpos'))).symm
  case zero.finite.positive => exact (compare_lt_iff_lt.mpr (magnitude_pos hpos')).symm
  case finite.negative.zero =>
    exact (compare_lt_iff_lt.mpr (neg_neg_of_pos (magnitude_pos hpos))).symm
  case finite.positive.zero => exact (compare_gt_iff_gt.mpr (magnitude_pos hpos)).symm
  -- what is left has an infinity on one side, or zeros on both
  all_goals
    first
    | exact (compare_lt_iff_lt.mpr
        (by simp only [EReal.bot_lt_coe, EReal.coe_lt_top, bot_lt_top])).symm
    | exact (compare_gt_iff_gt.mpr
        (by simp only [EReal.bot_lt_coe, EReal.coe_lt_top, bot_lt_top])).symm
    | exact (compare_eq_iff_eq.mpr rfl).symm

theorem compare_eq (x y : Float) :
    x.toModel.compare y.toModel =
      (value? x).bind fun first => (value? y).map fun second => compare first second :=
  unpacked_compare (fun _ _ _ _ => canonical_of_unpack) (fun _ _ _ _ => canonical_of_unpack)

section Comparisons

variable {x y : Float}

theorem lt_iff_compare : x < y ↔ x.toModel.compare y.toModel = some .lt :=
  decide_eq_true_iff.trans beq_iff_eq

theorem le_iff_compare :
    x ≤ y ↔ (x.toModel.compare y.toModel).any Ordering.isLE = true :=
  decide_eq_true_iff

theorem beq_iff_compare : (x == y) = true ↔ x.toModel.compare y.toModel = some .eq := by
  change (x.toModel.compare y.toModel == some .eq) = true ↔ _
  exact beq_iff_eq

theorem lt_iff : x < y ↔ ∃ a ∈ value? x, ∃ b ∈ value? y, a < b := by
  rw [lt_iff_compare, compare_eq]
  cases value? x <;> cases value? y <;> simp [compare_lt_iff_lt]

theorem le_iff : x ≤ y ↔ ∃ a ∈ value? x, ∃ b ∈ value? y, a ≤ b := by
  rw [le_iff_compare, compare_eq]
  cases value? x <;> cases value? y <;> simp [← Ordering.ne_gt_iff_isLE, compare_gt_iff_gt]

theorem beq_iff : (x == y) = true ↔ ∃ a ∈ value? x, ∃ b ∈ value? y, a = b := by
  rw [beq_iff_compare, compare_eq]
  cases value? x with
  | none => simp
  | some a =>
      cases value? y with
      | none => simp
      | some b =>
          rw [Option.bind_some, Option.map_some, Option.some.injEq, compare_eq_iff_eq]
          simp [eq_comm]

theorem not_lt_iff : ¬ x < y ↔ ∀ a ∈ value? x, ∀ b ∈ value? y, b ≤ a := by
  simp [lt_iff]

theorem not_le_iff : ¬ x ≤ y ↔ ∀ a ∈ value? x, ∀ b ∈ value? y, b < a := by
  simp [le_iff]

end Comparisons

theorem value?_zero : value? 0 = some 0 := rfl

theorem value?_zeroPointZero : value? 0.0 = some 0 := rfl

theorem pos_of_not_le_zero {x : Float} (hx : ¬ x ≤ 0) : ∀ a ∈ value? x, 0 < a :=
  fun a ha => not_le_iff.mp hx a ha 0 value?_zero

/-! ## Numbers and sums of numbers -/

theorem value?_isSome_iff (x : Float) : (value? x).isSome = true ↔ x.isNaN = false := by
  change (unpackedValue? x.toModel.unpack).isSome = true ↔ x.toModel.unpack.isNaN = false
  rcases x.toModel.unpack with (_ | _) | _ | _ | ⟨_ | _, mantissa, exponent, hpos⟩ <;>
    simp [unpackedValue?, UnpackedFloat.isNaN]

theorem exists_value {x : Float} (hx : x.isNaN = false) : ∃ a, value? x = some a :=
  Option.isSome_iff_exists.mp ((value?_isSome_iff x).mpr hx)

theorem isNaN_of_value {x : Float} {a : EReal} (ha : a ∈ value? x) : x.isNaN = false :=
  (value?_isSome_iff x).mp (Option.isSome_iff_exists.mpr ⟨a, ha⟩)

/-- Numbers are in order. -/
theorem le_or_lt {x y : Float} (hx : x.isNaN = false) (hy : y.isNaN = false) : x ≤ y ∨ y < x := by
  obtain ⟨a, ha⟩ := exists_value hx
  obtain ⟨b, hb⟩ := exists_value hy
  rw [le_iff, lt_iff, ha, hb]
  simpa using le_or_gt a b

theorem isNaN_of_isFinite {x : Float} (hfinite : x.isFinite = true) : x.isNaN = false := by
  change x.toModel.unpack.isFinite = true at hfinite
  change x.toModel.unpack.isNaN = false
  cases hunpack : x.toModel.unpack with
  | notANumber => rw [hunpack] at hfinite; cases hfinite
  | infinity | zero | finite => rfl

theorem isNaN_unpack (bits : BitVec Float.Model.Format.binary64.numBits) :
    (UnpackedFloat.unpack Float.Model.Format.binary64 bits).isNaN = true ↔
      UnpackedFloat.unpackExponent bits = -1#11 ∧ UnpackedFloat.unpackMantissa bits ≠ 0#52 := by
  unfold UnpackedFloat.unpack
  simp only
  split
  next hexponent => split <;> simp_all [UnpackedFloat.isNaN]
  next hexponent =>
    split
    next => split <;> simp_all [UnpackedFloat.isNaN]
    next => simp_all [UnpackedFloat.isNaN]

/-- Packing keeps whether something is a number. -/
theorem isNaN_pack (unpacked : UnpackedFloat) :
    (Float.ofModel (Float.Model.pack unpacked)).isNaN = unpacked.isNaN := by
  rw [Bool.eq_iff_iff]
  change (UnpackedFloat.unpack Float.Model.Format.binary64
    (UnpackedFloat.pack Float.Model.Format.binary64 unpacked)).isNaN = true ↔ _
  rw [isNaN_unpack]
  fun_cases UnpackedFloat.pack Float.Model.Format.binary64 unpacked with
  | case1 => simp [UnpackedFloat.isNaN, UnpackedFloat.packedNaN]
  | case2 s => simp [UnpackedFloat.isNaN, UnpackedFloat.packedInfinity]
  | case3 s => simp [UnpackedFloat.isNaN, UnpackedFloat.packedZero]
  | case4 => simp [UnpackedFloat.isNaN, UnpackedFloat.packedInfinity]
  | case5 sign mantissa exponent hpos places biased hrange =>
      have hlt : biased + 1 < 2 ^ 11 := Nat.lt_of_not_le hrange
      have hbiased : BitVec.ofNat 11 biased ≠ 2047#11 := by
        intro heq
        have hnat := congrArg BitVec.toNat heq
        rw [BitVec.toNat_ofNat, Nat.mod_eq_of_lt (by omega)] at hnat
        change biased = 2047 at hnat
        omega
      simp [UnpackedFloat.isNaN, hbiased]
  | case6 => simp [UnpackedFloat.isNaN]

/-- Whatever is rounded is a number. -/
theorem roundWithAccuracy_isNaN (format : Float.Model.Format) (sign : Sign) (mantissa : Nat)
    (exponent : Int) (accuracy : UnpackedFloat.Accuracy) :
    (UnpackedFloat.roundWithAccuracy format sign mantissa exponent accuracy).isNaN = false := by
  unfold UnpackedFloat.roundWithAccuracy
  simp only
  split <;> rfl

theorem isNaN_neg (x : Float) : (-x).isNaN = x.isNaN := by
  change (Float.ofModel (Float.Model.pack x.toModel.unpack.neg)).isNaN = x.toModel.unpack.isNaN
  rw [isNaN_pack]
  cases x.toModel.unpack <;> rfl

theorem normalize_isNaN (format : Float.Model.Format) (mantissa exponent : Int) (sign : Sign) :
    (UnpackedFloat.normalize format mantissa exponent sign).isNaN = false := by
  unfold UnpackedFloat.normalize
  split
  · exact roundWithAccuracy_isNaN ..
  · rfl
  · exact roundWithAccuracy_isNaN ..

/-- A sum is a number if both are, unless they are infinities of different signs. -/
theorem unpacked_add_isNaN {first second : UnpackedFloat} (hfirst : first.isNaN = false)
    (hsecond : second.isNaN = false) (hsum : first.isFinite = true ∨ first = second) :
    (UnpackedFloat.add .binary64 first second).isNaN = false := by
  cases first with
  | notANumber => cases hfirst
  | infinity sign =>
      obtain hfinite | rfl := hsum
      · cases hfinite
      · cases sign <;> rfl
  | zero sign =>
      cases second with
      | notANumber => cases hsecond
      | infinity | finite => rfl
      | zero sign' => cases sign <;> cases sign' <;> rfl
  | finite =>
      cases second with
      | notANumber => cases hsecond
      | infinity | zero => rfl
      | finite => exact normalize_isNaN ..

theorem isNaN_add {x y : Float} (hx : x.isNaN = false) (hy : y.isNaN = false)
    (hsum : x.isFinite = true ∨ x = y) : (x + y).isNaN = false :=
  (isNaN_pack _).trans
    (unpacked_add_isNaN hx hy (hsum.imp id (congrArg fun z : Float => z.toModel.unpack)))

theorem isNaN_toFloat (n : UInt64) : n.toFloat.isNaN = false :=
  (isNaN_pack _).trans (normalize_isNaN ..)

/-! ## Numbers that are read -/

section Products

variable {x y : Float}

theorem unpack_of_isFinite_of_pos (hfinite : y.isFinite = true) (hpos : 0 < y) :
    ∃ sign mantissa exponent hmantissa,
      y.toModel.unpack = .finite sign mantissa exponent hmantissa := by
  have hcompare := lt_iff_compare.mp hpos
  change y.toModel.unpack.isFinite = true at hfinite
  change (0 : Float).toModel.unpack.compare y.toModel.unpack = some .lt at hcompare
  cases hunpack : y.toModel.unpack with
  | notANumber | infinity => rw [hunpack] at hfinite; cases hfinite
  | zero sign => rw [hunpack] at hcompare; cases hcompare
  | finite sign mantissa exponent hmantissa => exact ⟨sign, mantissa, exponent, hmantissa, rfl⟩

/-- An operation gives numbers on a number and a finite one that is not zero. -/
structure Combines (operation : UnpackedFloat → UnpackedFloat → UnpackedFloat) : Prop where
  infinity : ∀ sign sign' mantissa exponent hmantissa,
    (operation (.infinity sign) (.finite sign' mantissa exponent hmantissa)).isNaN = false
  zero : ∀ sign sign' mantissa exponent hmantissa,
    (operation (.zero sign) (.finite sign' mantissa exponent hmantissa)).isNaN = false
  finite : ∀ sign first power hfirst sign' second power' hsecond,
    (operation (.finite sign first power hfirst)
      (.finite sign' second power' hsecond)).isNaN = false

theorem Combines.isNaN_pack {operation : UnpackedFloat → UnpackedFloat → UnpackedFloat}
    (hoperation : Combines operation) (hx : x.isNaN = false) (hfinite : y.isFinite = true)
    (hpos : 0 < y) :
    (Float.ofModel (Float.Model.pack (operation x.toModel.unpack y.toModel.unpack))).isNaN =
      false := by
  obtain ⟨_, _, _, _, hy⟩ := unpack_of_isFinite_of_pos hfinite hpos
  rw [Decimal.isNaN_pack, hy]
  change x.toModel.unpack.isNaN = false at hx
  cases hunpack : x.toModel.unpack with
  | notANumber => rw [hunpack] at hx; cases hx
  | infinity => exact hoperation.infinity ..
  | zero => exact hoperation.zero ..
  | finite => exact hoperation.finite ..

theorem combines_mul : Combines (UnpackedFloat.mul .binary64) where
  infinity _ _ _ _ _ := rfl
  zero _ _ _ _ _ := rfl
  finite _ _ _ _ _ _ _ _ := roundWithAccuracy_isNaN ..

theorem combines_div : Combines (UnpackedFloat.div .binary64) where
  infinity _ _ _ _ _ := rfl
  zero _ _ _ _ _ := rfl
  finite _ _ _ _ _ _ _ _ := roundWithAccuracy_isNaN ..

end Products

theorem powersOfTen_isFinite_pos :
    ∀ power ∈ Float.exactlyRepresentablePowersOfTen, power.isFinite = true ∧ 0 < power := by
  decide

theorem unpacked_ofScientific_isNaN (format : Float.Model.Format) (mantissa : Nat)
    (exponent : Int) : (UnpackedFloat.ofScientific format mantissa exponent).isNaN = false := by
  unfold UnpackedFloat.ofScientific
  split
  · rfl
  split
  · rfl
  split
  · rfl
  split <;> exact roundWithAccuracy_isNaN ..

theorem isNaN_ofScientific (mantissa : Nat) (negative : Bool) (exponent : Nat) :
    (Float.ofScientific mantissa negative exponent).isNaN = false := by
  unfold Float.ofScientific
  split
  next hsmall =>
    have hlt : exponent < Float.exactlyRepresentablePowersOfTen.size := Nat.lt_succ_of_le hsmall.2
    have hpower := powersOfTen_isFinite_pos _ (Array.getElem_mem hlt)
    cases negative with
    | true => exact combines_div.isNaN_pack (isNaN_toFloat _) hpower.1 hpower.2
    | false => exact combines_mul.isNaN_pack (isNaN_toFloat _) hpower.1 hpower.2
  next => exact (isNaN_pack _).trans (unpacked_ofScientific_isNaN ..)

theorem isNaN_ofDecimal (mantissa : Nat) (exponent : Int) :
    (ofDecimal mantissa exponent).isNaN = false := by
  unfold ofDecimal
  split
  · rfl
  simp only
  split
  · decide
  split
  · decide
  · exact isNaN_ofScientific ..

/-- Whether a text is the word for no number, in any case and perhaps with a sign and blanks
around. -/
def SaysNaN (text : String) : Prop :=
  (numberChars? text).map (fun chars => (signed chars).2.map Char.toLower) = some "nan".toList

instance (text : String) : Decidable (SaysNaN text) :=
  inferInstanceAs (Decidable (_ = _))

theorem magnitudeOf?_isNaN_iff {chars : List Char} {x : Float}
    (hread : magnitudeOf? chars = some x) :
    x.isNaN = true ↔ chars.map Char.toLower = "nan".toList := by
  unfold magnitudeOf? at hread
  simp only [Bool.or_eq_true, beq_iff_eq] at hread
  split at hread
  next hword =>
    cases hread
    rcases hword with hword | hword <;> rw [hword] <;> decide
  next =>
    split at hread
    next hword =>
      cases hread
      exact iff_of_true (by decide) hword
    next hword =>
      refine iff_of_false ?_ hword
      obtain ⟨exponent, -, rfl⟩ :=
        Option.map_eq_some_iff.mp (Option.ite_none_left_eq_some.mp hread).2
      rw [isNaN_ofDecimal]
      exact Bool.false_ne_true

/-- What is read is a number unless the text says that it is none. -/
theorem readFloat?_isNaN_iff {text : String} {x : Float} (hread : readFloat? text = some x) :
    x.isNaN = true ↔ SaysNaN text := by
  unfold readFloat? at hread
  simp only [Option.bind_eq_bind, Option.bind_eq_some_iff, Option.pure_def,
    Option.some.injEq] at hread
  obtain ⟨chars, hchars, magnitude, hmagnitude, rfl⟩ := hread
  have hsame : (if (signed chars).1 = true then -magnitude else magnitude).isNaN =
      magnitude.isNaN := by
    split
    · exact isNaN_neg magnitude
    · rfl
  rw [hsame, magnitudeOf?_isNaN_iff hmagnitude, SaysNaN, hchars, Option.map_some,
    Option.some.injEq]

end OneShot.Decimal
