import ArrayForks.Binary64.Decoded
import Mathlib.Algebra.Group.Int.Defs
import Mathlib.Algebra.Group.Nat.Defs

/-! # Magnitudes of doubles

Which doubles are equal to zero, read off the two fields of a double (`beq_zero_iff`), and that the
double of a word is one of them exactly when the word is (`beq_zero_ofInt`). For the latter the double
of any other word is shown to be at least one in magnitude, by following rounding through: a mantissa
that starts out long enough is never shifted below its leading bit. -/

namespace ArrayForks.Binary64

open Float.Model Float.Model.UnpackedFloat

/-! ### Fields and forms -/

/-- The exponent field of a double is that of its bits. -/
theorem exponentField_eq (x : Float) :
    exponentField x = (@unpackExponent Format.binary64 x.toBits.toBitVec).toNat := by
  simp only [exponentField, fractionBits, unpackExponent, BitVec.toNat_cast,
    BitVec.extractLsb_toNat, UInt64.toNat_toBitVec]

/-- The fraction field of a double is that of its bits. -/
theorem fractionField_eq (x : Float) :
    fractionField x = (@unpackMantissa Format.binary64 x.toBits.toBitVec).toNat := by
  simp only [fractionField, fractionBits, unpackMantissa, BitVec.toNat_cast,
    BitVec.extractLsb_toNat, UInt64.toNat_toBitVec]
  rfl

/-- The four kinds of doubles: infinite or undefined, zero, subnormal, and normal with an implicit
leading bit. -/
theorem unpack_cases (bits : BitVec Format.binary64.numBits) :
    (unpackExponent bits = -1#11 ∧ (UnpackedFloat.unpack .binary64 bits = .notANumber ∨
      ∃ sign, UnpackedFloat.unpack .binary64 bits = .infinity sign)) ∨
    (unpackExponent bits = 0#11 ∧ unpackMantissa bits = 0#52 ∧
      ∃ sign, UnpackedFloat.unpack .binary64 bits = .zero sign) ∨
    (unpackExponent bits = 0#11 ∧ unpackMantissa bits ≠ 0#52 ∧ ∃ sign positive,
      UnpackedFloat.unpack .binary64 bits = .finite sign (unpackMantissa bits).toNat
        ((unpackExponent bits).toNat - 1075 + 1) positive) ∨
    unpackExponent bits ≠ 0#11 ∧ ∃ sign positive,
      UnpackedFloat.unpack .binary64 bits = .finite sign (1#1 ++ unpackMantissa bits).toNat
        ((unpackExponent bits).toNat - 1075) positive := by
  by_cases full : unpackExponent bits = -1#11
  · refine .inl ⟨full, ?_⟩
    by_cases noMantissa : unpackMantissa bits = 0#52
    · exact .inr ⟨_, (if_pos full).trans (if_pos noMantissa)⟩
    · exact .inl ((if_pos full).trans (if_neg noMantissa))
  · by_cases noExponent : unpackExponent bits = 0#11
    · by_cases noMantissa : unpackMantissa bits = 0#52
      · exact .inr (.inl ⟨noExponent, noMantissa, _,
          ((if_neg full).trans (if_pos noExponent)).trans (dif_pos noMantissa)⟩)
      · exact .inr (.inr (.inl ⟨noExponent, noMantissa, _, _,
          ((if_neg full).trans (if_pos noExponent)).trans (dif_neg noMantissa)⟩))
    · exact .inr (.inr (.inr ⟨noExponent, _, _, (if_neg full).trans (if_neg noExponent)⟩))

/-- `x == 0.0` if and only if `exponentField x = 0` and `fractionField x = 0`. -/
theorem beq_zero_iff (x : Float) :
    (x == 0.0) = true ↔ exponentField x = 0 ∧ fractionField x = 0 := by
  have zero : (0.0 : Float).toModel.unpack = .zero .positive := by rfl
  have compared : (x == 0.0) = (x.toModel.unpack.compare (.zero .positive) == some .eq) := by
    rw [← zero]
    rfl
  have noField (field : BitVec 11) : field.toNat = 0 ↔ field = 0#11 := by
    rw [← BitVec.toNat_inj]
    rfl
  have noFraction (fraction : BitVec 52) : fraction.toNat = 0 ↔ fraction = 0#52 := by
    rw [← BitVec.toNat_inj]
    rfl
  rw [compared, exponentField_eq, fractionField_eq]
  change ((UnpackedFloat.unpack .binary64 x.toBits.toBitVec).compare _ == _) = true ↔ _
  generalize x.toBits.toBitVec = bits
  rw [noField, noFraction]
  obtain ⟨full, undefined | ⟨sign, infinite⟩⟩ | ⟨noExponent, noMantissa, sign, isZero⟩ |
    ⟨noExponent, someMantissa, sign, positive, subnormal⟩ |
    ⟨someExponent, sign, positive, normal⟩ := unpack_cases bits
  · rw [undefined]
    exact iff_of_false Bool.false_ne_true fun both => absurd (full.symm.trans both.1) (by decide)
  · rw [infinite]
    refine iff_of_false ?_ fun both => absurd (full.symm.trans both.1) (by decide)
    cases sign <;> exact Bool.false_ne_true
  · rw [isZero]
    exact iff_of_true rfl ⟨noExponent, noMantissa⟩
  · rw [subnormal]
    refine iff_of_false ?_ fun both => someMantissa both.2
    cases sign <;> exact Bool.false_ne_true
  · rw [normal]
    refine iff_of_false ?_ fun both => someExponent both.1
    cases sign <;> exact Bool.false_ne_true

/-! ### Rounding -/

/-- A double in normal form that is at least one in magnitude, or no finite number. -/
def IsLarge : UnpackedFloat → Prop
  | .finite _ mantissa exponent _ => mantissa.log2 = 52 ∧ -52 ≤ exponent
  | .zero _ => False
  | .infinity _ | .notANumber => True

/-- The sign of a number does not change whether it is large. -/
theorem isLarge_neg {unpacked : UnpackedFloat} (large : IsLarge unpacked) :
    IsLarge unpacked.neg := by
  cases unpacked <;> exact large

/-- A large double is packed with a large exponent field. -/
theorem unpackExponent_pack {unpacked : UnpackedFloat} (large : IsLarge unpacked) :
    1023 ≤ (unpackExponent (UnpackedFloat.pack .binary64 unpacked)).toNat := by
  cases unpacked with
  | notANumber => decide
  | infinity sign => cases sign <;> decide
  | zero sign => cases large
  | finite sign mantissa exponent positive =>
      obtain ⟨normal, least⟩ := large
      have isNormal : mantissa.log2 + 1 = Format.binary64.mantissaBits := by
        rw [normal]
        rfl
      delta UnpackedFloat.pack
      dsimp only
      rw [if_pos isNormal]
      split
      · cases sign <;> decide
      · next below =>
        rw [unpackExponent_packComponents, BitVec.toNat_ofNat]
        simp only [Format.exponentBias] at below ⊢
        omega

/-- The bits of a large double are those with a large exponent field. -/
theorem isLarge_unpack_iff {bits : BitVec Format.binary64.numBits} :
    IsLarge (UnpackedFloat.unpack .binary64 bits) ↔ 1023 ≤ (unpackExponent bits).toNat := by
  obtain ⟨full, unpacked⟩ | ⟨noExponent, noMantissa, sign, isZero⟩ |
    ⟨noExponent, someMantissa, sign, positive, subnormal⟩ |
    ⟨someExponent, sign, positive, normal⟩ := unpack_cases bits
  · have greatest : 1023 ≤ (unpackExponent bits).toNat := by
      rw [full]
      decide
    rcases unpacked with undefined | ⟨sign, infinite⟩
    · rw [undefined]
      exact iff_of_true trivial greatest
    · rw [infinite]
      exact iff_of_true trivial greatest
  -- Zeros and subnormal doubles have no exponent; the bits of any other finite double have their
  -- leading one put before them.
  · rw [isZero, noExponent]
    exact iff_of_false id (by decide)
  · rw [subnormal, noExponent]
    refine iff_of_false (fun large => ?_) (by decide)
    exact absurd large.2 (by decide)
  · have mantissa : (1#1 ++ unpackMantissa bits).toNat = 2 ^ 52 + (unpackMantissa bits).toNat := by
      rw [BitVec.toNat_append, ← Nat.shiftLeft_add_eq_or_of_lt (unpackMantissa bits).isLt]
      rfl
    have within : (unpackMantissa bits).toNat < 2 ^ 52 := (unpackMantissa bits).isLt
    have length : (1#1 ++ unpackMantissa bits).toNat.log2 = 52 := by
      rw [mantissa, Nat.log2_eq_iff (by omega)]
      omega
    rw [normal]
    change _ = 52 ∧ -52 ≤ ((unpackExponent bits).toNat : Int) - 1075 ↔ _
    rw [length, eq_self, true_and]
    omega

/-- A large double stays large when it is packed into bits. -/
theorem isLarge_unpack_pack {unpacked : UnpackedFloat} (large : IsLarge unpacked) :
    IsLarge (Float.Model.pack unpacked).unpack :=
  isLarge_unpack_iff.mpr (unpackExponent_pack large)

/-- Shifting a mantissa to the right divides it by a power of two, rounding down. -/
theorem mantissa_shiftRight (mantissa : ExtendedMantissa) (count : Nat) :
    (mantissa >>> count).mantissa = mantissa.mantissa / 2 ^ count := by
  induction count with
  | zero => simp [HShiftRight.hShiftRight, Nat.repeat]
  | succ count inductionHypothesis =>
      change (mantissa >>> count).mantissa / 2 = _
      rw [inductionHypothesis, Nat.div_div_eq_div_mul, Nat.pow_succ]

/-- Rounding does not go below the mantissa. -/
theorem le_roundedMantissa (extended : ExtendedMantissa) :
    extended.mantissa ≤ extended.roundedMantissa := by
  unfold ExtendedMantissa.roundedMantissa Accuracy.roundToNearestEven
  split <;> omega

/-- Shifting a number to the right by fewer bits than it has takes these bits away. -/
theorem log2_div_pow {n count : Nat} (le : 2 ^ count ≤ n) :
    (n / 2 ^ count).log2 = n.log2 - count := by
  have positive : n ≠ 0 := Nat.ne_of_gt (Nat.lt_of_lt_of_le (Nat.two_pow_pos count) le)
  have enough : count ≤ n.log2 := (Nat.le_log2 positive).mpr le
  have parts : 2 ^ n.log2 = 2 ^ (n.log2 - count) * 2 ^ count := by
    rw [← Nat.pow_add, Nat.sub_add_cancel enough]
  have remains : n / 2 ^ count ≠ 0 := Nat.ne_of_gt (Nat.div_pos le (Nat.two_pow_pos count))
  rw [Nat.log2_eq_iff remains, Nat.le_div_iff_mul_le (Nat.two_pow_pos count), ← parts,
    Nat.div_lt_iff_lt_mul (Nat.two_pow_pos count), Nat.pow_succ, Nat.mul_right_comm, ← parts,
    ← Nat.pow_succ]
  exact ⟨Nat.log2_self_le positive, Nat.lt_log2_self⟩

/-- `targetExponent total = max (total - 53) (-1074)`: the bits of a normal double end 53 places below
its leading one, and those of a subnormal one at the last place of all. -/
theorem targetExponent_eq (total : Int) :
    Format.binary64.targetExponent total = max (total - 53) (-1074) :=
  rfl

/-- A mantissa that is long enough is shifted to the length of a normal double. -/
theorem shiftToTargetExponent_eq {mantissa : Nat} {exponent : Int} (long : 2 ^ 52 ≤ mantissa)
    (large : 0 ≤ mantissa.log2 + exponent) :
    (shiftToTargetExponent .binary64 mantissa exponent .exact).1.mantissa.log2 = 52 ∧
      (shiftToTargetExponent .binary64 mantissa exponent .exact).2 =
        mantissa.log2 - 52 + exponent := by
  have enough : 52 ≤ mantissa.log2 := (Nat.le_log2 (by omega)).mpr long
  have fits : 2 ^ (mantissa.log2 - 52) ≤ mantissa :=
    Nat.le_trans (Nat.pow_le_pow_right (by decide) (Nat.sub_le _ _)) (Nat.log2_self_le (by omega))
  have target : Format.binary64.targetExponent (totalExponent mantissa exponent) =
      mantissa.log2 - 52 + exponent := by
    rw [targetExponent_eq, totalExponent]
    omega
  have shift : (mantissa.log2 - 52 + exponent - exponent).toNat = mantissa.log2 - 52 := by omega
  simp only [shiftToTargetExponent, shiftToExponent, target, shift, mantissa_shiftRight,
    ExtendedMantissa.ofMantissaAndAccuracy, log2_div_pow fits]
  omega

/-- Rounding a number of at least one to a double gives a large one. -/
theorem isLarge_roundWithAccuracy (sign : Sign) {mantissa : Nat} {exponent : Int}
    (long : 2 ^ 52 ≤ mantissa) (large : 0 ≤ mantissa.log2 + exponent) :
    IsLarge (roundWithAccuracy .binary64 sign mantissa exponent .exact) := by
  obtain ⟨firstLength, firstExponent⟩ := shiftToTargetExponent_eq long large
  rw [roundWithAccuracy]
  generalize shiftToTargetExponent .binary64 mantissa exponent .exact = first
    at firstLength firstExponent ⊢
  obtain ⟨extended, shifted⟩ := first
  dsimp only at firstLength firstExponent ⊢
  have nonzero : extended.mantissa ≠ 0 := by
    intro zero
    rw [zero] at firstLength
    cases firstLength
  have rounded : 2 ^ 52 ≤ extended.roundedMantissa :=
    firstLength ▸ Nat.le_trans (Nat.log2_self_le nonzero) (le_roundedMantissa extended)
  have enough : 52 ≤ mantissa.log2 := (Nat.le_log2 (by omega)).mpr long
  have roundedLength : 52 ≤ extended.roundedMantissa.log2 := (Nat.le_log2 (by omega)).mpr rounded
  -- Rounding up may have made the mantissa longer by a bit, which is shifted out again.
  have least : 0 ≤ (extended.roundedMantissa.log2 : Int) + shifted := by omega
  obtain ⟨length, final⟩ := shiftToTargetExponent_eq rounded least
  have lasting : (shiftToTargetExponent .binary64 extended.roundedMantissa shifted .exact).1.mantissa
      ≠ 0 := by
    intro zero
    rw [zero] at length
    cases length
  rw [dif_neg lasting]
  refine ⟨length, ?_⟩
  rw [final]
  omega

/-- The product of two large numbers is large. -/
theorem isLarge_mul {left right : UnpackedFloat} (leftLarge : IsLarge left)
    (rightLarge : IsLarge right) : IsLarge (UnpackedFloat.mul .binary64 left right) := by
  cases left with
  | notANumber => trivial
  | zero sign => cases leftLarge
  | infinity sign =>
      cases right with
      | zero sign => cases rightLarge
      | _ => trivial
  | finite leftSign leftMantissa leftExponent leftPositive =>
      cases right with
      | notANumber => trivial
      | infinity sign => trivial
      | zero sign => cases rightLarge
      | finite rightSign rightMantissa rightExponent rightPositive =>
          obtain ⟨leftLength, leftLeast⟩ := leftLarge
          obtain ⟨rightLength, rightLeast⟩ := rightLarge
          -- Both mantissas have 53 bits, so their product has at least 105, more than rounding
          -- keeps.
          have leftLong : 2 ^ 52 ≤ leftMantissa :=
            leftLength ▸ Nat.log2_self_le (Nat.ne_of_gt leftPositive)
          have rightLong : 2 ^ 52 ≤ rightMantissa :=
            rightLength ▸ Nat.log2_self_le (Nat.ne_of_gt rightPositive)
          have product : 2 ^ 52 * 2 ^ 52 ≤ leftMantissa * rightMantissa :=
            Nat.mul_le_mul leftLong rightLong
          have productLength : 104 ≤ (leftMantissa * rightMantissa).log2 := by
            rw [Nat.le_log2 (by omega)]
            exact product
          refine isLarge_roundWithAccuracy _ ?_ ?_
          · exact Nat.le_trans (by decide) product
          · omega

/-! ### Doubles of words -/

/-- A positive natural number that is scaled up far enough is rounded to a large double. -/
theorem isLarge_scaled (sign : Sign) {n : Nat} (shift : Nat) (positive : 0 < n)
    (far : 52 ≤ n.log2 + shift) :
    IsLarge (roundWithAccuracy .binary64 sign (n <<< shift) (-shift) .exact) := by
  have long : 2 ^ (n.log2 + shift) ≤ n <<< shift := by
    rw [Nat.shiftLeft_eq, Nat.pow_add]
    exact Nat.mul_le_mul_right _ (Nat.log2_self_le (Nat.ne_of_gt positive))
  have scaled : n.log2 + shift ≤ (n <<< shift).log2 := by
    rw [Nat.le_log2 (Nat.ne_of_gt (Nat.lt_of_lt_of_le (Nat.two_pow_pos _) long))]
    exact long
  refine isLarge_roundWithAccuracy sign ?_ ?_
  · exact Nat.le_trans (Nat.pow_le_pow_right (by decide) far) long
  · omega

/-- A positive word without a sign is large as a double. -/
theorem isLarge_ofUInt64 {n : UInt64} (positive : 0 < n.toNat) :
    IsLarge (UnpackedFloat.ofUInt64 .binary64 n) := by
  have order : compare (n.toNat : Int) 0 = .gt := by
    rw [Int.compare_eq_gt]
    omega
  simp only [UnpackedFloat.ofUInt64, UnpackedFloat.ofNat, UnpackedFloat.ofInt,
    UnpackedFloat.normalize, order, UnpackedFloat.round, decreaseExponent, Int.toNat_natCast,
    Int.zero_sub]
  refine isLarge_scaled _ _ positive ?_
  rw [targetExponent_eq, totalExponent]
  omega

/-- A natural number without a power of ten beside it is scaled up and rounded. -/
theorem ofScientific_zero (format : Format) {n : Nat} (positive : 0 < n) :
    UnpackedFloat.ofScientific format n 0 =
      roundWithAccuracy format .positive (n <<< format.mantissaBits) (-format.mantissaBits)
        .exact := by
  have width : (0 : Int) < 2 ^ format.exponentBits := Int.pow_pos (by decide)
  have notLarge : ¬ (0 : Int) > 2 ^ format.exponentBits := Int.not_lt_of_ge (Int.le_of_lt width)
  have notSmall : ¬ (0 : Int) < -(2 ^ format.exponentBits + n.log2) := by omega
  rw [UnpackedFloat.ofScientific, dif_neg (Nat.ne_of_gt positive), if_neg notLarge,
    if_neg notSmall, if_pos (Int.le_refl 0)]
  change roundWithAccuracy format (.positive * .positive)
    (n <<< format.mantissaBits * 10 ^ (0 : Int).toNat) (-format.mantissaBits + 0) .exact = _
  rw [Int.toNat_zero, Nat.pow_zero, Nat.mul_one, Int.add_zero]
  rfl

/-- The doubles of positive natural numbers are large. Those of words are multiplied by one, and
those of greater numbers are read like decimals. -/
theorem isLarge_ofNat {n : Nat} (positive : 0 < n) : IsLarge (Float.ofNat n).toModel.unpack := by
  have one : IsLarge (Float.ofBits 4607182418800017408).toModel.unpack :=
    isLarge_unpack_iff.mpr (by decide)
  change IsLarge (Float.ofScientific n false 0).toModel.unpack
  rw [Float.ofScientific]
  split
  · next small =>
    have isWord : n.toUInt64.toNat = n := by
      rw [Nat.toUInt64_eq, UInt64.toNat_ofNat']
      omega
    refine isLarge_unpack_pack (isLarge_mul ?_ one)
    exact isLarge_unpack_pack (isLarge_ofUInt64 (by omega))
  · refine isLarge_unpack_pack ?_
    change IsLarge (UnpackedFloat.ofScientific _ n 0)
    have enough : 52 ≤ Format.binary64.mantissaBits := by decide
    rw [ofScientific_zero _ positive]
    generalize Format.binary64.mantissaBits = shift at enough ⊢
    exact isLarge_scaled _ shift positive (by omega)

/-- The doubles of words other than zero are large. -/
theorem isLarge_ofInt {n : Int} (nonzero : n ≠ 0) : IsLarge (Float.ofInt n).toModel.unpack := by
  cases n with
  | ofNat n => exact isLarge_ofNat (Nat.pos_of_ne_zero fun zero => nonzero (by rw [zero]; rfl))
  | negSucc n => exact isLarge_unpack_pack (isLarge_neg (isLarge_ofNat n.succ_pos))

/-- The double of a word other than zero is a normal one. -/
theorem exponentField_ofInt {n : Int} (nonzero : n ≠ 0) : exponentField (Float.ofInt n) ≠ 0 := by
  have large : 1023 ≤ exponentField (Float.ofInt n) := by
    rw [exponentField_eq]
    exact isLarge_unpack_iff.mp (isLarge_ofInt nonzero)
  omega

/-- `(Float.ofInt n == 0.0) = decide (n = 0)`: the double of a word equals zero exactly when the word
is zero. -/
theorem beq_zero_ofInt (n : Int) : (Float.ofInt n == 0.0) = decide (n = 0) := by
  by_cases zero : n = 0
  · subst zero
    rfl
  · rw [decide_eq_false zero, ← Bool.not_eq_true, beq_zero_iff]
    exact fun both => exponentField_ofInt zero both.1

end ArrayForks.Binary64
