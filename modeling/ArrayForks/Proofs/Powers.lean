import ArrayForks.Proofs.SingleSteps
import ArrayForks.Proofs.WordRange
import Mathlib.Algebra.Ring.Int.Parity

/-! # Powers of words

A power of a word is worked out by squaring and multiplying, with a product wrapped in each of
sixty-four rounds, and is the exact power wrapped once. What carries this through the rounds is that
the result so far, times the power that is still to be taken, stays the same up to wrapping; after a
round for each binary digit there is no power left to be taken. A negative power of a word other than
zero is the reciprocal of a positive one, truncated toward zero, and a negative power of zero is a
division by zero.

* **`Word.wrap_round`**: a round keeps `wrap (result * base ^ exponent)`.
* **`Word.wrap_powerRounds`**: so enough rounds give `wrap (result * base ^ exponent)`.
* **`Word.power_of_nonneg`**, **`Word.power_of_neg`**: powers as `wrap (base ^ exponent.toNat)`
  and as `(1 : Int).tdiv (base ^ exponent.natAbs)`. -/

namespace ArrayForks

namespace Word

/-! ### Rounds -/

/-- A base may be wrapped beforehand. -/
theorem wrap_pow (n : Int) (exponent : Nat) : wrap (wrap n ^ exponent) = wrap (n ^ exponent) := by
  induction exponent with
  | zero => rw [pow_zero, pow_zero]
  | succ exponent inductionHypothesis =>
      rw [pow_succ, pow_succ, wrap_mul_right, ← wrap_mul_left, inductionHypothesis, wrap_mul_left]

/-- The square of the base to the half of an exponent is the base to the exponent but for its lowest
digit. -/
theorem wrap_mul_square_pow (result base : Int) (half : Nat) :
    wrap (result * wrap (base * base) ^ half) = wrap (result * base ^ (2 * half)) := by
  rw [← wrap_mul_right, wrap_pow, wrap_mul_right, pow_mul, pow_two]

/-- A round keeps the result times the power that is still to be taken, up to wrapping. -/
theorem wrap_round (result base : Int) (exponent : Nat) :
    wrap ((if exponent % 2 = 1 then wrap (result * base) else result) *
        wrap (base * base) ^ (exponent / 2)) =
      wrap (result * base ^ exponent) := by
  rw [wrap_mul_square_pow]
  split
  · next odd =>
      have digits : 2 * (exponent / 2) + 1 = exponent := by omega
      calc wrap (wrap (result * base) * base ^ (2 * (exponent / 2)))
          = wrap (result * base * base ^ (2 * (exponent / 2))) := wrap_mul_left _ _
        _ = wrap (result * base ^ (2 * (exponent / 2) + 1)) := by rw [mul_assoc, ← pow_succ']
        _ = wrap (result * base ^ exponent) := by rw [digits]
  · next even =>
      have digits : 2 * (exponent / 2) = exponent := by omega
      rw [digits]

/-- A round for each digit of the exponent takes the whole power. -/
theorem wrap_powerRounds {rounds : Nat} (result base : Int) {exponent : Nat}
    (few : exponent < 2 ^ rounds) :
    wrap (powerRounds rounds result base exponent) = wrap (result * base ^ exponent) := by
  induction rounds generalizing result base exponent with
  | zero =>
      obtain rfl : exponent = 0 := Nat.lt_one_iff.mp few
      rw [powerRounds, pow_zero, mul_one]
  | succ rounds inductionHypothesis =>
      have fewer : exponent / 2 < 2 ^ rounds := by
        rw [pow_succ] at few
        omega
      rw [powerRounds, inductionHypothesis _ _ fewer, wrap_round]

/-! ### Powers of either sign -/

/-- A power is the word of the exact power. -/
theorem power_of_nonneg (base : Int) {exponent : Int} (nonneg : 0 ≤ exponent)
    (inRange : InRange exponent) : power base exponent = wrap (base ^ exponent.toNat) := by
  have few : exponent.toNat < 2 ^ 64 := by
    rw [InRange] at inRange
    omega
  have isWord := powerRounds_inRange 64 (show InRange 1 by decide) base exponent.toNat
  rw [power, if_neg (Int.not_lt.mpr nonneg), ← wrap_of_inRange isWord, wrap_powerRounds 1 base few,
    one_mul]

/-- The truncated reciprocal of a power is zero, unless the base is one or minus one. -/
theorem one_tdiv_pow {base exponent : Int} (negative : exponent < 0) (nonzero : base ≠ 0) :
    (1 : Int).tdiv (base ^ exponent.natAbs) =
      if base = 1 then 1 else if base = -1 then if Even exponent then 1 else -1 else 0 := by
  split
  · next one => rw [one, one_pow, Int.tdiv_one]
  · next notOne =>
      split
      · next minusOne =>
          rw [minusOne]
          split
          · next even =>
              rw [(Int.natAbs_even.mpr even).neg_one_pow]
              rfl
          · next notEven =>
              have odd := Int.natAbs_odd.mpr (Int.not_even_iff_odd.mp notEven)
              rw [odd.neg_one_pow]
              rfl
      · next notMinusOne =>
          have large : 1 < (base ^ exponent.natAbs).natAbs := by
            rw [Int.natAbs_pow]
            exact Nat.one_lt_pow (by omega) (by omega)
          rw [← Int.natAbs_eq_zero, Int.natAbs_tdiv]
          exact Nat.div_eq_of_lt large

/-- A negative power is the reciprocal of a positive one, truncated toward zero. -/
theorem power_of_neg {base exponent : Int} (negative : exponent < 0) (nonzero : base ≠ 0) :
    power base exponent = (1 : Int).tdiv (base ^ exponent.natAbs) := by
  rw [one_tdiv_pow negative nonzero, power, if_pos negative]
  simp only [Int.even_iff]

end Word

variable [NumericLibrary]

/-- A power of two words traps if the base is zero and the exponent is negative. -/
theorem Domain.step_power (base exponent : Int) :
    step Word.power (.arithmetic .exponent) base exponent =
      if base = 0 ∧ exponent < 0 then (RuntimeError.divisionByZero .power).raise
      else .ok (Word.power base exponent) := by
  have traps : trap? (.arithmetic .exponent) base exponent =
      if base = 0 ∧ exponent < 0 then some .power else none := by
    simp [trap?, trapOnRights?, trapOnPairs?, trapsOn?, trapsOnPair?, Word.trapsOn?,
      Word.trapsOnPair?]
  rw [step, traps]
  by_cases zeroToNegative : base = 0 ∧ exponent < 0
  · rw [if_pos zeroToNegative, if_pos zeroToNegative]
  · rw [if_neg zeroToNegative, if_neg zeroToNegative]

namespace Operation

/-- **Powers of words are exact modulo `2 ^ 64`.** For an exponent in the range of words,

* `0 ≤ exponent` gives `Word.wrap (base ^ exponent.toNat)`, so that anything to the power zero is
  one;
* `exponent < 0` and `base = 0` give `.divisionByZero .power`;
* `exponent < 0` and `base ≠ 0` give `(1 : Int).tdiv (base ^ exponent.natAbs)`, which is one for the
  base `1`, one or minus one for the base `-1`, as the exponent is even or odd, and zero
  otherwise. -/
theorem power_exact (heap : Heap) (left right : Copy) (base exponent : Int)
    (isBase : left.value = .int base) (isExponent : right.value = .int exponent)
    (inRange : Word.InRange exponent) :
    let raised := diadic heap (.arithmetic .exponent) .int .int (.item left) (.item right)
    (0 ≤ exponent → raised = .ok (.item (.new (.int (Word.wrap (base ^ exponent.toNat)))))) ∧
    (exponent < 0 → base = 0 → raised = (RuntimeError.divisionByZero .power).raise) ∧
    (exponent < 0 → base ≠ 0 →
      raised = .ok (.item (.new (.int ((1 : Int).tdiv (base ^ exponent.natAbs))))) ∧
      (1 : Int).tdiv (base ^ exponent.natAbs) =
        if base = 1 then 1 else if base = -1 then if Even exponent then 1 else -1 else 0) := by
  intro raised
  have computed : raised = (Domain.step Word.power (.arithmetic .exponent) base exponent).map
      fun power => .item (.new (.int power)) := diadic_words heap rfl isBase isExponent
  rw [Domain.step_power] at computed
  refine ⟨fun nonneg => ?_, fun negative zero => ?_, fun negative nonzero => ⟨?_, ?_⟩⟩
  · have noTrap : ¬ (base = 0 ∧ exponent < 0) := fun both => absurd both.2 (Int.not_lt.mpr nonneg)
    rw [if_neg noTrap, Word.power_of_nonneg base nonneg inRange] at computed
    exact computed
  · rw [if_pos ⟨zero, negative⟩] at computed
    exact computed
  · rw [if_neg fun both => nonzero both.1, Word.power_of_neg negative nonzero] at computed
    exact computed
  · exact Word.one_tdiv_pow negative nonzero

omit [NumericLibrary] in
/-- A power of three beyond the words, and the power of minus one to the least word. -/
theorem power_exact_extremes :
    letI : NumericLibrary := .standard
    let three : Copy := .new (.int 3)
    let minusOne : Copy := .new (.int (-1))
    let large : Copy := .new (.int 41)
    let least : Copy := .new (.int (-9223372036854775808))
    Word.InRange 41 ∧ Word.InRange (-9223372036854775808) ∧
      diadic .empty (.arithmetic .exponent) .int .int (.item three) (.item large) =
        .ok (.item (.new (.int (-420491770248316829)))) ∧
      diadic .empty (.arithmetic .exponent) .int .int (.item minusOne) (.item least) =
        .ok (.item (.new (.int 1))) := by
  let : NumericLibrary := .standard
  intro three minusOne large least
  have largeInRange : Word.InRange 41 := by decide
  have leastInRange : Word.InRange (-9223372036854775808) := by decide
  have raised := (power_exact .empty three large 3 41 rfl rfl largeInRange).1 (by decide)
  obtain ⟨reciprocal, parity⟩ :=
    (power_exact .empty minusOne least (-1) (-9223372036854775808) rfl rfl leastInRange).2.2
      (by decide) (by decide)
  have wrapped : Word.wrap (3 ^ (41 : Int).toNat) = -420491770248316829 := by decide
  rw [wrapped] at raised
  rw [parity, if_neg (by decide), if_pos rfl, if_pos (by decide)] at reciprocal
  exact ⟨largeInRange, leastInRange, raised, reciprocal⟩

end Operation

end ArrayForks
