import ArrayForks.Decimal.Layout
import Mathlib.Algebra.Order.Field.Rat
import Mathlib.Algebra.Order.Field.Power
import Mathlib.Data.Nat.Cast.Order.Field
import Mathlib.Tactic.FieldSimp
import Mathlib.Tactic.Linarith
import Mathlib.Tactic.Positivity
import Mathlib.Tactic.Ring

/-! # The length of written doubles

The search for the fewest digits of a double starts one place above the leading digit and looks at
eighteen grids more, so it ends with nineteen digits at the most, the last one counted in case it was
rounded up. This rests on the place of the leading digit, whose estimate uses a rounded decimal
logarithm of two: it is at most one too low for all exponents of doubles. With a sign, a point and a
power of ten around the digits a double is written in twenty-six characters or fewer.

* **`leadingPlace_bounds`** is about the estimate, and **`shortest_digits_lt`** about the search.
* **`length_text_le`**: the text of a double has twenty-six characters at the most. -/

namespace ArrayForks.Decimal

/-- The number `mantissa * 2 ^ exponent`. -/
def magnitude (mantissa : Nat) (exponent : Int) : ℚ :=
  mantissa * 2 ^ exponent

/-- What a finite double consists of. -/
structure IsDouble (mantissa : Nat) (exponent : Int) : Prop where
  /-- The mantissa has fifty-three bits. -/
  mantissa_lt : mantissa < 2 ^ 53
  /-- The subnormals have the least exponent. -/
  least_le : -1074 ≤ exponent
  /-- The largest doubles have the greatest one. -/
  le_greatest : exponent ≤ 971

/-- What is read off a double is within these bounds. -/
theorem isDouble_of_decode {x : Float} {negative : Bool} {mantissa : Nat} {exponent : Int}
    (decoded : Binary64.decode x = .finite negative mantissa exponent) :
    IsDouble mantissa exponent := by
  have fraction : Binary64.fractionField x < 2 ^ 52 := Nat.mod_lt _ (by decide)
  have field : Binary64.exponentField x < 2048 := Nat.mod_lt _ (by decide)
  unfold Binary64.decode at decoded
  simp only [Binary64.leastExponent, Binary64.fractionBits, Nat.shiftLeft_eq] at decoded
  split at decoded
  · cases decoded
    exact ⟨by omega, le_rfl, by omega⟩
  · split at decoded <;> cases decoded
  · -- The greatest exponent field belongs to the infinities and the undefined numbers.
    next smaller notGreatest isField =>
      cases decoded
      have finite : smaller ≠ 2046 := notGreatest
      exact ⟨by omega, by omega, by omega⟩

/-! ### Scaled numbers -/

variable {mantissa : Nat} {exponent place : Int}

/-- A power is a quotient of natural powers. -/
theorem zpow_eq_div {base : ℚ} (nonzero : base ≠ 0) (power : Int) :
    base ^ power = base ^ power.toNat / base ^ (-power).toNat := by
  rw [← zpow_natCast, ← zpow_natCast, ← zpow_sub₀ nonzero, Int.toNat_sub_toNat_neg]

/-- The denominator of a scaled fraction is positive. -/
theorem scaled_denominator_pos (mantissa : Nat) (exponent place : Int) :
    0 < (scaled mantissa exponent place).denominator := by
  simp only [scaled, Nat.shiftLeft_eq, Nat.pow_eq]
  positivity

/-- The fraction is the number that it is said to be. -/
theorem scaled_eq (mantissa : Nat) (exponent place : Int) :
    ((scaled mantissa exponent place).numerator : ℚ) /
        (scaled mantissa exponent place).denominator =
      magnitude mantissa exponent / 10 ^ place := by
  simp only [scaled, magnitude, Nat.shiftLeft_eq, Nat.pow_eq, Nat.cast_mul, Nat.cast_pow,
    Nat.cast_ofNat]
  rw [zpow_eq_div (show (2 : ℚ) ≠ 0 by norm_num), zpow_eq_div (show (10 : ℚ) ≠ 0 by norm_num)]
  field_simp

/-- Quarters of the last bit. -/
theorem magnitude_quarters (mantissa : Nat) (exponent : Int) :
    magnitude (4 * mantissa) (exponent - 2) = magnitude mantissa exponent := by
  rw [magnitude, magnitude, zpow_sub₀ (show (2 : ℚ) ≠ 0 by norm_num)]
  push_cast
  ring

/-- `reaches` decides whether a magnitude is at least `10 ^ place`. -/
theorem reaches_iff :
    reaches mantissa exponent place = true ↔ (10 : ℚ) ^ place ≤ magnitude mantissa exponent := by
  have positive : (0 : ℚ) < (scaled mantissa exponent place).denominator :=
    Nat.cast_pos.mpr (scaled_denominator_pos mantissa exponent place)
  simp only [reaches, decide_eq_true_eq]
  rw [← one_le_div (zpow_pos (by norm_num : (0 : ℚ) < 10) place), ← scaled_eq, one_le_div positive,
    Nat.cast_le]

/-! ### The leading place -/

/-- A power of two is at most a power of ten if this is so for some powers of the bases and the
exponents are in their ratio. -/
theorem two_zpow_le_ten_zpow {binary decimal : Int} (twos tens : Nat) (positive : twos ≠ 0)
    (bases : ((2 : ℚ) ^ twos) ^ binary ≤ (10 ^ tens) ^ binary)
    (ratio : tens * binary ≤ twos * decimal) : (2 : ℚ) ^ binary ≤ 10 ^ decimal := by
  refine le_of_pow_le_pow_left₀ positive (zpow_nonneg (by norm_num) _) ?_
  calc ((2 : ℚ) ^ binary) ^ twos
      = (2 ^ twos) ^ binary := by rw [← zpow_natCast, ← zpow_natCast, zpow_comm]
    _ ≤ (10 ^ tens) ^ binary := bases
    _ = 10 ^ (tens * binary) := by rw [zpow_mul, zpow_natCast]
    _ ≤ 10 ^ (twos * decimal) := zpow_le_zpow_right₀ (by norm_num) ratio
    _ = (10 ^ decimal) ^ twos := by rw [mul_comm, zpow_mul, zpow_natCast]

/-- The estimate of the leading place is at most one too low. The decimal logarithm of two is a
little below `28 / 93` and a little above `59 / 196`; the first counts from zero up and the second
below zero. -/
theorem two_zpow_le_estimate {size : Int} (least : -1100 ≤ size) (greatest : size ≤ 1100) :
    (2 : ℚ) ^ (size + 1) ≤ 10 ^ (Int.fdiv (size * 30103) 100000 + 2) := by
  rw [Int.fdiv_eq_ediv_of_nonneg _ (by decide)]
  rcases le_total 0 (size + 1) with rising | falling
  · refine two_zpow_le_ten_zpow 93 28 (by decide)
      (zpow_le_zpow_left₀ rising (by norm_num) (by norm_num)) ?_
    push_cast
    omega
  · refine two_zpow_le_ten_zpow 196 59 (by decide) ?_ ?_
    · rw [← inv_le_inv₀ (by positivity) (by positivity), ← zpow_neg, ← zpow_neg]
      exact zpow_le_zpow_left₀ (by omega) (by norm_num) (by norm_num)
    · push_cast
      omega

/-- The binary length of the mantissa of a double. -/
theorem IsDouble.log2_le (isDouble : IsDouble mantissa exponent) : mantissa.log2 ≤ 52 := by
  rcases Nat.eq_zero_or_pos mantissa with rfl | positive
  · decide
  · exact Nat.lt_succ_iff.mp ((Nat.log2_lt positive.ne').mpr isDouble.mantissa_lt)

/-- A number stays below the power of ten above the place of its leading digit. -/
theorem magnitude_lt (isDouble : IsDouble mantissa exponent) :
    magnitude mantissa exponent < 10 ^ (leadingPlace mantissa exponent + 1) := by
  simp only [leadingPlace]
  split
  · -- In this case alone no comparison with a power of ten bounds the number from above.
    rw [add_assoc]
    calc magnitude mantissa exponent
        < 2 ^ (mantissa.log2 + 1) * 2 ^ exponent :=
          mul_lt_mul_of_pos_right (by exact_mod_cast Nat.lt_log2_self) (zpow_pos (by norm_num) _)
      _ = 2 ^ (mantissa.log2 + exponent + 1) := by
          rw [← zpow_natCast, ← zpow_add₀ (by norm_num), Nat.cast_succ, add_right_comm]
      _ ≤ 10 ^ (Int.fdiv ((mantissa.log2 + exponent) * 30103) 100000 + 2) :=
          have := isDouble.log2_le
          have := isDouble.least_le
          have := isDouble.le_greatest
          two_zpow_le_estimate (by omega) (by omega)
  · next below =>
      split
      · exact not_le.mp fun reached => below (reaches_iff.mpr reached)
      · next far =>
          rw [sub_add_cancel]
          exact not_le.mp fun reached => far (reaches_iff.mpr reached)

/-- The leading digits of doubles lie in between these places. -/
theorem leadingPlace_bounds (isDouble : IsDouble mantissa exponent) :
    -330 ≤ leadingPlace mantissa exponent ∧ leadingPlace mantissa exponent ≤ 330 := by
  have := isDouble.log2_le
  have := isDouble.least_le
  have := isDouble.le_greatest
  simp only [leadingPlace, Int.fdiv_eq_ediv_of_nonneg _ (show (0 : Int) ≤ 100000 by decide)]
  split
  · omega
  · split <;> omega

/-! ### The search -/

/-- What is found on a grid exceeds the number by no more than one step of the grid. -/
theorem onGrid?_le {digits : Nat} (found : onGrid? mantissa exponent place = some digits) :
    (digits : ℚ) ≤ magnitude mantissa exponent / 10 ^ place + 1 := by
  rw [← magnitude_quarters, ← scaled_eq]
  have neighbour : digits ≤
      (scaled (4 * mantissa) (exponent - 2) place).numerator /
        (scaled (4 * mantissa) (exponent - 2) place).denominator + 1 := by
    -- Every branch gives the multiple below, the one above, or the even one of the two.
    simp only [onGrid?] at found
    split at found
    · split at found
      · cases found
        omega
      · split at found <;> cases found <;> omega
    · split at found
      · cases found
        omega
      · split at found <;> cases found
        omega
  calc (digits : ℚ) ≤ _ := Nat.cast_le.mpr neighbour
    _ ≤ _ := by
        push_cast
        exact add_le_add_left Nat.cast_div_le 1

/-- The search ends on one of its grids. -/
theorem searchGrids_exponent (mantissa : Nat) (exponent : Int) (remaining : Nat) (place : Int) :
    place - remaining ≤ (searchGrids mantissa exponent remaining place).exponent ∧
      (searchGrids mantissa exponent remaining place).exponent ≤ place := by
  induction remaining generalizing place with
  | zero => simp [searchGrids]
  | succ remaining inductionHypothesis =>
      simp only [searchGrids]
      split
      · exact ⟨Int.sub_le_self _ (Int.natCast_nonneg _), le_rfl⟩
      · have := inductionHypothesis (place - 1)
        omega

/-- The digits that the search ends with exceed the number by no more than one step of the grid. -/
theorem searchGrids_le (mantissa : Nat) (exponent : Int) (remaining : Nat) (place : Int) :
    ((searchGrids mantissa exponent remaining place).digits : ℚ) ≤
      magnitude mantissa exponent / 10 ^ (searchGrids mantissa exponent remaining place).exponent +
        1 := by
  induction remaining generalizing place with
  | zero =>
      rw [searchGrids, ← scaled_eq]
      exact Nat.cast_div_le.trans (le_add_of_nonneg_right zero_le_one)
  | succ remaining inductionHypothesis =>
      simp only [searchGrids]
      split
      · next digits found => exact onGrid?_le found
      · exact inductionHypothesis (place - 1)

/-- The shortest expansion of a double has no more than nineteen digits. -/
theorem shortest_digits_lt (isDouble : IsDouble mantissa exponent) :
    (shortest mantissa exponent).digits < 10 ^ 19 := by
  have ⟨coarse, _⟩ :=
    searchGrids_exponent mantissa exponent 18 (leadingPlace mantissa exponent + 1)
  have atMost := searchGrids_le mantissa exponent 18 (leadingPlace mantissa exponent + 1)
  rw [← shortest] at coarse atMost
  -- The finest grid lies eighteen places below the power of ten that bounds the number.
  have scaledDown : magnitude mantissa exponent / 10 ^ (shortest mantissa exponent).exponent ≤
      10 ^ 18 := by
    rw [div_le_iff₀ (zpow_pos (by norm_num) _)]
    calc magnitude mantissa exponent
        ≤ 10 ^ (leadingPlace mantissa exponent + 1) := (magnitude_lt isDouble).le
      _ ≤ 10 ^ (18 + (shortest mantissa exponent).exponent) :=
          zpow_le_zpow_right₀ (by norm_num) (by push_cast at coarse; omega)
      _ = 10 ^ 18 * 10 ^ (shortest mantissa exponent).exponent := by
          rw [zpow_add₀ (by norm_num)]
          rfl
  have : ((shortest mantissa exponent).digits : ℚ) < (10 ^ 19 : Nat) := by
    push_cast
    linarith
  exact_mod_cast this

/-! ### The layout -/

/-- A number below `10 ^ count` has no more than `count` digits. -/
theorem length_digitsOf_le {n count : Nat} (positive : 0 < count) (bound : n < 10 ^ count) :
    (digitsOf n).length ≤ count :=
  (Nat.length_toDigits_le_iff (by decide) positive).mpr bound

/-- A positional text has at most five characters beside its digits, or beside seventeen places. -/
theorem length_positional_le (digits : List Char) {place : Int} (least : -4 ≤ place)
    (below : place < 16) : (positional digits place).length ≤ max digits.length 17 + 5 := by
  unfold positional
  split
  · simp only [zeros, List.length_cons, List.length_append, List.length_replicate]
    omega
  · simp only [zeros, List.length_append, List.length_cons, List.length_take, List.length_replicate,
      List.isEmpty_iff]
    split
    · simp only [List.length_singleton]
      omega
    · simp only [List.length_drop]
      omega

/-- A power of ten with an exponent of three digits takes five characters at the most. -/
theorem length_powerOfTen_le {place : Int} (small : place.natAbs < 10 ^ 3) :
    (powerOfTen Layout.display place).length ≤ 5 := by
  have := length_digitsOf_le (by decide) small
  simp only [powerOfTen, zeros, Layout.display, List.length_cons, List.length_append,
    List.length_replicate]
  omega

/-- A text with a power of ten has at most six characters beside its digits. -/
theorem length_withPower_le (digits : List Char) {place : Int} (small : place.natAbs < 10 ^ 3) :
    (withPower Layout.display digits place).length ≤ digits.length + 6 := by
  have := length_powerOfTen_le small
  rcases digits with _ | ⟨first, _ | ⟨second, rest⟩⟩ <;>
    simp only [withPower, List.length_cons, List.length_append, List.length_nil] <;> omega

/-- Six characters are enough besides the digits, and besides the zeros that fill them up, of which
there are so many only in front of a point. -/
theorem length_write_le (digits : List Char) {place : Int} (small : place.natAbs < 10 ^ 3) :
    (Layout.display.write digits place).length ≤ max digits.length 17 + 6 := by
  unfold Layout.write
  split
  · next inside =>
      have := length_positional_le digits inside.1 inside.2
      omega
  · have := length_withPower_le digits small
    omega

/-- A sign is one more character. -/
theorem length_signed_le (negative : Bool) (magnitude : List Char) :
    (signed negative magnitude).length ≤ magnitude.length + 1 := by
  cases negative <;> simp only [signed, String.length_ofList] <;> simp

/-- A double is written in twenty-six characters or fewer. -/
theorem length_text_le (x : Float) : (text x).length ≤ 26 := by
  unfold text textWith
  split
  · decide
  · next negative _ => cases negative <;> decide
  · next negative mantissa exponent decoded =>
      refine (length_signed_le _ _).trans (Nat.succ_le_succ ?_)
      split
      · decide
      · have isDouble := isDouble_of_decode decoded
        have count : (digitsOf (shortest mantissa exponent).digits).length ≤ 19 :=
          length_digitsOf_le (by decide) (shortest_digits_lt isDouble)
        have ⟨fine, coarse⟩ :=
          searchGrids_exponent mantissa exponent 18 (leadingPlace mantissa exponent + 1)
        rw [← shortest] at fine coarse
        have ⟨least, greatest⟩ := leadingPlace_bounds isDouble
        refine (length_write_le _ ?_).trans (by omega)
        push_cast at fine
        omega

end ArrayForks.Decimal
