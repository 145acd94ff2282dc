/-! # Signed words of 64 bits

The integers of the language are those from `-2 ^ 63` up to `2 ^ 63 - 1`. They are kept as
unbounded integers, and `wrap` names the representative of a residue class modulo `2 ^ 64` that
lies in this range. Wrapping is a ring homomorphism up to wrapping, which is what lets a chain of
wrapped operations be read as one exact operation wrapped at its end.

* **`InRange n`** is `-2 ^ 63 ≤ n < 2 ^ 63`, and `InRange (wrap n)` for all `n`, `wrap_inRange`.
* **`wrap_add_left`**, **`wrap_mul_left`** and their like: `wrap (wrap m + n) = wrap (m + n)`. -/

namespace ArrayForks.Word

/-- The representative of `n` modulo `2 ^ 64` between `-2 ^ 63` and `2 ^ 63 - 1`. -/
def wrap (n : Int) : Int :=
  n.bmod 18446744073709551616

/-- The integers that a word can hold. -/
def InRange (n : Int) : Prop :=
  -9223372036854775808 ≤ n ∧ n < 9223372036854775808

instance (n : Int) : Decidable (InRange n) :=
  inferInstanceAs (Decidable (_ ∧ _))

/-- A wrapped integer is a word. -/
theorem wrap_inRange (n : Int) : InRange (wrap n) := by
  have lower := Int.le_bmod (x := n) (m := 18446744073709551616) (by decide)
  have upper := Int.bmod_lt (x := n) (m := 18446744073709551616) (by decide)
  simp only [InRange, wrap]
  omega

/-- Words are left as they are. -/
theorem wrap_of_inRange {n : Int} (range : InRange n) : wrap n = n := by
  simp only [InRange] at range
  exact Int.bmod_eq_of_le (by omega) (by omega)

/-- Wrapping twice is wrapping once. -/
@[simp] theorem wrap_wrap (n : Int) : wrap (wrap n) = wrap n :=
  wrap_of_inRange (wrap_inRange n)

/-- A summand may be wrapped beforehand. -/
@[simp] theorem wrap_add_left (m n : Int) : wrap (wrap m + n) = wrap (m + n) := by
  simp [wrap]

/-- A summand may be wrapped beforehand. -/
@[simp] theorem wrap_add_right (m n : Int) : wrap (m + wrap n) = wrap (m + n) := by
  simp [wrap]

/-- A factor may be wrapped beforehand. -/
@[simp] theorem wrap_mul_left (m n : Int) : wrap (wrap m * n) = wrap (m * n) := by
  simp [wrap]

/-- A factor may be wrapped beforehand. -/
@[simp] theorem wrap_mul_right (m n : Int) : wrap (m * wrap n) = wrap (m * n) := by
  simp [wrap]

/-- A minuend may be wrapped beforehand. -/
@[simp] theorem wrap_sub_left (m n : Int) : wrap (wrap m - n) = wrap (m - n) := by
  simp [wrap]

/-- A subtrahend may be wrapped beforehand. -/
@[simp] theorem wrap_sub_right (m n : Int) : wrap (m - wrap n) = wrap (m - n) := by
  simp [wrap]

end ArrayForks.Word
