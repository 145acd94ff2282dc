import ArrayForks.Proofs.SingleSteps
import ArrayForks.Proofs.WordRange

/-! # Quotients and remainders of words

The quotient of two words is truncated toward zero and wrapped, and the remainder is what is left
over: smaller than the divisor, and of the sign of the dividend. Only one quotient needs wrapping,
that of the least word by minus one, and there nothing is left over. So the divisor times the
quotient, plus the remainder, gives the dividend back, with each of the two results wrapped.
Dividing by zero is an error for every dividend.

* **`Word.natAbs_tmod_lt`**, **`Word.tmod_eq_zero_or_sign_eq`**: the size and the sign of a
  remainder.
* **`Word.tdiv_inRange`**: the only quotient that is wrapped is that of `-2 ^ 63` by `-1`.
* **`Word.wrap_quotient_mul_add_remainder`**: `wrap (wrap (wrap (m.tdiv n) * n) + m.tmod n) = m`. -/

namespace ArrayForks

namespace Word

/-- A remainder is smaller than the divisor. -/
theorem natAbs_tmod_lt (m : Int) {n : Int} (nonzero : n ≠ 0) : (m.tmod n).natAbs < n.natAbs := by
  rw [Int.natAbs_tmod]
  exact Nat.mod_lt _ (Int.natAbs_pos.mpr nonzero)

/-- A remainder has the sign of the dividend unless it is zero. -/
theorem tmod_eq_zero_or_sign_eq (m n : Int) : m.tmod n = 0 ∨ (m.tmod n).sign = m.sign := by
  by_cases divides : n ∣ m
  · exact .inl (Int.tmod_eq_zero_of_dvd divides)
  · refine .inr ?_
    rw [Int.sign_tmod, if_neg divides]

/-- A quotient of words is a word, but for that of the least word by minus one. -/
theorem tdiv_inRange {m n : Int} (inRange : InRange m)
    (fits : ¬ (m = -9223372036854775808 ∧ n = -1)) : InRange (m.tdiv n) := by
  rw [InRange] at inRange ⊢
  by_cases unit : n.natAbs ≤ 1
  · -- The quotient by one, minus one or zero is the dividend, its negative or zero.
    rcases (by omega : n = 0 ∨ n = 1 ∨ n = -1) with rfl | rfl | rfl
    · rw [Int.tdiv_zero]
      omega
    · rw [Int.tdiv_one]
      exact inRange
    · rw [Int.tdiv_neg, Int.tdiv_one]
      omega
  · have half : (m.tdiv n).natAbs ≤ m.natAbs / 2 := by
      rw [Int.natAbs_tdiv]
      exact Nat.div_le_div_left (by omega) (by omega)
    omega

/-- A wrapped quotient times the divisor, plus the remainder, is the dividend, up to wrapping. -/
theorem wrap_quotient_mul_add_remainder {m : Int} (inRange : InRange m) (n : Int) :
    wrap (wrap (wrap (m.tdiv n) * n) + m.tmod n) = m :=
  calc wrap (wrap (wrap (m.tdiv n) * n) + m.tmod n)
      = wrap (m.tdiv n * n + m.tmod n) := by rw [wrap_mul_left, wrap_add_left]
    _ = wrap m := by rw [Int.mul_comm, Int.mul_tdiv_add_tmod]
    _ = m := wrap_of_inRange inRange

variable [NumericLibrary]

/-- `arithmetic .divide m n = wrap (m.tdiv n)`, unless `n` is zero. -/
theorem arithmetic_divide (m : Int) {n : Int} (nonzero : n ≠ 0) :
    arithmetic .divide m n = wrap (m.tdiv n) := by
  change wrap (if n = 0 then NumericLibrary.quotientByZero m else m.tdiv n) = _
  rw [if_neg nonzero]

/-- `arithmetic .remainder m n = m.tmod n`, unless `n` is zero. -/
theorem arithmetic_remainder (m : Int) {n : Int} (nonzero : n ≠ 0) :
    arithmetic .remainder m n = m.tmod n :=
  if_neg nonzero

end Word

variable [NumericLibrary]

/-- A division or a remainder of words traps on the divisor zero, whatever the dividend, and on no
other one. -/
theorem Domain.step_division {op : DiadicOp} (kernel : Int → Int → Int)
    (divides : op = .arithmetic .divide ∨ op = .arithmetic .remainder) (m n : Int) :
    step kernel op m n =
      if n = 0 then (RuntimeError.divisionByZero op.zeroDivision).raise else .ok (kernel m n) := by
  have noPair : trapOnPairs? op [(m, n)] = none := by
    rcases divides with rfl | rfl <;> rfl
  rw [step, trap?, trapOnRights?_word, noPair, Option.or_none]
  by_cases zero : n = 0
  · rw [if_pos ⟨zero, divides⟩, if_pos zero]
  · rw [if_neg fun both => zero both.1, if_neg zero]

namespace Operation

/-- A product of words plus a word, each of the two results wrapped. -/
theorem diadic_multiply_add (heap : Heap) (q r : Int) {n : Int} {divisor : Copy}
    (isDivisor : divisor.value = .int n) :
    (diadic heap (.arithmetic .multiply) .int .int (.item (.new (.int q))) (.item divisor) >>=
        fun product => diadic heap (.arithmetic .add) .int .int product (.item (.new (.int r)))) =
      .ok (.item (.new (.int (Word.wrap (Word.wrap (q * n) + r))))) := by
  have multiplied : diadic heap (.arithmetic .multiply) .int .int (.item (.new (.int q)))
      (.item divisor) = .ok (.item (.new (.int (Word.wrap (q * n))))) :=
    @diadic_words _ heap (.arithmetic .multiply) _ rfl (.new (.int q)) divisor _ _ rfl isDivisor
  have added : diadic heap (.arithmetic .add) .int .int
      (.item (.new (.int (Word.wrap (q * n))))) (.item (.new (.int r))) =
        .ok (.item (.new (.int (Word.wrap (Word.wrap (q * n) + r))))) :=
    @diadic_words _ heap (.arithmetic .add) _ rfl (.new (.int (Word.wrap (q * n)))) (.new (.int r))
      _ _ rfl rfl
  rw [multiplied]
  exact added

/-- **The division law of words**, up to the limits of their range.

* For `n = 0` the quotient and the remainder are divisions by zero.
* For `n ≠ 0` they are words `q = Word.wrap (m.tdiv n)` and `r = m.tmod n`. The quotient is
  truncated toward zero, and wrapped for `m = -2 ^ 63`, `n = -1` only, where `q = -2 ^ 63` and
  `r = 0`. The remainder has `r.natAbs < n.natAbs`, and the sign of `m` unless it is zero.
* `q * n + r`, computed on words, is `m`. -/
theorem division_law (heap : Heap) (dividend divisor : Copy) (m n : Int)
    (isDividend : dividend.value = .int m) (isDivisor : divisor.value = .int n)
    (inRange : Word.InRange m) :
    let compute (op : Arithmetic) := diadic heap (.arithmetic op) .int .int
    let quotient := compute .divide (.item dividend) (.item divisor)
    let remainder := compute .remainder (.item dividend) (.item divisor)
    (n = 0 →
      quotient = (RuntimeError.divisionByZero .divide).raise ∧
      remainder = (RuntimeError.divisionByZero .remainder).raise) ∧
    (n ≠ 0 → ∃ q r : Int,
      quotient = .ok (.item (.new (.int q))) ∧ remainder = .ok (.item (.new (.int r))) ∧
      q = Word.wrap (m.tdiv n) ∧ r = m.tmod n ∧
      (¬ (m = -9223372036854775808 ∧ n = -1) → q = m.tdiv n) ∧
      (m = -9223372036854775808 ∧ n = -1 → q = -9223372036854775808 ∧ r = 0) ∧
      r.natAbs < n.natAbs ∧ (r = 0 ∨ r.sign = m.sign) ∧
      (compute .multiply (.item (.new (.int q))) (.item divisor) >>= fun product =>
        compute .add product (.item (.new (.int r)))) = .ok (.item (.new (.int m)))) := by
  intro compute quotient remainder
  -- On single words an operator is one step, which traps for zero.
  have divided : quotient = (Domain.step (Word.arithmetic .divide) (.arithmetic .divide) m n).map _ :=
    diadic_words heap rfl isDividend isDivisor
  have left :
      remainder = (Domain.step (Word.arithmetic .remainder) (.arithmetic .remainder) m n).map _ :=
    diadic_words heap rfl isDividend isDivisor
  rw [Domain.step_division _ (.inl rfl)] at divided
  rw [Domain.step_division _ (.inr rfl)] at left
  refine ⟨fun zero => ?_, fun nonzero => ?_⟩
  · rw [if_pos zero] at divided left
    exact ⟨divided, left⟩
  · rw [if_neg nonzero, Word.arithmetic_divide m nonzero] at divided
    rw [if_neg nonzero, Word.arithmetic_remainder m nonzero] at left
    refine ⟨Word.wrap (m.tdiv n), m.tmod n, divided, left, rfl, rfl, ?_, ?_,
      Word.natAbs_tmod_lt m nonzero, Word.tmod_eq_zero_or_sign_eq m n, ?_⟩
    · intro fits
      exact Word.wrap_of_inRange (Word.tdiv_inRange inRange fits)
    · rintro ⟨rfl, rfl⟩
      exact ⟨by decide, by decide⟩
    · rw [diadic_multiply_add heap _ _ isDivisor, Word.wrap_quotient_mul_add_remainder inRange]

omit [NumericLibrary] in
/-- The least word divided by minus one is itself, and nothing is left over. -/
theorem division_law_least :
    letI : NumericLibrary := .standard
    let least : Copy := .new (.int (-9223372036854775808))
    let minusOne : Copy := .new (.int (-1))
    Word.InRange (-9223372036854775808) ∧
      diadic .empty (.arithmetic .divide) .int .int (.item least) (.item minusOne) =
        .ok (.item least) ∧
      diadic .empty (.arithmetic .remainder) .int .int (.item least) (.item minusOne) =
        .ok (.item (.new (.int 0))) := by
  let : NumericLibrary := .standard
  intro least minusOne
  have inRange : Word.InRange (-9223372036854775808) := by decide
  obtain ⟨q, r, divided, left, -, -, -, overflow, -⟩ :=
    (division_law .empty least minusOne (-9223372036854775808) (-1) rfl rfl inRange).2 (by decide)
  obtain ⟨rfl, rfl⟩ := overflow ⟨rfl, rfl⟩
  exact ⟨inRange, divided, left⟩

end Operation

end ArrayForks
