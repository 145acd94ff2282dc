import ArrayForks.Proofs.Reductions
import Mathlib.Algebra.Order.Ring.Nat
import Mathlib.Algebra.Ring.Int.Defs
import Mathlib.Data.Int.Order.Basic
import Mathlib.Data.Nat.Cast.Basic
import Mathlib.Data.Nat.Factorial.Basic
import Mathlib.Logic.Function.Iterate

/-! # Factorials of words

The factorials of all elements of an array are worked out in one loop, with a factor for each round.
The loop goes on up to the greatest of the elements, or up to the least number whose factorial is zero
modulo `2 ^ 64`, and every element takes up the factors as far as itself. So there are no more rounds
than that number has factors, and yet each element that is below it meets all factors of its own. What
comes out is the exact factorial wrapped once, whatever the other elements are. -/

namespace ArrayForks

namespace Word

/-- The word of the exact factorial of a number, where a number below two has the factorial one. -/
def factorialWord (n : Int) : Int :=
  if n ≤ 1 then 1 else wrap n.toNat.factorial

/-- The word of a factorial is also that of the natural number which a negative one is cut to. -/
theorem factorialWord_eq (n : Int) : factorialWord n = wrap n.toNat.factorial := by
  rw [factorialWord]
  split
  · next small =>
      have one : n.toNat.factorial = 1 := Nat.factorial_eq_one.mpr (by omega)
      rw [one]
      rfl
  · rfl

/-! ### Rounds for one number -/

/-- The product for a number after several rounds, which holds the factors up to the number. -/
def partialFactorial (rounds : Nat) (n : Int) : Int :=
  (List.range' 2 rounds).foldl
    (fun product (factor : Nat) => if factor ≤ n then wrap (product * factor) else product) 1

/-- A factorial is the product after all rounds, unless it is known to be zero. -/
theorem factorial_eq_partialFactorial (rounds : Nat) (n : Int) :
    factorial rounds n = if factorialZeroFrom ≤ n then 0 else partialFactorial rounds n :=
  rfl

/-- A round takes up one factor, if the number is as large. -/
theorem partialFactorial_succ (rounds : Nat) (n : Int) :
    partialFactorial (rounds + 1) n =
      if ((rounds + 2 : Nat) : Int) ≤ n then wrap (partialFactorial rounds n * (rounds + 2 : Nat))
      else partialFactorial rounds n := by
  rw [partialFactorial, List.range'_1_concat, List.foldl_append, Nat.add_comm 2 rounds]
  rfl

/-- After several rounds the product is the factorial of the number, or of the last factor so far. -/
theorem partialFactorial_eq (rounds : Nat) (n : Int) :
    partialFactorial rounds n = wrap (min n.toNat (rounds + 1)).factorial := by
  induction rounds with
  | zero =>
      have one : (min n.toNat 1).factorial = 1 := Nat.factorial_eq_one.mpr (min_le_right _ _)
      rw [one]
      rfl
  | succ rounds inductionHypothesis =>
      rw [partialFactorial_succ, inductionHypothesis]
      split
      · next taken =>
          have before : min n.toNat (rounds + 1) = rounds + 1 := by omega
          have after : min n.toNat (rounds + 1 + 1) = rounds + 2 := by omega
          rw [before, after, Nat.factorial_succ (rounds + 1), wrap_mul_left, Nat.cast_mul, mul_comm]
      · next left =>
          have same : min n.toNat (rounds + 1 + 1) = min n.toNat (rounds + 1) := by omega
          rw [same]

/-- Factorials from that of sixty-six on are zero as words. -/
theorem wrap_factorial_eq_zero {n : Nat} (large : factorialZeroFrom ≤ n) :
    wrap n.factorial = 0 := by
  have divides : 18446744073709551616 ∣ n.factorial :=
    Nat.dvd_trans (by decide) (Nat.factorial_dvd_factorial large)
  exact Int.bmod_eq_zero_of_dvd (Int.natCast_dvd_natCast.mpr divides)

/-- With rounds for all factors of a number whose factorial is not known to be zero, its factorial is
the exact one. -/
theorem factorial_eq_factorialWord {rounds : Nat} {n : Int}
    (enough : n < factorialZeroFrom → n.toNat ≤ rounds + 1) :
    factorial rounds n = factorialWord n := by
  rw [factorial_eq_partialFactorial, factorialWord_eq]
  split
  · next large => exact (wrap_factorial_eq_zero (by omega)).symm
  · next small => rw [partialFactorial_eq, Nat.min_eq_left (enough (Int.not_le.mp small))]

/-! ### The loop for several numbers -/

/-- How far the loop has come that works out the factorials of several numbers. -/
structure FactorialLoop where
  /-- The factor of the next round. -/
  factor : Nat
  /-- The product so far for each number. -/
  products : List Int

namespace FactorialLoop

/-- Before the first round, the factor is two and no factor has been taken up. -/
def start (numbers : List Int) : FactorialLoop :=
  ⟨2, numbers.map fun _ => 1⟩

/-- There is another round as long as the factor is neither above the greatest number nor above the
least one whose factorial is zero. -/
def GoesOn (numbers : List Int) (loop : FactorialLoop) : Prop :=
  ∃ greatest, numbers.max? = some greatest ∧ (loop.factor : Int) ≤ min greatest factorialZeroFrom

/-- A round takes up the factor for each number that is as large. -/
def round (numbers : List Int) (loop : FactorialLoop) : FactorialLoop :=
  ⟨loop.factor + 1, numbers.zipWith
    (fun (n product : Int) =>
      if loop.factor ≤ n then wrap (product * loop.factor) else product) loop.products⟩

/-- Several rounds. -/
def after (numbers : List Int) (rounds : Nat) : FactorialLoop :=
  (round numbers)^[rounds] (start numbers)

/-- What the loop gives for each number, which is its product unless its factorial is zero. -/
def results (numbers : List Int) (loop : FactorialLoop) : List Int :=
  numbers.zipWith (fun (n product : Int) => if factorialZeroFrom ≤ n then 0 else product)
    loop.products

/-- After several rounds, the loop holds the product for each number by itself. -/
theorem after_eq (numbers : List Int) (rounds : Nat) :
    after numbers rounds = ⟨rounds + 2, numbers.map (partialFactorial rounds)⟩ := by
  induction rounds with
  | zero => rfl
  | succ rounds inductionHypothesis =>
      have next : after numbers (rounds + 1) = round numbers (after numbers rounds) :=
        Function.iterate_succ_apply' _ _ _
      have taken : partialFactorial (rounds + 1) = fun n : Int =>
          if ((rounds + 2 : Nat) : Int) ≤ n then wrap (partialFactorial rounds n * (rounds + 2 : Nat))
          else partialFactorial rounds n := funext (partialFactorial_succ rounds)
      rw [next, inductionHypothesis, round, List.zipWith_map_right, List.zipWith_self, taken]

/-- The loop gives the factorials in as many rounds as it was run. -/
theorem results_after (numbers : List Int) (rounds : Nat) :
    (after numbers rounds).results numbers = numbers.map (factorial rounds) := by
  rw [after_eq, results, List.zipWith_map_right, List.zipWith_self]
  rfl

/-- The rounds come to the greatest of several numbers, or to the least one whose factorial is zero,
from the factor two on. -/
theorem factorialRounds_eq (numbers : List Int) :
    factorialRounds numbers = min (numbers.max?.getD 0).toNat factorialZeroFrom - 1 := by
  have sameGreatest : (max 0 (numbers.max?.getD 0)).toNat = (numbers.max?.getD 0).toNat := by omega
  rw [factorialRounds, List.foldl_max, sameGreatest]

/-- The loop goes on until the rounds are over. -/
theorem goesOn_after_iff (numbers : List Int) (rounds : Nat) :
    GoesOn numbers (after numbers rounds) ↔ rounds < factorialRounds numbers := by
  rw [after_eq, GoesOn, factorialRounds_eq]
  cases numbers.max? with
  | none => simp
  | some greatest =>
      simp only [Option.some.injEq, exists_eq_left', Option.getD_some, factorialZeroFrom]
      omega

/-- There are at most sixty-five rounds. -/
theorem factorialRounds_le (numbers : List Int) : factorialRounds numbers ≤ 65 := by
  rw [factorialRounds_eq, factorialZeroFrom]
  omega

/-- There are rounds for all factors of each number whose factorial is not known to be zero. -/
theorem toNat_le_factorialRounds {numbers : List Int} {n : Int} (isIn : n ∈ numbers)
    (small : n < factorialZeroFrom) : n.toNat ≤ factorialRounds numbers + 1 := by
  obtain ⟨greatest, isGreatest⟩ := Option.isSome_iff_exists.mp (List.isSome_max?_of_mem isIn)
  have below : n ≤ greatest := (List.max?_le_iff isGreatest).mp le_rfl n isIn
  rw [factorialRounds_eq, isGreatest, Option.getD_some]
  rw [factorialZeroFrom] at small ⊢
  omega

/-- Each number of several gets its exact factorial. -/
theorem map_factorial (numbers : List Int) :
    numbers.map (factorial (factorialRounds numbers)) = numbers.map factorialWord :=
  List.map_congr_left fun _ isIn =>
    factorial_eq_factorialWord (toNat_le_factorialRounds isIn)

end FactorialLoop

end Word

namespace Operation

variable [NumericLibrary]

/-- Each element of a row gets the word of its exact factorial. -/
theorem pointwise_factorial_ofList {numbers : List Int} (nonempty : numbers ≠ []) :
    Domain.pointwise .factorial (.ofList numbers) =
      .ok (.ofList (numbers.map Word.factorialWord)) := by
  rw [Domain.pointwise, Nested.items_ofList, if_neg (by simpa using nonempty), Nested.map_ofList,
    ← Word.FactorialLoop.map_factorial]
  rfl

/-- A single number gets the word of its exact factorial. -/
theorem pointwise_factorial_item (n : Int) :
    Domain.pointwise .factorial (.item n) = .ok (.item (Word.factorialWord n)) := by
  have results := Word.FactorialLoop.map_factorial [n]
  rw [← (List.cons.inj results).1]
  rfl

/-- The factorials of an array. -/
theorem monadic_factorial_array {heap : Heap} {operand : Operand} {items : List Copy}
    {numbers : List Int} (shown : Operand.Shows heap ⟨true, false⟩ operand (.ofList items))
    (areWords : items.map Copy.value = numbers.map .int) :
    monadic heap (.pointwise .factorial) (.array .int) operand =
      .ok (.ofList (numbers.map fun n => .new (.int (Word.factorialWord n)))) := by
  have read : (items.map fun item => (Domain.Reads.number item.value : Int)) = numbers := by
    have values := congrArg (List.map Word.number) areWords
    rw [List.map_map, List.map_map] at values
    exact values.trans (List.map_id numbers)
  have reduced : reduce Int (.pointwise .factorial) items =
      .ok (.ofList (numbers.map Word.factorialWord)) := by
    rw [reduce, read]
    cases items with
    | nil =>
        rw [← read]
        rfl
    | cons item items =>
        have nonempty : numbers ≠ [] := by
          rw [← read]
          simp
        rw [if_neg (by simp), onNumbers, pointwise_factorial_ofList nonempty]
  rw [monadic_words (by simp) (by simp) shown, reduced, Except.map, Operand.ofNumbers,
    Nested.map_ofList, List.map_map]
  rfl

/-- The factorial of a single number. -/
theorem monadic_factorial_number (heap : Heap) {copy : Copy} {n : Int}
    (isWord : copy.value = .int n) :
    monadic heap (.pointwise .factorial) .int (.item copy) =
      .ok (.item (.new (.int (Word.factorialWord n)))) := by
  have fits : copy.value.FitsInto false := by
    rw [isWord]
    exact ⟨false, rfl, id⟩
  change onNumber Int heap (.pointwise .factorial) (.item copy) = _
  rw [onNumber_eq _ fits, isWord]
  change (Domain.pointwise .factorial (.item n)).map Operand.ofNumbers = _
  rw [pointwise_factorial_item]
  rfl

/-- **Factorials of words are exact modulo `2 ^ 64`, each by itself.**

* The factorials of an array of `numbers` are `numbers.map Word.factorialWord`, and that of a single
  number `n` is `Word.factorialWord n`: the exact factorial wrapped once, and one for `n < 2`.
* The loop that works them out for several numbers stops after some `rounds ≤ 65`: it `GoesOn` after
  each earlier number of rounds and not after these, `rounds = Word.factorialRounds numbers`, and
  its results are `numbers.map (Word.factorial rounds)`. -/
theorem factorials_exact (heap : Heap) (numbers : List Int) :
    (∀ (operand : Operand) (items : List Copy),
      Operand.Shows heap ⟨true, false⟩ operand (.ofList items) →
      items.map Copy.value = numbers.map .int →
      monadic heap (.pointwise .factorial) (.array .int) operand =
        .ok (.ofList (numbers.map fun n => .new (.int (Word.factorialWord n))))) ∧
    (∀ (copy : Copy) (n : Int), copy.value = .int n →
      monadic heap (.pointwise .factorial) .int (.item copy) =
        .ok (.item (.new (.int (Word.factorialWord n))))) ∧
    ∃ rounds ≤ 65,
      (∀ earlier < rounds, Word.FactorialLoop.GoesOn numbers (.after numbers earlier)) ∧
      ¬ Word.FactorialLoop.GoesOn numbers (.after numbers rounds) ∧
      rounds = Word.factorialRounds numbers ∧
      (Word.FactorialLoop.after numbers rounds).results numbers =
        numbers.map (Word.factorial rounds) := by
  have goesOn (rounds : Nat) := Word.FactorialLoop.goesOn_after_iff numbers rounds
  refine ⟨fun operand items shown areWords => monadic_factorial_array shown areWords,
    fun copy n isWord => monadic_factorial_number heap isWord, Word.factorialRounds numbers, ?_⟩
  refine ⟨Word.FactorialLoop.factorialRounds_le numbers,
    fun earlier before => (goesOn earlier).mpr before,
    fun another => Nat.lt_irrefl _ ((goesOn _).mp another), rfl, ?_⟩
  exact Word.FactorialLoop.results_after numbers _

omit [NumericLibrary] in
/-- Beside a number whose factorial is zero and a negative one, the factorial of twenty-one is beyond
the words and that of five is not; and that of twenty-one by itself is the same. -/
theorem factorials_exact_mixed :
    letI : NumericLibrary := .standard
    let items : List Copy :=
      [.new (.int 5), .new (.int 9223372036854775807), .new (.int (-3)), .new (.int 21)]
    Operand.Shows .empty ⟨true, false⟩ (.ofList items) (.ofList items) ∧
      monadic .empty (.pointwise .factorial) (.array .int) (.ofList items) =
        .ok (.ofList [.new (.int 120), .new (.int 0), .new (.int 1),
          .new (.int (-4249290049419214848))]) ∧
      monadic .empty (.pointwise .factorial) .int (.item (.new (.int 21))) =
        .ok (.item (.new (.int (-4249290049419214848)))) := by
  let : NumericLibrary := .standard
  intro items
  have shown : Operand.Shows .empty ⟨true, false⟩ (.ofList items) (.ofList items) :=
    .row rfl (by simp [items, Value.IsNumber])
  obtain ⟨ofArray, ofNumber, -⟩ := factorials_exact .empty [5, 9223372036854775807, -3, 21]
  have row := ofArray (.ofList items) items shown rfl
  have single := ofNumber (.new (.int 21)) 21 rfl
  have zero : Word.factorialWord 9223372036854775807 = 0 := by
    rw [Word.factorialWord_eq]
    exact Word.wrap_factorial_eq_zero (by decide)
  have large : Word.factorialWord 21 = -4249290049419214848 := by decide
  have five : Word.factorialWord 5 = 120 := by decide
  have one : Word.factorialWord (-3) = 1 := by decide
  simp only [List.map_cons, List.map_nil, zero, large, five, one] at row
  rw [large] at single
  exact ⟨shown, row, single⟩

end Operation

end ArrayForks
