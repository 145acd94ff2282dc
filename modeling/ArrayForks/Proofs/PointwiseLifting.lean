import ArrayForks.Proofs.SingleSteps

/-! # Pointwise lifting

What a diadic operator makes of arrays. An array on either side lifts the operator to all elements, a
single number being paired with each of them; so the result has an element for each pair, and there is
none as soon as the operator fails for a single pair. Two arrays have to be of one length before
anything else matters. All this rests on a library whose operators on doubles are elementwise, as it
documents them (`NumericLibrary.IsElementwise`).

* **`diadic_eq_mapM`**: `diadic` of arrays is `mapM` of `diadic` at the component types along
  `leftContent.alongside length rightContent`.
* **`diadic_eq_error`**: it fails as soon as one pair does, and as this pair does.
* **`diadic_of_empty`**: what is left of this if there are no pairs. -/

namespace ArrayForks.Operation

variable [library : NumericLibrary] {heap : Heap} {op : DiadicOp} {leftType rightType : NumericType}
  {left right : Operand} {leftContent rightContent : Nested Copy}

/-- Words on the right that meet nothing are a trap only if there is one, and it is zero. -/
theorem trapOnRights?_of_empty (op : DiadicOp)
    (rightShown : Operand.Shows heap rightType right rightContent)
    (words : rightType.isFloating = false)
    (empty : rightType.isArray = true → rightContent.length = 0) :
    Domain.trapOnRights? op
        (rightContent.items.map fun copy => (Domain.Reads.number copy.value : Int)) =
      if rightContent.items.map Copy.value = [.int 0] ∧
          (op = .arithmetic .divide ∨ op = .arithmetic .remainder) then
        some op.zeroDivision
      else none := by
  have areNumbers := rightShown.areNumbers
  have flat := rightShown.flat
  cases single : rightType.isArray with
  | true =>
      rw [single] at flat
      cases flat with
      | list items =>
          have noItems : items = [] := by simpa using empty single
          rw [noItems]
          cases op <;> simp [Domain.trapOnRights?, Nested.items_ofList]
  | false =>
      rw [single] at flat
      cases flat with
      | item copy =>
          have isNumber := areNumbers copy List.mem_cons_self
          rw [words] at isNumber
          obtain ⟨n, isWord⟩ := (isNumber.fitsInto id).word
          have number : (Domain.Reads.number copy.value : Int) = n := by
            rw [isWord]
            rfl
          rw [Nested.items_item, List.map_singleton, List.map_singleton, number, isWord,
            Domain.trapOnRights?_word]
          simp only [List.cons.injEq, and_true, Value.int.injEq]

section

variable (numeric : op ≠ .concat) (arrays : (leftType.isArray || rightType.isArray) = true)
  (leftShown : Operand.Shows heap leftType left leftContent)
  (rightShown : Operand.Shows heap rightType right rightContent) {length : Nat}
  (leftLength : leftType.isArray = true → leftContent.length = length)
  (rightLength : rightType.isArray = true → rightContent.length = length)

include numeric leftShown rightShown leftLength rightLength

/-- An operator on arrays of one length computes in the domain that is wide enough for both
sides. -/
theorem diadic_eq_compute :
    diadic heap op leftType.static rightType.static left right =
      if leftType.isFloating || rightType.isFloating then
        Coerced.compute Float op leftContent rightContent
      else Coerced.compute Int op leftContent rightContent := by
  have same : ¬ (leftType.isArray && rightType.isArray &&
      leftContent.length != rightContent.length) = true := by
    rw [Bool.and_eq_true, Bool.and_eq_true, bne_iff_ne]
    rintro ⟨⟨leftArray, rightArray⟩, differ⟩
    exact differ ((leftLength leftArray).trans (rightLength rightArray).symm)
  rw [diadic_eq numeric leftShown rightShown, if_neg same, Coerced.apply_ofContents]

include arrays

/-- An operator on arrays is applied to one pair of elements after the other. -/
theorem diadic_eq_mapM (elementwise : library.IsElementwise) (positive : 0 < length) :
    diadic heap op leftType.static rightType.static left right =
      ((leftContent.alongside length rightContent).mapM fun pair =>
        diadic heap op leftType.component rightType.component (.item pair.1) (.item pair.2)).map
          .row := by
  have leftFlat := leftShown.flat
  have rightFlat := rightShown.flat
  have single : ∀ pair ∈ leftContent.alongside length rightContent,
      diadic heap op leftType.component rightType.component (.item pair.1) (.item pair.2) =
        if leftType.isFloating || rightType.isFloating then
          Coerced.compute Float op (.item pair.1) (.item pair.2)
        else Coerced.compute Int op (.item pair.1) (.item pair.2) := by
    intro pair isIn
    have both := leftFlat.mem_of_mem_alongside rightFlat positive isIn
    exact diadic_items numeric (leftShown.areNumbers _ both.1) (rightShown.areNumbers _ both.2)
  rw [diadic_eq_compute numeric leftShown rightShown leftLength rightLength, mapM_congr single]
  cases floating : leftType.isFloating || rightType.isFloating with
  | true =>
      exact Coerced.compute_eq_mapM numeric leftFlat rightFlat arrays leftLength rightLength
        positive (Domain.kernel?_doubles elementwise _ op)
  | false =>
      exact Coerced.compute_eq_mapM numeric leftFlat rightFlat arrays leftLength rightLength
        positive (Domain.kernel?_words _ op)

/-- A pair of elements on which an operator fails makes the whole fail in the same way. -/
theorem diadic_eq_error (elementwise : library.IsElementwise) (positive : 0 < length)
    {pair : Copy × Copy}
    (isIn : pair ∈ leftContent.alongside length rightContent) {failure : Failure}
    (failed : diadic heap op leftType.component rightType.component (.item pair.1) (.item pair.2) =
      .error failure) :
    failure = .runtime (.divisionByZero op.zeroDivision) none ∧
      diadic heap op leftType.static rightType.static left right = .error failure := by
  have alike : ∀ pair ∈ leftContent.alongside length rightContent, ∀ failure,
      diadic heap op leftType.component rightType.component (.item pair.1) (.item pair.2) =
        .error failure → failure = .runtime (.divisionByZero op.zeroDivision) none := by
    intro pair isIn failure failed
    have both := leftShown.flat.mem_of_mem_alongside rightShown.flat positive isIn
    rw [diadic_items numeric (leftShown.areNumbers _ both.1) (rightShown.areNumbers _ both.2)]
      at failed
    split at failed
    · exact Coerced.failure_of_compute_items numeric failed
    · exact Coerced.failure_of_compute_items numeric failed
  obtain rfl := alike pair isIn failure failed
  rw [diadic_eq_mapM numeric arrays leftShown rightShown leftLength rightLength elementwise positive,
    mapM_eq_error alike ⟨pair, isIn, failed⟩]
  exact ⟨rfl, rfl⟩

/-- Without elements there is no result, but a division of words still looks at a single divisor. -/
theorem diadic_of_empty (empty : length = 0) :
    diadic heap op leftType.static rightType.static left right =
      if (leftType.isFloating || rightType.isFloating) = false ∧
          rightContent.items.map Copy.value = [.int 0] ∧
          (op = .arithmetic .divide ∨ op = .arithmetic .remainder) then
        (RuntimeError.divisionByZero op.zeroDivision).raise
      else .ok (.row []) := by
  subst empty
  rw [diadic_eq_compute numeric leftShown rightShown leftLength rightLength]
  cases floating : leftType.isFloating || rightType.isFloating with
  | true =>
      rw [if_pos rfl, if_neg (by simp), Coerced.compute_of_empty numeric leftShown.flat
        rightShown.flat arrays leftLength rightLength, Domain.trapOnRights?_doubles]
  | false =>
      rw [if_neg Bool.false_ne_true, Coerced.compute_of_empty numeric leftShown.flat
        rightShown.flat arrays leftLength rightLength]
      rw [Bool.or_eq_false_iff] at floating
      rw [trapOnRights?_of_empty op rightShown floating.2 rightLength]
      by_cases byZero : rightContent.items.map Copy.value = [.int 0] ∧
          (op = .arithmetic .divide ∨ op = .arithmetic .remainder)
      · rw [if_pos byZero, if_pos ⟨rfl, byZero⟩]
      · rw [if_neg byZero, if_neg fun all => byZero all.2]

end

/-- **Pointwise lifting.** For `op ≠ .concat`, operands of `NumericType`s at least one of which is an
array, and an elementwise library:

* two arrays of different lengths give `.lengthMismatch leftContent.length rightContent.length`,
  whatever is in them;
* at a common length `n > 0`, where a single number is repeated `n` times, `diadic` is `mapM` of
  `diadic` at the component types along `leftContent.alongside n rightContent`, and a failure of any
  pair, which is `.divisionByZero op.zeroDivision`, is the failure of the whole;
* at `n = 0` it is the empty row, unless a word is to be divided by the single word zero. -/
theorem diadic_pointwise (elementwise : library.IsElementwise) (heap : Heap) (op : DiadicOp)
    (numeric : op ≠ .concat) (leftType rightType : NumericType)
    (arrays : (leftType.isArray || rightType.isArray) = true) (left right : Operand)
    (leftContent rightContent : Nested Copy)
    (leftShown : Operand.Shows heap leftType left leftContent)
    (rightShown : Operand.Shows heap rightType right rightContent) :
    (leftType.isArray = true → rightType.isArray = true →
      leftContent.length ≠ rightContent.length →
      diadic heap op leftType.static rightType.static left right =
        (RuntimeError.lengthMismatch leftContent.length rightContent.length).raise) ∧
    ∀ length, (leftType.isArray = true → leftContent.length = length) →
      (rightType.isArray = true → rightContent.length = length) →
      (0 < length →
        diadic heap op leftType.static rightType.static left right =
          ((leftContent.alongside length rightContent).mapM fun pair =>
            diadic heap op leftType.component rightType.component (.item pair.1)
              (.item pair.2)).map .row ∧
        ∀ pair ∈ leftContent.alongside length rightContent, ∀ failure,
          diadic heap op leftType.component rightType.component (.item pair.1) (.item pair.2) =
              .error failure →
            failure = .runtime (.divisionByZero op.zeroDivision) none ∧
            diadic heap op leftType.static rightType.static left right = .error failure) ∧
      (length = 0 →
        diadic heap op leftType.static rightType.static left right =
          if (leftType.isFloating || rightType.isFloating) = false ∧
              rightContent.items.map Copy.value = [.int 0] ∧
              (op = .arithmetic .divide ∨ op = .arithmetic .remainder) then
            (RuntimeError.divisionByZero op.zeroDivision).raise
          else .ok (.row [])) := by
  refine ⟨fun leftArray rightArray differ => ?_, fun length leftLength rightLength => ⟨?_, ?_⟩⟩
  · rw [diadic_eq numeric leftShown rightShown, leftArray, rightArray]
    exact if_pos (bne_iff_ne.mpr differ)
  · intro positive
    exact ⟨diadic_eq_mapM numeric arrays leftShown rightShown leftLength rightLength elementwise
      positive, fun pair isIn failure failed => diadic_eq_error numeric arrays leftShown rightShown
        leftLength rightLength elementwise positive isIn failed⟩
  · exact diadic_of_empty numeric arrays leftShown rightShown leftLength rightLength

omit library in
/-- A remainder by zero among others makes the whole row fail. -/
theorem diadic_pointwise_remainder :
    letI : NumericLibrary := .standard
    let lefts : List Copy := [.new (.int 7), .new (.int (-8)), .new (.int 9)]
    let rights : List Copy := [.new (.int 3), .new (.int 0), .new (.int 2)]
    NumericLibrary.standard.IsElementwise ∧
      Operand.Shows .empty ⟨true, false⟩ (.ofList lefts) (.ofList lefts) ∧
      Operand.Shows .empty ⟨true, false⟩ (.ofList rights) (.ofList rights) ∧
      diadic .empty (.arithmetic .remainder) (.array .int) (.array .int) (.ofList lefts)
        (.ofList rights) = .error (.runtime (.divisionByZero .remainder) none) := by
  intro lefts rights
  have leftShown : Operand.Shows .empty ⟨true, false⟩ (.ofList lefts) (.ofList lefts) :=
    .row rfl (by simp [lefts, Value.IsNumber])
  have rightShown : Operand.Shows .empty ⟨true, false⟩ (.ofList rights) (.ofList rights) :=
    .row rfl (by simp [rights, Value.IsNumber])
  refine ⟨NumericLibrary.standard_isElementwise, leftShown, rightShown, ?_⟩
  have lifted := @diadic_pointwise .standard NumericLibrary.standard_isElementwise .empty
    (.arithmetic .remainder) (by simp) ⟨true, false⟩ ⟨true, false⟩ rfl (.ofList lefts)
    (.ofList rights) (.ofList lefts) (.ofList rights) leftShown rightShown
  have pointwise := (lifted.2 3 (fun _ => rfl) fun _ => rfl).1 (by decide)
  exact (pointwise.2 (.new (.int (-8)), .new (.int 0)) (by decide)
    _ rfl).2

end ArrayForks.Operation
