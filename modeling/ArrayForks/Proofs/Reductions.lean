import ArrayForks.Proofs.SingleSteps

/-! # Reductions

An operator that reduces an array comes to the same as a diadic operator between its elements, from
the right. A fold starts from the last element, and a test whether all or any elements hold starts
from the truth value of no elements. The fold of an array works on all elements before it asks whether
it ever divided by zero, while single divisions stop at the first zero; still, one fails where the
other does, as either depends only on the results so far that become divisors.

* **`Domain.foldRight?_append_singleton`**: `init.foldrM (foldStep op) last` has the result of
  `foldRight? op (init ++ [last])`, unless the fold traps and its flag is set.
* **`Domain.foldrM_foldStep_fails_iff`**: it fails if and only if the operator traps and its
  result from some place on is zero.
* **`foldBetween_eq`**: the steps are `diadic` between the elements. -/

namespace ArrayForks

/-! ### Folds of numbers -/

namespace Domain

/-- A domain in which folds trap where single steps do, and whose numbers are told apart by their
values. -/
class FoldsBySteps (α : Type) [Domain α] [Reads α] : Prop where
  /-- A number is read back from its value. -/
  number_toValue (n : α) : Reads.number (toValue n) = n
  /-- A number that is read has the value that it is read from. -/
  toValue_number {value : Value} (isNumber : value.IsNumber (Reads.floating α)) :
    toValue (Reads.number value : α) = value
  /-- A step of a fold traps only on a zero that a trapping fold divides by. -/
  trap?_fold (op : Fold) (left right : α) :
    trap? (.arithmetic op.arithmetic) left right =
      if isZero right && foldTraps α op then some .divide else none
  /-- The folds that trap are the quotients of words. -/
  foldTraps_iff (op : Fold) :
    foldTraps α op = true ↔ Reads.floating α = false ∧ op = .quotient
  /-- Among words there is one zero. -/
  isZero_iff (words : Reads.floating α = false) (n : α) : isZero n = true ↔ toValue n = .int 0
  /-- A truth value counts as true if it is. -/
  isTrue_ofBool (b : Bool) : isTrue (ofBool b : α) = b
  /-- The value of a truth value. -/
  toValue_ofBool (b : Bool) : toValue (ofBool b : α) = .truth (Reads.floating α) b

instance [NumericLibrary] : FoldsBySteps Int where
  number_toValue n := rfl
  toValue_number {value} isNumber := by
    cases value with
    | int n => rfl
    | _ => cases isNumber
  trap?_fold op left right := by
    by_cases zero : right = 0
    · cases op <;>
        simp [trap?, trapOnRights?, trapOnPairs?, trapsOn?, trapsOnPair?, Word.trapsOn?,
          Word.trapsOnPair?, Fold.arithmetic, foldTraps, zero]
    · cases op <;>
        simp [trap?, trapOnRights?, trapOnPairs?, trapsOn?, trapsOnPair?, Word.trapsOn?,
          Word.trapsOnPair?, Fold.arithmetic, foldTraps, zero]
  foldTraps_iff op := by simp [foldTraps, Reads.floating]
  isZero_iff words n := by simp [toValue]
  isTrue_ofBool b := by cases b <;> rfl
  toValue_ofBool b := by cases b <;> rfl

instance [NumericLibrary] : FoldsBySteps Float where
  number_toValue x := rfl
  toValue_number {value} isNumber := by
    cases value with
    | float x => rfl
    | _ => cases isNumber
  trap?_fold op left right := by
    have noTrap : foldTraps Float op = false := rfl
    rw [trap?, trapOnRights?_doubles, trapOnPairs?_doubles, noTrap, Bool.and_false]
    rfl
  foldTraps_iff op := by simp [foldTraps, Reads.floating]
  isZero_iff words := by cases words
  isTrue_ofBool := Floating.isTrue_ofBool
  toValue_ofBool b := by cases b <;> rfl

variable {α : Type} [Domain α] [Reads α] [FoldsBySteps α]

/-- One step of a fold. -/
def foldStep (op : Fold) : α → α → Except Failure α :=
  step (arithmetic op.arithmetic) (.arithmetic op.arithmetic)

/-- One step of a fold traps where its right operand is zero, if the operator traps at all. -/
theorem foldStep_eq (op : Fold) (left right : α) :
    foldStep op left right =
      if isZero right && foldTraps α op then (RuntimeError.divisionByZero .divide).raise
      else .ok (arithmetic op.arithmetic left right) := by
  rw [foldStep, step, FoldsBySteps.trap?_fold]
  cases isZero right && foldTraps α op with
  | true => rfl
  | false => rfl

/-- Folding all numbers with a flag for zeros gives the result of the single steps, unless the fold
traps and the flag is set. -/
theorem foldRight?_append_singleton (op : Fold) (init : List α) (last : α) :
    ∃ result hitZero, foldRight? op (init ++ [last]) = some (result, hitZero) ∧
      init.foldrM (foldStep op) last =
        if hitZero && foldTraps α op then (RuntimeError.divisionByZero .divide).raise
        else .ok result := by
  -- The induction is on the numbers before the last one: the flag tells of zeros among the results
  -- that have become divisors so far, and the steps tell the same by having failed.
  induction init with
  | nil => exact ⟨last, false, rfl, rfl⟩
  | cons first init inductionHypothesis =>
      obtain ⟨result, hitZero, folded, stepped⟩ := inductionHypothesis
      refine ⟨arithmetic op.arithmetic first result, hitZero || isZero result, ?_, ?_⟩
      · rw [List.cons_append, foldRight?_cons, folded]
      · rw [List.foldrM_cons, stepped]
        cases traps : foldTraps α op with
        | false =>
            rw [Bool.and_false, Bool.and_false]
            change foldStep op first result = _
            rw [foldStep_eq, traps, Bool.and_false]
        | true =>
            -- Once set, the flag stays set; the steps have stopped there.
            cases hitZero with
            | true => rfl
            | false =>
                change foldStep op first result = _
                rw [foldStep_eq, traps, Bool.false_or]

/-- A further step fails if the steps before it do, or if it divides by their result. -/
theorem foldrM_foldStep_cons_fails_iff (op : Fold) (first : α) (init : List α) (last : α) :
    (∃ failure, (first :: init).foldrM (foldStep op) last = .error failure) ↔
      (∃ failure, init.foldrM (foldStep op) last = .error failure) ∨
        foldTraps α op = true ∧
          ∃ result, init.foldrM (foldStep op) last = .ok result ∧ isZero result = true := by
  rw [List.foldrM_cons]
  cases init.foldrM (foldStep op) last with
  | error failure =>
      have failed : (Except.error failure : Except Failure α) = .error failure := rfl
      exact ⟨fun _ => .inl ⟨failure, failed⟩, fun _ => ⟨failure, failed⟩⟩
  -- The rest has a result, so only the step with the first number can fail.
  | ok result =>
      change (∃ failure, foldStep op first result = .error failure) ↔ _
      rw [foldStep_eq]
      constructor
      · rintro ⟨failure, failed⟩
        split at failed
        · next zero =>
            rw [Bool.and_eq_true] at zero
            exact .inr ⟨zero.2, result, rfl, zero.1⟩
        · cases failed
      · rintro (⟨failure, failed⟩ | ⟨traps, other, same, zero⟩)
        · cases failed
        · cases same
          rw [if_pos (Bool.and_eq_true_iff.mpr ⟨zero, traps⟩)]
          exact ⟨_, rfl⟩

/-- Single steps fail if and only if the fold traps, and the result of some of them is a zero that
becomes a divisor. -/
theorem foldrM_foldStep_fails_iff (op : Fold) (init : List α) (last : α) :
    (∃ failure, init.foldrM (foldStep op) last = .error failure) ↔
      foldTraps α op = true ∧ ∃ place, 0 < place ∧ place ≤ init.length ∧
        ∃ result, (init.drop place).foldrM (foldStep op) last = .ok result ∧
          isZero result = true := by
  induction init with
  | nil =>
      constructor
      · rintro ⟨failure, failed⟩
        cases failed
      · rintro ⟨-, place, positive, bounded, -⟩
        rw [List.length_nil] at bounded
        omega
  | cons first init inductionHypothesis =>
      rw [foldrM_foldStep_cons_fails_iff, inductionHypothesis, List.length_cons]
      constructor
      · rintro (⟨traps, place, positive, bounded, zero⟩ | ⟨traps, zero⟩)
        · exact ⟨traps, place + 1, by omega, by omega, zero⟩
        · exact ⟨traps, 1, by omega, by omega, zero⟩
      · rintro ⟨traps, place, positive, bounded, zero⟩
        -- The zero is what this step divides by, or what an earlier one does.
        by_cases here : place = 1
        · rw [here, List.drop_succ_cons, List.drop_zero] at zero
          exact .inr ⟨traps, zero⟩
        · obtain ⟨earlier, rfl⟩ : ∃ earlier, place = earlier + 1 := ⟨place - 1, by omega⟩
          exact .inl ⟨traps, earlier, by omega, by omega, zero⟩

/-- Steps of a connective from the truth value of no numbers test all of them. -/
theorem foldrM_connective (op : Quantifier) (numbers : List α) :
    numbers.foldrM (step (fun left right => ofBool (connect op.connective left right))
        (.connective op.connective)) (ofBool (op = .all)) =
      .ok (ofBool (test op numbers)) := by
  induction numbers with
  | nil => cases op <;> rfl
  | cons number numbers inductionHypothesis =>
      rw [List.foldrM_cons, inductionHypothesis]
      change Except.ok (ofBool (connect op.connective number (ofBool (test op numbers)))) = _
      cases op with
      | all => simp [connect, test, Quantifier.connective, FoldsBySteps.isTrue_ofBool]
      | any => simp [connect, test, Quantifier.connective, FoldsBySteps.isTrue_ofBool]

end Domain

/-! ### Folds of operands -/

/-- Results that become the same are failures of one reason or values that become the same. -/
theorem eq_error_or_ok_of_map_eq {ε α β γ : Type} {left : Except ε α} {right : Except ε β}
    {f : α → γ} {g : β → γ} (same : left.map f = right.map g) :
    (∃ failure, left = .error failure ∧ right = .error failure) ∨
      ∃ value value', left = .ok value ∧ right = .ok value' ∧ f value = g value' := by
  cases left with
  | error failure =>
      cases right with
      | error other =>
          cases same
          exact .inl ⟨failure, rfl, rfl⟩
      | ok value' => cases same
  | ok value =>
      cases right with
      | error failure => cases same
      | ok value' => exact .inr ⟨value, value', rfl, rfl, Except.ok.inj same⟩

/-- Results that become the same fail together. -/
theorem fails_iff_of_map_eq {ε α β γ : Type} {left : Except ε α} {right : Except ε β}
    {f : α → γ} {g : β → γ} (same : left.map f = right.map g) :
    (∃ failure, left = .error failure) ↔ ∃ failure, right = .error failure := by
  rcases eq_error_or_ok_of_map_eq same with ⟨failure, rfl, rfl⟩ | ⟨value, value', rfl, rfl, -⟩
  · exact ⟨fun _ => ⟨failure, rfl⟩, fun _ => ⟨failure, rfl⟩⟩
  · constructor
    · rintro ⟨failure, failed⟩
      cases failed
    · rintro ⟨failure, failed⟩
      cases failed

/-- An operand with a single value is a copy of it. -/
theorem Operand.eq_item_of_values {operand : Operand} {value : Value}
    (single : operand.values = .item value) : ∃ copy, operand = .item copy ∧ copy.value = value := by
  cases operand with
  | item copy => exact ⟨copy, rfl, Nested.item.inj single⟩
  | row parts => cases single

namespace Operation

variable [NumericLibrary]

/-- Put a diadic operator between items of a type, from the right, up to a first result. -/
def foldBetween (heap : Heap) (op : DiadicOp) (type : StaticType) (items : List Copy)
    (start : Copy) : Except Failure Operand :=
  items.foldrM (fun item result => diadic heap op type type (.item item) result) (.item start)

omit [NumericLibrary] in
/-- A test of a domain tells whether all or any of its numbers are other than zero. -/
theorem reduce_quantifier_eq {α : Type} [Domain α] [Domain.Reads α] (op : Quantifier)
    (copies : List Copy) :
    reduce α (.quantifier op) copies =
      .ok (.item (Domain.ofBool (Domain.test op
        (copies.map fun copy => (Domain.Reads.number copy.value : α))))) := by
  cases copies with
  | nil => rfl
  | cons copy copies => rw [reduce, if_neg (by simp), onNumbers, Nested.items_ofList]

/-- A domain in which the operators on numbers of its type are worked out. -/
class WorksIn (α : Type) [Domain α] [Domain.Reads α] : Prop where
  /-- A diadic operator on two numbers. -/
  diadic_items (heap : Heap) {op : DiadicOp} (numeric : op ≠ .concat) {left right : Copy}
    (leftNumber : left.value.IsNumber (Domain.Reads.floating α))
    (rightNumber : right.value.IsNumber (Domain.Reads.floating α)) :
    diadic heap op (NumericType.component ⟨true, Domain.Reads.floating α⟩)
        (NumericType.component ⟨true, Domain.Reads.floating α⟩) (.item left) (.item right) =
      Coerced.compute α op (.item left) (.item right)
  /-- A monadic operator that reads all numbers of an array. -/
  monadic_array {heap : Heap} {op : MonadicOp} (notLast : op ≠ .last) (notCount : op ≠ .count)
    {operand : Operand} {items : List Copy}
    (shown : Operand.Shows heap ⟨true, Domain.Reads.floating α⟩ operand (.ofList items)) :
    monadic heap op (NumericType.static ⟨true, Domain.Reads.floating α⟩) operand =
      (reduce α op items).map Operand.ofNumbers

instance : WorksIn Int where
  diadic_items heap {op} numeric {left right} leftNumber rightNumber :=
    @Operation.diadic_items _ heap op ⟨true, false⟩ ⟨true, false⟩ numeric left right leftNumber
      rightNumber
  monadic_array {heap op} notLast notCount {operand items} shown := by
    have reduced := onArray_eq notLast notCount rfl shown
    rw [Nested.items_ofList] at reduced
    exact reduced

instance : WorksIn Float where
  diadic_items heap {op} numeric {left right} leftNumber rightNumber :=
    @Operation.diadic_items _ heap op ⟨true, true⟩ ⟨true, true⟩ numeric left right leftNumber
      rightNumber
  monadic_array {heap op} notLast notCount {operand items} shown := by
    have reduced := onArray_eq notLast notCount rfl shown
    rw [Nested.items_ofList] at reduced
    exact reduced

/-- A monadic operator that reads all numbers of an array of words. -/
theorem monadic_words {heap : Heap} {op : MonadicOp} (notLast : op ≠ .last) (notCount : op ≠ .count)
    {operand : Operand} {items : List Copy}
    (shown : Operand.Shows heap ⟨true, false⟩ operand (.ofList items)) :
    monadic heap op (.array .int) operand = (reduce Int op items).map Operand.ofNumbers :=
  WorksIn.monadic_array (α := Int) notLast notCount shown

section

variable {α : Type} [Domain α] [Domain.Reads α] [Domain.FoldsBySteps α]

omit [NumericLibrary] in
/-- A fold of a domain gives what the steps between its numbers give, and a division by zero of its
own where these fail. -/
theorem reduce_fold_eq (op : Fold) (init : List Copy) (last : Copy) :
    reduce α (.fold op) (init ++ [last]) =
      (((init.map fun item => (Domain.Reads.number item.value : α)).foldrM (Domain.foldStep op)
        (Domain.Reads.number last.value)).map Nested.item).mapError
          fun _ => .runtime (.divisionByZero .fold) none := by
  obtain ⟨result, hitZero, folded, stepped⟩ := Domain.foldRight?_append_singleton op
    (init.map fun item => (Domain.Reads.number item.value : α)) (Domain.Reads.number last.value)
  rw [reduce, if_neg (by simp), List.map_append, List.map_singleton, Nested.ofList, onNumbers,
    Nested.flat?_map_item]
  dsimp only
  rw [folded, stepped]
  dsimp only
  cases hitZero && Domain.foldTraps α op with
  | true => rfl
  | false => rfl

variable [WorksIn α] {heap : Heap}

/-- Between several numbers an operator works step by step in their domain. -/
theorem foldBetween_eq {op : DiadicOp} {kernel : α → α → α} (numeric : op ≠ .concat)
    (isKernel : Domain.kernel? false op = some kernel) {items : List Copy} {start : Copy}
    (areNumbers : ∀ item ∈ items, item.value.IsNumber (Domain.Reads.floating α))
    (isNumber : start.value.IsNumber (Domain.Reads.floating α)) :
    (foldBetween heap op (NumericType.component ⟨true, Domain.Reads.floating α⟩) items start).map
        Operand.values =
      ((items.map fun item => (Domain.Reads.number item.value : α)).foldrM
        (Domain.step kernel op) (Domain.Reads.number start.value)).map
          fun number => .item (Domain.toValue number) := by
  induction items with
  | nil =>
      change Except.ok (Nested.item start.value) = .ok (.item _)
      rw [Domain.FoldsBySteps.toValue_number isNumber]
  | cons item items inductionHypothesis =>
      have rest := inductionHypothesis fun other inRest =>
        areNumbers other (List.mem_cons_of_mem _ inRest)
      rw [foldBetween] at rest ⊢
      rw [List.map_cons, List.foldrM_cons, List.foldrM_cons]
      -- The items so far were put together without a trap, or there is none on either side.
      rcases eq_error_or_ok_of_map_eq rest with ⟨failure, folded, stepped⟩ |
        ⟨operand, number, folded, stepped, sameValue⟩
      · rw [folded, stepped]
        rfl
      · obtain ⟨copy, rfl, isResult⟩ := Operand.eq_item_of_values sameValue
        have isNumber : copy.value.IsNumber (Domain.Reads.floating α) := by
          rw [isResult]
          exact Domain.Reads.isNumber_toValue number
        rw [folded, stepped]
        change (diadic heap op _ _ (.item item) (.item copy)).map Operand.values =
          (Domain.step kernel op (Domain.Reads.number item.value) number).map _
        rw [WorksIn.diadic_items heap numeric (areNumbers item List.mem_cons_self) isNumber,
          Coerced.compute_items isKernel, isResult, Domain.FoldsBySteps.number_toValue]
        cases Domain.step kernel op (Domain.Reads.number item.value) number with
        | error failure => rfl
        | ok result => rfl

/-- The operator of a fold works step by step between several numbers and a last one. -/
theorem foldBetween_fold_eq (heap : Heap) (op : Fold) {init : List Copy} {last : Copy}
    (areNumbers : ∀ item ∈ init ++ [last], item.value.IsNumber (Domain.Reads.floating α)) :
    (foldBetween heap (.arithmetic op.arithmetic)
        (NumericType.component ⟨true, Domain.Reads.floating α⟩) init last).map Operand.values =
      ((init.map fun item => (Domain.Reads.number item.value : α)).foldrM (Domain.foldStep op)
        (Domain.Reads.number last.value)).map fun number => .item (Domain.toValue number) :=
  foldBetween_eq (by simp) rfl (fun item isIn => areNumbers item (List.mem_append_left _ isIn))
    (areNumbers last (List.mem_append_right _ List.mem_cons_self))

/-- A fold has the value of its operator between the elements, from the last one on, and fails where
one of these does. -/
theorem fold_eq_foldBetween (op : Fold) {operand : Operand} {init : List Copy} {last : Copy}
    (shown : Operand.Shows heap ⟨true, Domain.Reads.floating α⟩ operand (.ofList (init ++ [last])))
    (areNumbers : ∀ item ∈ init ++ [last], item.value.IsNumber (Domain.Reads.floating α)) :
    (monadic heap (.fold op) (NumericType.static ⟨true, Domain.Reads.floating α⟩) operand).map
        Operand.values =
      ((foldBetween heap (.arithmetic op.arithmetic)
        (NumericType.component ⟨true, Domain.Reads.floating α⟩) init last).map
          Operand.values).mapError fun _ => .runtime (.divisionByZero .fold) none := by
  rw [WorksIn.monadic_array (by simp) (by simp) shown, reduce_fold_eq,
    foldBetween_fold_eq heap op areNumbers]
  cases (init.map fun item => (Domain.Reads.number item.value : α)).foldrM (Domain.foldStep op)
      (Domain.Reads.number last.value) with
  | error failure => rfl
  | ok result => rfl

/-- The operator of a fold fails between numbers only for a division by zero. -/
theorem failure_of_foldBetween {op : Fold} {init : List Copy} {last : Copy} {failure : Failure}
    (areNumbers : ∀ item ∈ init ++ [last], item.value.IsNumber (Domain.Reads.floating α))
    (failed : foldBetween heap (.arithmetic op.arithmetic)
      (NumericType.component ⟨true, Domain.Reads.floating α⟩) init last = .error failure) :
    failure = .runtime (.divisionByZero .divide) none := by
  have folded := foldBetween_fold_eq heap op areNumbers
  obtain ⟨result, hitZero, -, stepped⟩ := Domain.foldRight?_append_singleton op
    (init.map fun item => (Domain.Reads.number item.value : α)) (Domain.Reads.number last.value)
  rw [failed, stepped] at folded
  split at folded
  · exact Except.error.inj folded
  · cases folded

/-- The operator of a fold fails between numbers if and only if it divides words by a result that is
zero. -/
theorem foldBetween_fails_iff {op : Fold} {init : List Copy} {last : Copy}
    (areNumbers : ∀ item ∈ init ++ [last], item.value.IsNumber (Domain.Reads.floating α)) :
    (∃ failure, foldBetween heap (.arithmetic op.arithmetic)
        (NumericType.component ⟨true, Domain.Reads.floating α⟩) init last = .error failure) ↔
      Domain.Reads.floating α = false ∧ op = .quotient ∧ ∃ place, 0 < place ∧
        place ≤ init.length ∧
        (foldBetween heap (.arithmetic op.arithmetic)
          (NumericType.component ⟨true, Domain.Reads.floating α⟩) (init.drop place) last).map
            Operand.values = .ok (.item (.int 0)) := by
  rw [fails_iff_of_map_eq (foldBetween_fold_eq heap op areNumbers), Domain.foldrM_foldStep_fails_iff,
    Domain.FoldsBySteps.foldTraps_iff, and_assoc, List.length_map]
  refine and_congr_right fun words => and_congr_right fun _ => exists_congr fun place =>
    and_congr_right fun _ => and_congr_right fun _ => ?_
  have dropped : ∀ item ∈ init.drop place ++ [last],
      item.value.IsNumber (Domain.Reads.floating α) := by
    intro item isIn
    rcases List.mem_append.mp isIn with inInit | isLast
    · exact areNumbers item (List.mem_append_left _ (List.mem_of_mem_drop inInit))
    · exact areNumbers item (List.mem_append_right _ isLast)
  rw [foldBetween_fold_eq heap op dropped, List.map_drop]
  -- The result so far, if there is one, is a zero of the domain if its value is.
  cases ((init.map fun item => (Domain.Reads.number item.value : α)).drop place).foldrM
      (Domain.foldStep op) (Domain.Reads.number last.value) with
  | error failure => simp [Except.map]
  | ok result => simp [Except.map, Domain.FoldsBySteps.isZero_iff words]

/-- A test has the value of its connective between the elements, from the truth value of none. -/
theorem quantifier_eq_foldBetween (op : Quantifier) {operand : Operand} {items : List Copy}
    (shown : Operand.Shows heap ⟨true, Domain.Reads.floating α⟩ operand (.ofList items))
    (areNumbers : ∀ item ∈ items, item.value.IsNumber (Domain.Reads.floating α)) :
    (monadic heap (.quantifier op) (NumericType.static ⟨true, Domain.Reads.floating α⟩)
        operand).map Operand.values =
      (foldBetween heap (.connective op.connective)
        (NumericType.component ⟨true, Domain.Reads.floating α⟩) items
        (.new (.truth (Domain.Reads.floating α) (op = .all)))).map Operand.values := by
  rw [WorksIn.monadic_array (by simp) (by simp) shown, reduce_quantifier_eq,
    ← Domain.FoldsBySteps.toValue_ofBool,
    foldBetween_eq (by simp) rfl areNumbers (Domain.Reads.isNumber_toValue _), Copy.value_new,
    Domain.FoldsBySteps.number_toValue, Domain.foldrM_connective]
  rfl

end

/-- **Reductions are folds of single operators.** Let `operand` show `items` at an array type.

* For `items = init ++ [last]`, a fold has the values of `foldBetween heap (.arithmetic
  op.arithmetic) type.component init last`, which applies the operator from the last element on.
  Where that fails, both divide by zero; and it fails if and only if words are divided and the fold
  of `init.drop place` is zero for some `0 < place ≤ init.length`.
* For any `items`, a test has the values of
  `foldBetween heap (.connective op.connective) type.component items` from the truth of `op =
  .all`. -/
theorem reductions_eq_folds (heap : Heap) (floating : Bool) (operand : Operand)
    (items : List Copy) (shown : Operand.Shows heap ⟨true, floating⟩ operand (.ofList items)) :
    let type : NumericType := ⟨true, floating⟩
    (∀ (op : Fold) (init : List Copy) (last : Copy), items = init ++ [last] →
      let folded (part : List Copy) :=
        foldBetween heap (.arithmetic op.arithmetic) type.component part last
      (monadic heap (.fold op) type.static operand).map Operand.values =
          ((folded init).map Operand.values).mapError
            (fun _ => .runtime (.divisionByZero .fold) none) ∧
        (∀ failure, folded init = .error failure →
          failure = .runtime (.divisionByZero .divide) none) ∧
        ((∃ failure, folded init = .error failure) ↔
          floating = false ∧ op = .quotient ∧ ∃ place, 0 < place ∧ place ≤ init.length ∧
            (folded (init.drop place)).map Operand.values = .ok (.item (.int 0)))) ∧
    ∀ op : Quantifier,
      (monadic heap (.quantifier op) type.static operand).map Operand.values =
        (foldBetween heap (.connective op.connective) type.component items
          (.new (.truth floating (op = .all)))).map Operand.values := by
  intro type
  have areNumbers : ∀ item ∈ items, item.value.IsNumber floating := by
    simpa using shown.areNumbers
  cases floating with
  | true =>
      refine ⟨?_, fun op => quantifier_eq_foldBetween (α := Float) op shown areNumbers⟩
      rintro op init last rfl
      exact ⟨fold_eq_foldBetween (α := Float) op shown areNumbers,
        fun failure => failure_of_foldBetween (α := Float) areNumbers,
        foldBetween_fails_iff (α := Float) areNumbers⟩
  | false =>
      refine ⟨?_, fun op => quantifier_eq_foldBetween (α := Int) op shown areNumbers⟩
      rintro op init last rfl
      exact ⟨fold_eq_foldBetween (α := Int) op shown areNumbers,
        fun failure => failure_of_foldBetween (α := Int) areNumbers,
        foldBetween_fails_iff (α := Int) areNumbers⟩

omit [NumericLibrary] in
/-- The quotient of two by three is zero, and seven is divided by it. -/
theorem reductions_eq_folds_quotient :
    letI : NumericLibrary := .standard
    let items : List Copy := [.new (.int 6), .new (.int 7), .new (.int 2), .new (.int 3)]
    Operand.Shows .empty ⟨true, false⟩ (.ofList items) (.ofList items) ∧
      (monadic .empty (.fold .quotient) (.array .int) (.ofList items)).map Operand.values =
        .error (.runtime (.divisionByZero .fold) none) := by
  let : NumericLibrary := .standard
  intro items
  have shown : Operand.Shows .empty ⟨true, false⟩ (.ofList items) (.ofList items) :=
    .row rfl (by simp [items, Value.IsNumber])
  have agree := reductions_eq_folds .empty false (.ofList items) items shown
  obtain ⟨equal, -, fails⟩ := agree.1 .quotient
    [.new (.int 6), .new (.int 7), .new (.int 2)] (.new (.int 3)) rfl
  obtain ⟨failure, failed⟩ := fails.mpr ⟨rfl, rfl, 2, by decide, by decide, rfl⟩
  rw [failed] at equal
  exact ⟨shown, equal⟩

end Operation

end ArrayForks
