import ArrayForks.Proofs.Reductions

/-! # Numbers as only elements

A single number and the array that has it for its only element are worked on in different ways: a
number is given back by the folds and by the operator for the last element without a look at it, and
an array is read, folded or tested as a whole. Still, the results agree for every operator and for
every number, bit by bit. The operators that work on each element give an array of the one result,
and all others give the result itself. Only the number of elements of a double is a double, while
that of an array is a word.

* **`AsOnly isRow onNumber onArray`** says that both results are of one and the same value.
* **`asOnly_pointwise`**, **`asOnly_fold`**, **`asOnly_quantifier`**, **`asOnly_last`**: the
  operators by their kinds, in either domain. -/

namespace ArrayForks

/-- A value by itself, or as the only item of a row. -/
def Nested.only {α : Type} (isRow : Bool) (value : α) : Nested α :=
  if isRow then .ofList [value] else .item value

/-- `(only isRow value).map f = only isRow (f value)`. -/
@[simp] theorem Nested.map_only {α β : Type} (f : α → β) (isRow : Bool) (value : α) :
    (only isRow value).map f = only isRow (f value) := by
  cases isRow <;> rfl

namespace Operation

/-- An operator gives a single number, and the value of that number on an array as well, by itself
or as the only element of an array. -/
def AsOnly (isRow : Bool) (onNumber onArray : Except Failure Operand) : Prop :=
  ∃ (ofNumber : Copy) (ofArray : Operand), onNumber = .ok (.item ofNumber) ∧
    onArray = .ok ofArray ∧ ofArray.values = .only isRow ofNumber.value

/-! ### On numbers -/

section

variable {α : Type} [Domain α]

/-- A function of each number gives for a number what it gives for the row of this number. -/
theorem onNumbers_pointwise_only (op : Pointwise) (n : α) :
    ∃ result, ∀ isRow, onNumbers (.pointwise op) (.only isRow n) = .ok (.only isRow result) := by
  cases op with
  | factorial =>
      -- The factorials of a row take as many rounds as its greatest number asks for.
      refine ⟨Domain.factorial (Domain.factorialRounds [n]) n, fun isRow => ?_⟩
      cases isRow <;> rfl
  | double =>
      refine ⟨Domain.arithmetic .add n n, fun isRow => ?_⟩
      cases isRow <;> rfl
  | square =>
      refine ⟨Domain.arithmetic .multiply n n, fun isRow => ?_⟩
      cases isRow <;> rfl

/-- A test of a number is the test of the row of this number. -/
theorem onNumbers_quantifier_only (op : Quantifier) (isRow : Bool) (n : α) :
    onNumbers (.quantifier op) (.only isRow n) =
      .ok (.item (Domain.ofBool (Domain.test op [n]))) := by
  cases isRow <;> rfl

/-- A fold gives a number back, and so it does the only number of a row. -/
theorem onNumbers_fold_only (op : Fold) (isRow : Bool) (n : α) :
    onNumbers (.fold op) (.only isRow n) = .ok (.item n) := by
  cases isRow <;> rfl

end

/-! ### On operands -/

variable [NumericLibrary]

/-- A domain in which an operator on a single number either looks at it or gives it back. -/
class WorksOnNumbers (α : Type) [Domain α] [Domain.Reads α] : Prop where
  /-- A function of each element, or a test, works on the number as it is read. -/
  monadic_read (heap : Heap) {op : MonadicOp} (notFold : ∀ fold, op ≠ .fold fold)
    (notLast : op ≠ .last) (notCount : op ≠ .count) {copy : Copy}
    (isNumber : copy.value.IsNumber (Domain.Reads.floating α)) :
    monadic heap op (NumericType.static ⟨false, Domain.Reads.floating α⟩) (.item copy) =
      (onNumbers op (.only false (Domain.Reads.number copy.value : α))).map Operand.ofNumbers
  /-- A fold, or the last element, is the number itself. -/
  monadic_kept (heap : Heap) {op : MonadicOp} (keeps : op = .last ∨ ∃ fold, op = .fold fold)
    {copy : Copy} (isNumber : copy.value.IsNumber (Domain.Reads.floating α)) :
    monadic heap op (NumericType.static ⟨false, Domain.Reads.floating α⟩) (.item copy) =
      .ok (.item copy)

instance : WorksOnNumbers Int where
  monadic_read heap {op} notFold notLast notCount {copy} isNumber := by
    cases op with
    | pointwise op => exact onNumber_eq (.pointwise op) (isNumber.fitsInto id)
    | quantifier op => exact onNumber_eq (.quantifier op) (isNumber.fitsInto id)
    | fold op => exact absurd rfl (notFold op)
    | last => exact absurd rfl notLast
    | count => exact absurd rfl notCount
  monadic_kept heap {op} keeps {copy} isNumber := by
    rcases keeps with rfl | ⟨fold, rfl⟩ <;> rfl

omit [NumericLibrary] in
/-- A double is read as the copy that it is. -/
theorem exists_of_isDouble {copy : Copy} (isNumber : copy.value.IsNumber true) :
    ∃ x origin, copy = ⟨.float x, origin⟩ := by
  obtain ⟨value, origin⟩ := copy
  cases value with
  | float x => exact ⟨x, origin, rfl⟩
  | _ => cases isNumber

instance : WorksOnNumbers Float where
  monadic_read heap {op} notFold notLast notCount {copy} isNumber := by
    obtain ⟨x, origin, rfl⟩ := exists_of_isDouble isNumber
    cases op with
    | pointwise op => exact @onNumber_eq Float _ _ heap (.pointwise op) _ (isNumber.fitsInto id)
    | quantifier op => exact @onNumber_eq Float _ _ heap (.quantifier op) _ (isNumber.fitsInto id)
    | fold op => exact absurd rfl (notFold op)
    | last => exact absurd rfl notLast
    | count => exact absurd rfl notCount
  monadic_kept heap {op} keeps {copy} isNumber := by
    obtain ⟨x, origin, rfl⟩ := exists_of_isDouble isNumber
    rcases keeps with rfl | ⟨fold, rfl⟩ <;> rfl

section

variable {α : Type} [Domain α] [Domain.Reads α] {heap : Heap} {number element : Copy}
  {array : Operand} (isNumber : number.value.IsNumber (Domain.Reads.floating α))
  (same : element.value = number.value)
  (shown : Operand.Shows heap ⟨true, Domain.Reads.floating α⟩ array (.ofList [element]))

include shown same in
/-- The only element of an array is read like the number. -/
theorem monadic_array_only [WorksIn α] {op : MonadicOp} (notLast : op ≠ .last)
    (notCount : op ≠ .count) :
    monadic heap op (NumericType.static ⟨true, Domain.Reads.floating α⟩) array =
      (onNumbers op (.only true (Domain.Reads.number number.value : α))).map Operand.ofNumbers := by
  rw [WorksIn.monadic_array notLast notCount shown, reduce, if_neg (by simp), List.map_singleton,
    same]
  rfl

variable [WorksOnNumbers α]

include isNumber same shown

/-- What is computed from each number is computed alike from a number and an only element. -/
theorem asOnly_pointwise [WorksIn α] (op : Pointwise) :
    AsOnly true
      (monadic heap (.pointwise op) (NumericType.static ⟨false, Domain.Reads.floating α⟩)
        (.item number))
      (monadic heap (.pointwise op) (NumericType.static ⟨true, Domain.Reads.floating α⟩)
        array) := by
  obtain ⟨result, computed⟩ := onNumbers_pointwise_only op (Domain.Reads.number number.value : α)
  rw [WorksOnNumbers.monadic_read heap (by simp) (by simp) (by simp) isNumber,
    monadic_array_only same shown (by simp) (by simp), computed, computed]
  exact ⟨.new (Domain.toValue result), _, rfl, rfl, rfl⟩

/-- A number and an only element are other than zero alike. -/
theorem asOnly_quantifier [WorksIn α] (op : Quantifier) :
    AsOnly false
      (monadic heap (.quantifier op) (NumericType.static ⟨false, Domain.Reads.floating α⟩)
        (.item number))
      (monadic heap (.quantifier op) (NumericType.static ⟨true, Domain.Reads.floating α⟩)
        array) := by
  rw [WorksOnNumbers.monadic_read heap (by simp) (by simp) (by simp) isNumber,
    monadic_array_only same shown (by simp) (by simp), onNumbers_quantifier_only,
    onNumbers_quantifier_only]
  exact ⟨.new (Domain.toValue _), _, rfl, rfl, rfl⟩

/-- The fold of an only element is the element. -/
theorem asOnly_fold [WorksIn α] [Domain.FoldsBySteps α] (op : Fold) :
    AsOnly false
      (monadic heap (.fold op) (NumericType.static ⟨false, Domain.Reads.floating α⟩) (.item number))
      (monadic heap (.fold op) (NumericType.static ⟨true, Domain.Reads.floating α⟩) array) := by
  rw [WorksOnNumbers.monadic_kept heap (.inr ⟨op, rfl⟩) isNumber,
    monadic_array_only same shown (by simp) (by simp), onNumbers_fold_only]
  refine ⟨number, _, rfl, rfl, ?_⟩
  -- Nothing is computed in the fold of one number, so it is not rounded or wrapped either.
  exact congrArg Nested.item (Domain.FoldsBySteps.toValue_number isNumber)

/-- The last element is the only one. -/
theorem asOnly_last :
    AsOnly false
      (monadic heap .last (NumericType.static ⟨false, Domain.Reads.floating α⟩) (.item number))
      (monadic heap .last (NumericType.static ⟨true, Domain.Reads.floating α⟩) array) := by
  have elements := shown.elements_eq
  have inside : 0 < (Nested.ofList [element]).items.length := by simp
  have last : monadic heap .last (NumericType.static ⟨true, Domain.Reads.floating α⟩) array =
      array.element heap 0 := by
    rw [NumericType.static_of_array rfl] at elements ⊢
    rw [monadic, onArray, elements]
    rfl
  rw [WorksOnNumbers.monadic_kept heap (.inl rfl) isNumber, last, shown.element_eq rfl inside]
  exact ⟨number, _, rfl, rfl, congrArg Nested.item same⟩

/-- All operators but those of each element and the number of elements. -/
theorem asOnly_single [WorksIn α] [Domain.FoldsBySteps α] {op : MonadicOp}
    (notPointwise : ∀ pointwise, op ≠ .pointwise pointwise) (notCount : op ≠ .count) :
    AsOnly false
      (monadic heap op (NumericType.static ⟨false, Domain.Reads.floating α⟩) (.item number))
      (monadic heap op (NumericType.static ⟨true, Domain.Reads.floating α⟩) array) := by
  cases op with
  | pointwise op => exact absurd rfl (notPointwise op)
  | fold op => exact asOnly_fold isNumber same shown op
  | quantifier op => exact asOnly_quantifier isNumber same shown op
  | last => exact asOnly_last isNumber same shown
  | count => exact absurd rfl notCount

end

/-- The number of elements of an array is a word. -/
theorem monadic_count_array {heap : Heap} {array : Operand} {items : List Copy} {floating : Bool}
    (shown : Operand.Shows heap ⟨true, floating⟩ array (.ofList items)) :
    monadic heap .count (NumericType.static ⟨true, floating⟩) array =
      .ok (.item (.new (.int items.length))) := by
  have elements := shown.elements_eq
  rw [NumericType.static_of_array rfl] at elements ⊢
  rw [monadic, onArray, elements, Nested.items_ofList]
  change Except.ok (Nested.item (Copy.new (.int (items.map Nested.item).length))) = _
  rw [List.length_map]

/-- **A number behaves as its only-element array.** Neither operand makes an operator fail, and

* `AsOnly true` for `.pointwise op`: the array of what `op` gives for the number;
* `AsOnly false` for all other operators but `.count` of doubles: one and the same value, bit by
  bit;
* `.count` of a double is `1.0`, and that of the array `1`. -/
theorem number_as_only_element (heap : Heap) (floating : Bool) (number element : Copy)
    (array : Operand) (isNumber : number.value.IsNumber floating)
    (same : element.value = number.value)
    (shown : Operand.Shows heap ⟨true, floating⟩ array (.ofList [element])) :
    let onNumber (op : MonadicOp) := monadic heap op (NumericType.static ⟨false, floating⟩)
      (.item number)
    let onArray (op : MonadicOp) := monadic heap op (NumericType.static ⟨true, floating⟩) array
    (∀ op, AsOnly true (onNumber (.pointwise op)) (onArray (.pointwise op))) ∧
    (∀ op, (∀ pointwise, op ≠ .pointwise pointwise) → ¬ (op = .count ∧ floating = true) →
      AsOnly false (onNumber op) (onArray op)) ∧
    (floating = true →
      (onNumber .count).map Operand.values = .ok (.item (.float 1.0)) ∧
      (onArray .count).map Operand.values = .ok (.item (.int 1))) := by
  intro onNumber onArray
  have counted : onArray .count = .ok (.item (.new (.int 1))) := monadic_count_array shown
  cases floating with
  | false =>
      refine ⟨asOnly_pointwise (α := Int) isNumber same shown, fun op notPointwise _ => ?_,
        fun impossible => by cases impossible⟩
      by_cases count : op = .count
      · rw [count]
        exact ⟨.new (.int 1), _, rfl, counted, rfl⟩
      · exact asOnly_single (α := Int) isNumber same shown notPointwise count
  | true =>
      refine ⟨asOnly_pointwise (α := Float) isNumber same shown,
        fun op notPointwise notCount => ?_, fun _ => ⟨?_, ?_⟩⟩
      · exact asOnly_single (α := Float) isNumber same shown notPointwise
          fun count => notCount ⟨count, rfl⟩
      · obtain ⟨x, origin, rfl⟩ := exists_of_isDouble isNumber
        rfl
      · rw [counted]
        rfl

omit [NumericLibrary] in
/-- The sum of the greatest negative double, a subnormal one, is this double in both forms. -/
theorem number_as_only_element_subnormal :
    letI : NumericLibrary := .standard
    let tiny : Copy := .new (.float (Float.ofBits 0x8000000000000001))
    tiny.value.IsNumber true ∧
      Operand.Shows .empty ⟨true, true⟩ (.ofList [tiny]) (.ofList [tiny]) ∧
      AsOnly false (monadic .empty (.fold .sum) .float (.item tiny))
        (monadic .empty (.fold .sum) (.array .float) (.ofList [tiny])) ∧
      monadic .empty (.fold .sum) .float (.item tiny) = .ok (.item tiny) := by
  let : NumericLibrary := .standard
  intro tiny
  have isNumber : tiny.value.IsNumber true := rfl
  have shown : Operand.Shows .empty ⟨true, true⟩ (.ofList [tiny]) (.ofList [tiny]) :=
    .row rfl fun item isIn => List.mem_singleton.mp isIn ▸ isNumber
  have alike := (number_as_only_element .empty true tiny tiny (.ofList [tiny]) isNumber rfl
    shown).2.1 (.fold .sum) (fun _ => by simp) (by simp)
  exact ⟨isNumber, shown, alike, rfl⟩

end Operation

end ArrayForks
