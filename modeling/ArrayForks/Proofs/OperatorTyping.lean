import ArrayForks.Proofs.NumericTypes

/-! # The typing of operators

Applied to operands of numeric types, an operator gives an operand of the type that its rule names,
or fails for one of few reasons: arrays of different lengths, a division by zero, an array without
elements.

* **`Yields good allowed result`**: `result` is good, or a failure that is allowed.
* **`yields_diadic`**, **`yields_monadic`**: operators yield operands of `NumericType.ofDiadic`
  and `NumericType.ofMonadic`, or a failure that is `Failure.Foreseen`. -/

namespace ArrayForks

/-! ### Results -/

/-- A computation without state gives a good value or fails for an allowed reason. -/
inductive Yields {α : Type} (good : α → Prop) (allowed : Failure → Prop) :
    Except Failure α → Prop where
  /-- It gives a good value. -/
  | ok {value : α} (holds : good value) : Yields good allowed (.ok value)
  /-- It fails for an allowed reason. -/
  | error {failure : Failure} (holds : allowed failure) : Yields good allowed (.error failure)

namespace Yields

variable {α β : Type} {good : α → Prop} {better : β → Prop} {allowed : Failure → Prop}
  {result : Except Failure α}

/-- What goes on from a good result has to yield for good values only. -/
theorem bind {next : α → Except Failure β} (first : Yields good allowed result)
    (rest : ∀ value, good value → Yields better allowed (next value)) :
    Yields better allowed (result >>= next) := by
  cases first with
  | ok holds => exact rest _ holds
  | error holds => exact .error holds

/-- What follows matters only for good values. -/
theorem bind_congr {next other : α → Except Failure β} (first : Yields good allowed result)
    (agree : ∀ value, good value → next value = other value) :
    result >>= next = result >>= other := by
  cases first with
  | ok holds => exact agree _ holds
  | error holds => rfl

/-- A map that leads from good values to good values yields them. -/
theorem map {f : α → β} (first : Yields good allowed result)
    (rest : ∀ value, good value → better (f value)) :
    Yields better allowed (result.map f) := by
  cases first with
  | ok holds => exact .ok (rest _ holds)
  | error holds => exact .error holds

/-- A result yields whatever its good values imply. -/
theorem imp {weaker : α → Prop} (first : Yields good allowed result)
    (implies : ∀ value, good value → weaker value) : Yields weaker allowed result := by
  cases first with
  | ok holds => exact .ok (implies _ holds)
  | error holds => exact .error holds

/-- What is good in two ways is good in both. -/
theorem and {also : α → Prop} (first : Yields good allowed result)
    (second : Yields also allowed result) :
    Yields (fun value => good value ∧ also value) allowed result := by
  cases first with
  | ok holds =>
      cases second with
      | ok alsoHolds => exact .ok ⟨holds, alsoHolds⟩
  | error holds => exact .error holds

/-- What each input gives is good in a row as well. -/
theorem mapM {f : α → Except Failure β} (each : ∀ input, Yields better allowed (f input))
    (inputs : List α) :
    Yields (fun outputs => ∀ output ∈ outputs, better output) allowed (inputs.mapM f) := by
  induction inputs with
  | nil => exact .ok fun _ isIn => absurd isIn List.not_mem_nil
  | cons input inputs inductionHypothesis =>
      rw [List.mapM_cons]
      exact (each input).bind fun _ first => inductionHypothesis.bind fun _ rest =>
        .ok (List.forall_mem_cons.mpr ⟨first, rest⟩)

/-- Any value is good and any failure allowed where nothing is asked. -/
theorem any (result : Except Failure α) : Yields (fun _ => True) (fun _ => True) result := by
  cases result with
  | ok value => exact .ok trivial
  | error failure => exact .error trivial

/-- A value that is given is good. -/
theorem good_of_ok {value : α} (yields : Yields good allowed (.ok value)) : good value := by
  cases yields with
  | ok holds => exact holds

end Yields

/-- The reasons for which an expression of a numeric type may fail: the runtime errors but for uses
of `null`, and for an expression with forks an intermediate array without elements. -/
inductive Failure.Foreseen (forks : Bool) : Failure → Prop where
  | lengthMismatch (left right : Nat) (node : Option String) :
      Foreseen forks (.runtime (.lengthMismatch left right) node)
  | divisionByZero (cause : ZeroDivision) (node : Option String) :
      Foreseen forks (.runtime (.divisionByZero cause) node)
  | emptyArray (op : MonadicOp) (node : Option String) :
      Foreseen forks (.runtime (.emptyArray op) node)
  | negativeIndex (index : Value) (node : Option String) :
      Foreseen forks (.runtime (.negativeIndex index) node)
  | indexBeyond (index : Value) (length : Nat) (node : Option String) :
      Foreseen forks (.runtime (.indexBeyond index length) node)
  | emptyIntermediate (withForks : forks = true) : Foreseen forks (.violation .emptyIntermediate)

/-- A reason is foreseen wherever it arises. -/
theorem Failure.Foreseen.locate {forks : Bool} {failure : Failure}
    (foreseen : failure.Foreseen forks) (node : Unit → String) :
    (failure.locate node).Foreseen forks := by
  cases foreseen with
  | lengthMismatch left right place => cases place <;> exact .lengthMismatch _ _ _
  | divisionByZero cause place => cases place <;> exact .divisionByZero _ _
  | emptyArray op place => cases place <;> exact .emptyArray _ _
  | negativeIndex index place => cases place <;> exact .negativeIndex _ _
  | indexBeyond index length place => cases place <;> exact .indexBeyond _ _ _
  | emptyIntermediate withForks => exact .emptyIntermediate withForks

/-! ### Layouts of one level -/

/-- A single item, or a row of single items. -/
inductive Nested.Flat {α : Type} : (isRow : Bool) → Nested α → Prop where
  | item (value : α) : Flat false (.item value)
  | list (values : List α) : Flat true (.ofList values)

namespace Nested.Flat

variable {α β : Type} {isRow leftIsRow rightIsRow : Bool}

/-- Mapping keeps a flat layout flat. -/
theorem map {nested : Nested α} (flat : nested.Flat isRow) (f : α → β) :
    (nested.map f).Flat isRow := by
  cases flat with
  | item value => exact .item (f value)
  | list values =>
      rw [map_ofList]
      exact .list _

/-- A layout of one level is as long as it has items. -/
theorem length_items {nested : Nested α} (flat : nested.Flat isRow) :
    nested.items.length = nested.length := by
  cases flat with
  | item value => rfl
  | list values => rw [items_ofList, length_ofList]

/-- Layouts of one level are paired up unless they are rows of different lengths. -/
theorem pairs? {left : Nested α} {right : Nested β} (leftFlat : left.Flat leftIsRow)
    (rightFlat : right.Flat rightIsRow)
    (same : leftIsRow = true → rightIsRow = true → left.length = right.length) :
    ∃ pairs, left.pairs? right = some pairs ∧ pairs.Flat (leftIsRow || rightIsRow) := by
  cases leftFlat with
  | item left =>
      cases rightFlat with
      | item right => exact ⟨_, pairs?_item_item left right, .item _⟩
      | list rights => exact ⟨_, pairs?_item_ofList left rights, .list _⟩
  | list lefts =>
      cases rightFlat with
      | item right => exact ⟨_, pairs?_ofList_item lefts right, .list _⟩
      | list rights =>
          have lengths : lefts.length = rights.length := by simpa using same rfl rfl
          exact ⟨_, pairs?_ofList lengths, .list _⟩

end Nested.Flat

/-- An operand shows a row if its type is that of arrays, and a single item otherwise. -/
theorem Operand.Shows.flat {heap : Heap} {type : NumericType} {operand : Operand}
    {content : Nested Copy} (shown : Operand.Shows heap type operand content) :
    content.Flat type.isArray := by
  cases shown with
  | number scalar isNumber =>
      rw [scalar]
      exact .item _
  | array array found areNumbers =>
      rw [array]
      exact .list _
  | row array areNumbers =>
      rw [array]
      exact .list _

/-- Operands that are of a numeric type. -/
def Operand.OfType (heap : Heap) (type : NumericType) (operand : Operand) : Prop :=
  ∃ content, Operand.Shows heap type operand content

/-- Numbers of a domain are an operand of its type. -/
theorem Operand.ofType_ofNumbers {α : Type} [Domain α] [Domain.Reads α] (heap : Heap)
    {type : NumericType} {numbers : Nested α} (flat : numbers.Flat type.isArray)
    (domain : Domain.Reads.floating α = type.isFloating) :
    Operand.OfType heap type (Operand.ofNumbers numbers) := by
  have areNumbers (n : α) : (Copy.new (Domain.toValue n)).value.IsNumber type.isFloating := by
    rw [Copy.value_new, ← domain]
    exact Domain.Reads.isNumber_toValue n
  obtain ⟨isArray, isFloating⟩ := type
  cases flat with
  | item n => exact ⟨_, .number rfl (areNumbers n)⟩
  | list ns =>
      rw [Operand.ofNumbers, Nested.map_ofList]
      refine ⟨_, .row rfl ?_⟩
      intro copy isIn
      obtain ⟨n, -, rfl⟩ := List.mem_map.mp isIn
      exact areNumbers n

/-! ### Diadic operators -/

/-- Every operator but laying out has a numeric form. -/
theorem Domain.exists_kernel {α : Type} [Domain α] {op : DiadicOp} (numeric : op ≠ .concat)
    (isSpread : Bool) : ∃ kernel : α → α → α, kernel? isSpread op = some kernel := by
  cases op with
  | arithmetic op => exact ⟨_, rfl⟩
  | comparison op => exact ⟨_, rfl⟩
  | connective op => exact ⟨_, rfl⟩
  | concat => exact absurd rfl numeric

namespace Coerced

/-- A numeric operator on numbers of one level gives numbers of one level, or divides by zero. -/
theorem yields_applyIn {α : Type} [Domain α] {op : DiadicOp} (numeric : op ≠ .concat)
    {left right : Nested α} {leftIsRow rightIsRow : Bool} (leftFlat : left.Flat leftIsRow)
    (rightFlat : right.Flat rightIsRow)
    (same : leftIsRow = true → rightIsRow = true → left.length = right.length) (forks : Bool) :
    Yields (Nested.Flat (leftIsRow || rightIsRow)) (Failure.Foreseen forks)
      (applyIn op left right) := by
  obtain ⟨kernel, isKernel⟩ := Domain.exists_kernel (α := α) numeric (right.isSpreadOver left)
  -- Layouts of one level can be paired up, so a trap is all that may go wrong.
  obtain ⟨pairs, paired, flat⟩ := leftFlat.pairs? rightFlat same
  rw [applyIn, isKernel, paired]
  cases Domain.trapOnRights? op right.items with
  | some cause => exact .error (.divisionByZero cause none)
  | none =>
      dsimp only
      cases Domain.trapOnPairs? op pairs.items with
      | some cause => exact .error (.divisionByZero cause none)
      | none => exact .ok (flat.map _)

variable [NumericLibrary] {heap : Heap} {leftType rightType : NumericType} {left right : Operand}
  {leftContent rightContent : Nested Copy}

/-- The numbers that two operands show, as doubles if either type is floating. -/
def ofContents (leftType rightType : NumericType) (leftContent rightContent : Nested Copy) :
    Coerced :=
  if leftType.isFloating || rightType.isFloating then
    .doubles (leftContent.map fun copy => Domain.Reads.number copy.value)
      (rightContent.map fun copy => Domain.Reads.number copy.value)
  else
    .words (leftContent.map fun copy => Domain.Reads.number copy.value)
      (rightContent.map fun copy => Domain.Reads.number copy.value)

/-- Operands of numeric types are brought into one domain. -/
theorem ofOperands_eq (leftShown : Operand.Shows heap leftType left leftContent)
    (rightShown : Operand.Shows heap rightType right rightContent) :
    ofOperands heap leftType.static rightType.static left right =
      .ok (ofContents leftType rightType leftContent rightContent) := by
  rw [ofOperands, ofContents, NumericType.floatingWith_static]
  split
  · rw [leftShown.numbers_eq fun _ => rfl, rightShown.numbers_eq fun _ => rfl]
    rfl
  · next words =>
      rw [Bool.or_eq_true, not_or] at words
      rw [leftShown.numbers_eq fun floating => absurd floating words.1,
        rightShown.numbers_eq fun floating => absurd floating words.2]
      rfl

/-- Both sides have as many numbers as the operands show. -/
theorem lengths_ofContents (leftType rightType : NumericType)
    (leftContent rightContent : Nested Copy) :
    (ofContents leftType rightType leftContent rightContent).lengths =
      (leftContent.length, rightContent.length) := by
  rw [ofContents]
  split
  · rw [lengths, Nested.length_map, Nested.length_map]
  · rw [lengths, Nested.length_map, Nested.length_map]

omit [NumericLibrary] in
/-- A numeric operator in the domain of its rule gives an operand of the type of the rule, or divides
by zero. -/
theorem yields_numbers {α : Type} [Domain α] [Domain.Reads α] {op : DiadicOp}
    (numeric : op ≠ .concat)
    (domain : Domain.Reads.floating α = (leftType.isFloating || rightType.isFloating))
    (leftShown : Operand.Shows heap leftType left leftContent)
    (rightShown : Operand.Shows heap rightType right rightContent)
    (same : leftType.isArray = true → rightType.isArray = true →
      leftContent.length = rightContent.length) (forks : Bool) :
    Yields (Operand.OfType heap (.ofDiadic op leftType rightType)) (Failure.Foreseen forks)
      ((applyIn op (leftContent.map fun copy => (Domain.Reads.number copy.value : α))
        (rightContent.map fun copy => Domain.Reads.number copy.value)).map Operand.ofNumbers) := by
  have isArray : (NumericType.ofDiadic op leftType rightType).isArray =
      (leftType.isArray || rightType.isArray) := by
    simp [NumericType.ofDiadic, numeric]
  have lengths : leftType.isArray = true → rightType.isArray = true →
      (leftContent.map fun copy => (Domain.Reads.number copy.value : α)).length =
        (rightContent.map fun copy => (Domain.Reads.number copy.value : α)).length := by
    rw [Nested.length_map, Nested.length_map]
    exact same
  have leftFlat := leftShown.flat.map fun copy => (Domain.Reads.number copy.value : α)
  have rightFlat := rightShown.flat.map fun copy => (Domain.Reads.number copy.value : α)
  refine (yields_applyIn numeric leftFlat rightFlat lengths forks).map fun numbers flat => ?_
  exact Operand.ofType_ofNumbers heap (isArray ▸ flat) domain

/-- A numeric operator on the numbers of two operands gives an operand of the type of its rule, or
divides by zero. -/
theorem yields_apply {op : DiadicOp} (numeric : op ≠ .concat)
    (leftShown : Operand.Shows heap leftType left leftContent)
    (rightShown : Operand.Shows heap rightType right rightContent)
    (same : leftType.isArray = true → rightType.isArray = true →
      leftContent.length = rightContent.length) (forks : Bool) :
    Yields (Operand.OfType heap (.ofDiadic op leftType rightType)) (Failure.Foreseen forks)
      ((ofContents leftType rightType leftContent rightContent).apply op) := by
  rw [ofContents]
  split
  · next floating => exact yields_numbers numeric floating.symm leftShown rightShown same forks
  · next words =>
      have notFloating := Bool.eq_false_iff.mpr words
      exact yields_numbers numeric notFloating.symm leftShown rightShown same forks

end Coerced

namespace Evaluation

/-- A number that is widened to doubles is a number of the type that it is widened to. -/
theorem isNumber_widen {copy : Copy} {type : NumericType}
    (fits : copy.value.FitsInto type.isFloating) :
    (widen type.component copy).value.IsNumber type.isFloating := by
  obtain ⟨value, origin⟩ := copy
  obtain ⟨own, isNumber, wide⟩ := fits
  rw [NumericType.component]
  cases value with
  | int n =>
      cases floating : type.isFloating with
      | true => rfl
      | false => rfl
  | float x =>
      rw [wide isNumber]
      rfl
  | _ => cases isNumber

end Evaluation

/-- A number of a type is a double as it is or once it is widened. -/
theorem Operand.asDouble_item (heap : Heap) {copy : Copy} {floating : Bool}
    (fits : copy.value.FitsInto floating) :
    asDouble heap (.item copy) = .ok (Evaluation.widen .float copy) := by
  obtain ⟨value, origin⟩ := copy
  rcases fits.wordOrDouble with ⟨n, rfl⟩ | ⟨x, rfl⟩
  · rfl
  · rfl

/-- Numbers are doubles one by one. -/
theorem Operand.mapM_asDouble_items (heap : Heap) {copies : List Copy} {floating : Bool}
    (fit : ∀ copy ∈ copies, copy.value.FitsInto floating) :
    (copies.map .item).mapM (asDouble heap) = .ok (copies.map (Evaluation.widen .float)) := by
  induction copies with
  | nil => rfl
  | cons copy copies inductionHypothesis =>
      have rest := inductionHypothesis fun other inRest => fit other (List.mem_cons_of_mem _ inRest)
      rw [List.map_cons, List.mapM_cons, asDouble_item heap (fit copy List.mem_cons_self), rest]
      rfl

namespace Operation

section

variable {heap : Heap} {leftType rightType : NumericType} {left right : Operand}
  {leftContent rightContent : Nested Copy}

/-- All that both operands show are numbers that fit into the domain of both. -/
theorem fit_append (leftShown : Operand.Shows heap leftType left leftContent)
    (rightShown : Operand.Shows heap rightType right rightContent) :
    ∀ copy ∈ leftContent.items ++ rightContent.items,
      copy.value.FitsInto (leftType.isFloating || rightType.isFloating) := by
  intro copy isIn
  rcases List.mem_append.mp isIn with inLeft | inRight
  · exact (leftShown.areNumbers copy inLeft).fitsInto fun floating => by simp [floating]
  · exact (rightShown.areNumbers copy inRight).fitsInto fun floating => by simp [floating]

/-- Copies as the elements of a row of words or of doubles. -/
def laidOut (floating : Bool) (copies : List Copy) : List Copy :=
  if floating then copies.map (Evaluation.widen .float) else copies

/-- All elements of a row are doubles, or all of them are words. -/
theorem isNumber_laidOut {floating : Bool} {copies : List Copy}
    (fit : ∀ copy ∈ copies, copy.value.FitsInto floating) :
    ∀ item ∈ laidOut floating copies, item.value.IsNumber floating := by
  intro item isIn
  rw [laidOut] at isIn
  cases floating with
  | true =>
      obtain ⟨copy, isCopy, rfl⟩ := List.mem_map.mp isIn
      have fits : copy.value.FitsInto (NumericType.mk true true).isFloating := fit copy isCopy
      exact Evaluation.isNumber_widen fits
  | false =>
      obtain ⟨n, isWord⟩ := (fit item isIn).word
      rw [isWord]
      rfl

/-- Laying out gives all that both operands show, widened if either type is floating. -/
theorem layOut_eq (leftShown : Operand.Shows heap leftType left leftContent)
    (rightShown : Operand.Shows heap rightType right rightContent) :
    layOut heap leftType.static rightType.static left right =
      .ok (.ofList (laidOut (leftType.isFloating || rightType.isFloating)
        (leftContent.items ++ rightContent.items))) := by
  rw [layOut, leftShown.elements_eq, rightShown.elements_eq, NumericType.isNumericShape_static,
    NumericType.isNumericShape_static, NumericType.floatingWith_static, laidOut]
  change (if (true && true && (leftType.isFloating || rightType.isFloating)) = true then _ else _) = _
  rw [Bool.true_and, Bool.true_and, ← List.map_append]
  split
  · rw [Operand.mapM_asDouble_items heap (fit_append leftShown rightShown)]
    rfl
  · rfl

/-- What is laid out is an array of the type of the rule. -/
theorem shows_laidOut (leftShown : Operand.Shows heap leftType left leftContent)
    (rightShown : Operand.Shows heap rightType right rightContent) :
    let row : Operand := .ofList (laidOut (leftType.isFloating || rightType.isFloating)
      (leftContent.items ++ rightContent.items))
    Operand.Shows heap (.ofDiadic .concat leftType rightType) row row :=
  .row rfl (isNumber_laidOut (fit_append leftShown rightShown))

/-- Laying out gives an array of the type of its rule. -/
theorem ofType_layOut (leftShown : Operand.Shows heap leftType left leftContent)
    (rightShown : Operand.Shows heap rightType right rightContent) (forks : Bool) :
    Yields (Operand.OfType heap (.ofDiadic .concat leftType rightType)) (Failure.Foreseen forks)
      (layOut heap leftType.static rightType.static left right) := by
  rw [layOut_eq leftShown rightShown]
  exact .ok ⟨_, shows_laidOut leftShown rightShown⟩

/-- What a diadic operator does with operands of numeric types. -/
theorem ruleFor_static (op : DiadicOp) (leftType rightType : NumericType) :
    ruleFor op leftType.static rightType.static =
      if op = .concat then .layOut
      else if leftType.isArray || rightType.isArray then .lift else .compute := by
  have noText : ¬ (op = .arithmetic .add ∧
      (leftType.static = .string ∨ rightType.static = .string)) := by
    rintro ⟨-, isText | isText⟩
    · exact leftType.static_ne_string isText
    · exact rightType.static_ne_string isText
  unfold ruleFor
  rw [if_neg noText, NumericType.isArray_static, NumericType.isArray_static]
  by_cases layOut : op = .concat
  · rw [if_pos layOut, if_pos layOut]
  · rw [if_neg layOut, if_neg layOut]
    cases leftArray : leftType.isArray with
    | true => rw [Bool.true_or, if_pos rfl, if_pos rfl]
    | false =>
        cases rightArray : rightType.isArray with
        | true => rw [Bool.or_true, if_pos rfl, if_pos rfl]
        | false =>
            have numbers : (leftType.static.isNumeric && rightType.static.isNumeric) = true := by
              rw [NumericType.static_of_scalar leftArray, NumericType.static_of_scalar rightArray,
                NumericType.isNumeric_component, NumericType.isNumeric_component]
              rfl
            rw [Bool.or_false, if_neg Bool.false_ne_true, if_pos numbers,
              if_neg Bool.false_ne_true]

variable [NumericLibrary]

/-- The operator that lays out two operands does so for any numeric types. -/
theorem diadic_concat (leftShown : Operand.Shows heap leftType left leftContent)
    (rightShown : Operand.Shows heap rightType right rightContent) :
    diadic heap .concat leftType.static rightType.static left right =
      .ok (.ofList (laidOut (leftType.isFloating || rightType.isFloating)
        (leftContent.items ++ rightContent.items))) := by
  rw [diadic, ruleFor_static, if_pos rfl]
  exact layOut_eq leftShown rightShown

/-- A numeric operator works on the numbers that its operands show, unless these are two arrays of
different lengths. -/
theorem diadic_eq {op : DiadicOp} (numeric : op ≠ .concat)
    (leftShown : Operand.Shows heap leftType left leftContent)
    (rightShown : Operand.Shows heap rightType right rightContent) :
    diadic heap op leftType.static rightType.static left right =
      if leftType.isArray && rightType.isArray && leftContent.length != rightContent.length then
        (RuntimeError.lengthMismatch leftContent.length rightContent.length).raise
      else (Coerced.ofContents leftType rightType leftContent rightContent).apply op := by
  rw [diadic, ruleFor_static, if_neg numeric]
  cases arrays : leftType.isArray || rightType.isArray with
  | true =>
      rw [if_pos rfl]
      dsimp only
      rw [lift, Coerced.ofOperands_eq leftShown rightShown, NumericType.isArray_static,
        NumericType.isArray_static]
      simp only [bind, Except.bind, Coerced.lengths_ofContents]
  | false =>
      rw [Bool.or_eq_false_iff] at arrays
      rw [if_neg Bool.false_ne_true, arrays.1]
      dsimp only
      rw [Coerced.ofOperands_eq leftShown rightShown]
      rfl

/-- A diadic operator gives an operand of the type of its rule, or fails for a reason that is
foreseen. -/
theorem yields_diadic (op : DiadicOp) (leftShown : Operand.OfType heap leftType left)
    (rightShown : Operand.OfType heap rightType right) (forks : Bool) :
    Yields (Operand.OfType heap (.ofDiadic op leftType rightType)) (Failure.Foreseen forks)
      (diadic heap op leftType.static rightType.static left right) := by
  obtain ⟨leftContent, leftShown⟩ := leftShown
  obtain ⟨rightContent, rightShown⟩ := rightShown
  by_cases numeric : op = .concat
  · rw [diadic, ruleFor_static, if_pos numeric, numeric]
    exact ofType_layOut leftShown rightShown forks
  · rw [diadic_eq numeric leftShown rightShown]
    split
    · exact .error (.lengthMismatch _ _ none)
    · next same =>
        refine Coerced.yields_apply numeric leftShown rightShown ?_ forks
        intro leftArray rightArray
        simpa [leftArray, rightArray] using same

end

/-! ### Monadic operators -/

section

variable {α : Type} [Domain α]

/-- An operator on a single number gives a single number. -/
theorem flat_onNumbers_item (op : MonadicOp) (number : α) :
    ∃ result, onNumbers op (.item number) = .ok (.item result) := by
  cases op with
  | pointwise op => cases op <;> exact ⟨_, rfl⟩
  | fold op => exact ⟨_, rfl⟩
  | quantifier op => exact ⟨_, rfl⟩
  | last => exact ⟨_, rfl⟩
  | count => exact ⟨_, rfl⟩

/-- A function of each number of a row gives a row, unless there is no number for a factorial. -/
theorem pointwise_ofList (op : Pointwise) {numbers : List α} (nonempty : numbers ≠ []) :
    ∃ results, Domain.pointwise op (.ofList numbers) = .ok (.ofList results) := by
  cases op with
  | factorial =>
      have someItem : ¬ (Nested.ofList numbers).items.isEmpty = true := by
        simpa using nonempty
      exact ⟨_, by rw [Domain.pointwise, if_neg someItem, Nested.map_ofList]⟩
  | double => exact ⟨_, by rw [Domain.pointwise, Nested.map_ofList]⟩
  | square => exact ⟨_, by rw [Domain.pointwise, Nested.map_ofList]⟩

/-- The operators that read all numbers of an array give a row where they work on each of them, and
a single number otherwise; folds may fail. -/
theorem yields_onNumbers_ofList {op : MonadicOp} (notLast : op ≠ .last) (notCount : op ≠ .count)
    {numbers : List α} (nonempty : numbers ≠ []) (isFloating forks : Bool) :
    Yields (Nested.Flat (NumericType.ofMonadic op ⟨true, isFloating⟩).isArray)
      (Failure.Foreseen forks) (onNumbers op (.ofList numbers)) := by
  cases op with
  | pointwise op =>
      obtain ⟨results, computed⟩ := pointwise_ofList op nonempty
      rw [onNumbers, computed]
      exact .ok (.list results)
  | quantifier op => exact .ok (.item _)
  | fold op =>
      rw [Nested.ofList, onNumbers, Nested.flat?_map_item]
      dsimp only
      -- The fold gives a number, unless it has nothing to start from or has divided by zero.
      split
      · exact .error (.emptyArray _ none)
      · split
        · exact .error (.divisionByZero .fold none)
        · exact .ok (.item _)
  | last => exact absurd rfl notLast
  | count => exact absurd rfl notCount

/-- The operators on the empty array. -/
theorem yields_onEmpty (op : MonadicOp) (isFloating forks : Bool) :
    Yields (Nested.Flat (NumericType.ofMonadic op ⟨true, isFloating⟩).isArray)
      (Failure.Foreseen forks) (onEmpty α op) := by
  cases op with
  | pointwise op => exact .ok (.list [])
  | quantifier op => exact .ok (.item _)
  | fold op =>
      rw [onEmpty]
      split
      · exact .ok (.item _)
      · exact .error (.emptyArray _ none)
  | last => exact .error (.emptyArray _ none)
  | count => exact .error (.emptyArray _ none)

variable [Domain.Reads α] {heap : Heap}

/-- An operator on an operand that is a single number works on it as it is read. -/
theorem onNumber_eq (op : MonadicOp) {copy : Copy}
    (fits : copy.value.FitsInto (Domain.Reads.floating α)) :
    onNumber α heap op (.item copy) =
      (onNumbers op (.item (Domain.Reads.number copy.value : α))).map Operand.ofNumbers := by
  rw [onNumber, Operand.unfold, heap.unfold_number fits, Domain.Reads.ofDatum_atom fits]
  change (onNumbers op (.item (Domain.Reads.number copy.value : α)) >>= fun result =>
    .ok (Operand.ofNumbers result)) = _
  cases onNumbers op (.item (Domain.Reads.number copy.value : α)) with
  | ok result => rfl
  | error failure => rfl

/-- An operator on an operand that is a single number gives a single number. -/
theorem ofType_onNumber (op : MonadicOp) {copy : Copy}
    (fits : copy.value.FitsInto (Domain.Reads.floating α)) {type : NumericType}
    (scalar : type.isArray = false) (domain : Domain.Reads.floating α = type.isFloating)
    (forks : Bool) :
    Yields (Operand.OfType heap type) (Failure.Foreseen forks) (onNumber α heap op (.item copy)) := by
  obtain ⟨result, computed⟩ := flat_onNumbers_item op (Domain.Reads.number copy.value : α)
  rw [onNumber_eq op fits, computed]
  have flat : (Nested.item result).Flat type.isArray := by
    rw [scalar]
    exact .item result
  exact .ok (Operand.ofType_ofNumbers heap flat domain)

/-- The result of an operator that reads all numbers of an array. -/
def reduce (α : Type) [Domain α] [Domain.Reads α] (op : MonadicOp) (copies : List Copy) :
    Except Failure (Nested α) :=
  if copies.isEmpty then onEmpty α op
  else onNumbers op (.ofList (copies.map fun copy => Domain.Reads.number copy.value))

/-- The operators that read all numbers of an array reduce the elements of one. -/
theorem onItems_eq (op : MonadicOp) (type : NumericType) {copies : List Copy}
    (fit : ∀ copy ∈ copies, copy.value.FitsInto (Domain.Reads.floating α)) :
    onItems α heap op type.component (copies.map .item) =
      (reduce α op copies).map Operand.ofNumbers := by
  rw [onItems, reduce]
  cases copies with
  | nil => rfl
  | cons copy copies =>
      have values : ∀ value ∈ (copy :: copies).map Copy.value,
          value.FitsInto (Domain.Reads.floating α) := by
        simpa using fit
      rw [if_neg (by simp), if_pos (NumericType.isNumeric_component _),
        Operand.Shows.map_unfold fit, Domain.Reads.ofData_atoms values, if_neg (by simp)]
      have numbers : ((copy :: copies).map fun copy => (Domain.Reads.number copy.value : α)) =
          ((copy :: copies).map Copy.value).map Domain.Reads.number := by
        rw [List.map_map]
        rfl
      rw [numbers]
      generalize Nested.ofList (((copy :: copies).map Copy.value).map
        (Domain.Reads.number (α := α))) = row
      change (onNumbers op row >>= fun result => .ok (Operand.ofNumbers result)) = _
      cases onNumbers op row with
      | ok numbers => rfl
      | error failure => rfl

/-- Reducing an array gives a row where the operator works on each number, and a single number
otherwise; it may fail. -/
theorem yields_reduce {op : MonadicOp} (notLast : op ≠ .last) (notCount : op ≠ .count)
    (copies : List Copy) (isFloating forks : Bool) :
    Yields (Nested.Flat (NumericType.ofMonadic op ⟨true, isFloating⟩).isArray)
      (Failure.Foreseen forks) (reduce α op copies) := by
  rw [reduce]
  split
  · exact yields_onEmpty op isFloating forks
  · next nonempty =>
      refine yields_onNumbers_ofList notLast notCount ?_ isFloating forks
      simpa using nonempty

end

section

variable {heap : Heap} {type : NumericType} {operand : Operand}

/-- An operator on a single number gives one of its own type. -/
theorem ofMonadic_scalar (op : MonadicOp) (scalar : type.isArray = false) :
    NumericType.ofMonadic op type = type := by
  obtain ⟨isArray, isFloating⟩ := type
  cases scalar
  cases op <;> rfl

variable [NumericLibrary]

/-- A monadic operator on a single number gives a number of its type. -/
theorem yields_onScalar (op : MonadicOp) (scalar : type.isArray = false)
    (shown : Operand.OfType heap type operand) (forks : Bool) :
    Yields (Operand.OfType heap type) (Failure.Foreseen forks)
      (onScalar heap op type.static operand) := by
  obtain ⟨content, shown⟩ := shown
  cases shown with
  | array array found areNumbers => rw [array] at scalar; cases scalar
  | row array areNumbers => rw [array] at scalar; cases scalar
  | @number copy _ isNumber =>
      have one {result : Copy} (isNumber : result.value.IsNumber type.isFloating) :
          Operand.OfType heap type (.item result) :=
        ⟨_, .number scalar isNumber⟩
      unfold onScalar
      rw [NumericType.isFloating_static]
      cases floating : type.isFloating with
      | true =>
          rw [floating] at isNumber
          have fits : copy.value.FitsInto true := isNumber.fitsInto id
          have double : (Evaluation.widen .float copy).value.IsNumber true :=
            Evaluation.isNumber_widen (show copy.value.FitsInto (NumericType.mk false true).2 from fits)
          rw [if_pos rfl, Operand.asDouble_item heap fits]
          cases op with
          | pointwise op => exact ofType_onNumber _ (double.fitsInto id) scalar floating.symm forks
          | quantifier op => exact ofType_onNumber _ (double.fitsInto id) scalar floating.symm forks
          | fold op => exact .ok (one (floating ▸ double))
          | last => exact .ok (one (floating ▸ double))
          | count => exact .ok (one floating)
      | false =>
          rw [floating] at isNumber
          rw [if_neg Bool.false_ne_true]
          cases op with
          | pointwise op => exact ofType_onNumber _ (isNumber.fitsInto id) scalar floating.symm forks
          | quantifier op => exact ofType_onNumber _ (isNumber.fitsInto id) scalar floating.symm forks
          | fold op => exact .ok (one (floating ▸ isNumber))
          | last => exact .ok (one (floating ▸ isNumber))
          | count => exact .ok (one floating)

/-- The operators that read all numbers of an array reduce those that an operand shows, in the domain
of its type. -/
theorem onArray_eq {op : MonadicOp} (notLast : op ≠ .last) (notCount : op ≠ .count)
    (array : type.isArray = true) {content : Nested Copy}
    (shown : Operand.Shows heap type operand content) :
    onArray heap op type.component operand =
      if type.isFloating then (reduce Float op content.items).map Operand.ofNumbers
      else (reduce Int op content.items).map Operand.ofNumbers := by
  have elements := shown.elements_eq
  rw [NumericType.static_of_array array] at elements
  have fit : ∀ copy ∈ content.items, copy.value.FitsInto type.isFloating :=
    fun copy isIn => (shown.areNumbers copy isIn).fitsInto id
  have read : onArray heap op type.component operand =
      if type.component = .float then
        onItems Float heap op type.component (content.items.map .item)
      else onItems Int heap op type.component (content.items.map .item) := by
    rw [onArray, elements]
    cases op with
    | last => exact absurd rfl notLast
    | count => exact absurd rfl notCount
    | _ => rfl
  rw [read]
  cases floating : type.isFloating with
  | true =>
      rw [floating] at fit
      rw [if_pos (by rw [NumericType.component, floating]; rfl), if_pos rfl, onItems_eq op type fit]
  | false =>
      rw [floating] at fit
      rw [if_neg (by rw [NumericType.component, floating]; simp), if_neg Bool.false_ne_true,
        onItems_eq op type fit]

/-- A monadic operator on an array gives an operand of the type of its rule, or fails for a reason
that is foreseen. -/
theorem yields_onArray (op : MonadicOp) (array : type.isArray = true)
    (shown : Operand.OfType heap type operand) (forks : Bool) :
    Yields (Operand.OfType heap (.ofMonadic op type)) (Failure.Foreseen forks)
      (onArray heap op type.component operand) := by
  obtain ⟨content, shown⟩ := shown
  have elements := shown.elements_eq
  rw [NumericType.static_of_array array] at elements
  -- All operators but these two read the numbers of the array, in the domain of its type.
  have all (notLast : op ≠ .last) (notCount : op ≠ .count) :
      Yields (Operand.OfType heap (.ofMonadic op type)) (Failure.Foreseen forks)
        (onArray heap op type.component operand) := by
    have sameType : NumericType.ofMonadic op type =
        ⟨(NumericType.ofMonadic op ⟨true, type.isFloating⟩).isArray, type.isFloating⟩ := by
      obtain ⟨isArray, isFloating⟩ := type
      cases array
      cases op with
      | last => exact absurd rfl notLast
      | count => exact absurd rfl notCount
      | _ => rfl
    rw [onArray_eq notLast notCount array shown, sameType]
    split
    · next floating =>
        exact (yields_reduce notLast notCount content.items type.isFloating forks).map
          fun numbers flat => Operand.ofType_ofNumbers heap flat floating.symm
    · next words =>
        have notFloating := Bool.eq_false_iff.mpr words
        exact (yields_reduce notLast notCount content.items type.isFloating forks).map
          fun numbers flat => Operand.ofType_ofNumbers heap flat notFloating.symm
  cases op with
  | pointwise op => exact all (by simp) (by simp)
  | quantifier op => exact all (by simp) (by simp)
  | fold op => exact all (by simp) (by simp)
  | count =>
      have isWord : (NumericType.ofMonadic .count type).isFloating = false := by
        simp [NumericType.ofMonadic, array]
      rw [onArray, elements]
      refine .ok ⟨_, .number rfl ?_⟩
      rw [isWord]
      rfl
  | last =>
      rw [onArray, elements]
      change Yields _ _ (if (content.items.map Nested.item).isEmpty = true then _ else _)
      split
      · exact .error (.emptyArray .last none)
      · next nonempty =>
          have inside : (content.items.map (Nested.item (α := Copy))).length - 1 <
              content.items.length := by
            have positive : 0 < content.items.length := by
              rw [List.isEmpty_map, List.isEmpty_iff] at nonempty
              exact List.length_pos_iff.mpr nonempty
            rw [List.length_map]
            omega
          rw [shown.element_eq array inside]
          exact .ok ⟨_, .number rfl (shown.areNumbers _ (List.getElem_mem _))⟩

/-- A monadic operator gives an operand of the type of its rule, or fails for a reason that is
foreseen. -/
theorem yields_monadic (op : MonadicOp) (shown : Operand.OfType heap type operand)
    (forks : Bool) :
    Yields (Operand.OfType heap (.ofMonadic op type)) (Failure.Foreseen forks)
      (monadic heap op type.static operand) := by
  cases array : type.isArray with
  | true =>
      rw [NumericType.static_of_array array]
      exact yields_onArray op array shown forks
  | false =>
      have onNumber : monadic heap op type.static operand =
          onScalar heap op type.static operand := by
        rw [NumericType.static_of_scalar array, NumericType.component]
        split <;> rfl
      rw [ofMonadic_scalar op array, onNumber]
      exact yields_onScalar op array shown forks

end

end Operation

end ArrayForks
