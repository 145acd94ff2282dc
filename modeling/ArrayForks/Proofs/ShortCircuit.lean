import ArrayForks.Execution
import ArrayForks.Proofs.Magnitudes
import ArrayForks.Proofs.SingleSteps

/-! # Short circuit

A connective of two numbers whose left operand decides it does not evaluate the right one. What it
gives then is what the operator itself would have given: the early decision asks whether the left
operand is zero, `left.isZero`, and the operator asks the library whether it differs from zero, which
comes to the same if comparisons are exact (`NumericLibrary.ComparesExactly`).

* `Operation.diadic_connective`: as an operator, a connective is `Connective.holds` of the truth
  values `!left.isZero` and `!right.isZero`.
* `Evaluation.decided?_connective`: the early decision is that of `Connective.holds`.
* `Evaluation.run_connective`: so evaluation gives what the operator gives. -/

namespace ArrayForks

/-- A connective of two truth values. -/
def Connective.holds : Connective → Bool → Bool → Bool
  | .and, left, right => left && right
  | .or, left, right => left || right

/-- `connect op left right = op.holds (isTrue left) (isTrue right)`: the connectives of a domain are
those of truth values. -/
theorem Domain.connect_eq {α : Type} [Domain α] (op : Connective) (left right : α) :
    connect op left right = op.holds (isTrue left) (isTrue right) := by
  cases op <;> rfl

namespace Operation

variable [library : NumericLibrary] {leftType rightType : NumericType} {left right : Copy}

/-- `isTrue (Word.number value) = !value.isZero`: a word counts as true unless it is zero. -/
theorem isTrue_word {value : Value} (isWord : value.IsNumber false) :
    Domain.isTrue (Word.number value) = !value.isZero := by
  obtain ⟨n, rfl⟩ := (isWord.fitsInto id).word
  change Domain.isTrue n = !decide (n = 0)
  rw [Word.isTrue_eq, decide_not]

/-- `isTrue (Floating.number value) = !value.isZero`: where comparisons are exact, a number counts as
true unless it is zero, in whatever way it has become a double. -/
theorem isTrue_double (exactly : library.ComparesExactly) {value : Value} {floating : Bool}
    (isNumber : value.IsNumber floating) :
    Domain.isTrue (Floating.number value) = !value.isZero := by
  change library.compare .notEqual (Floating.number value) 0.0 = _
  rw [exactly]
  cases value with
  | int n =>
      change (!(Float.ofInt n == 0.0)) = !decide (n = 0)
      rw [Binary64.beq_zero_ofInt]
  | float x => rfl
  | _ => cases isNumber

/-- As an operator, a connective of two numbers is that of their truth values,
`op.holds (!left.isZero) (!right.isZero)`, in the domain that is wide enough for both. -/
theorem diadic_connective (exactly : library.ComparesExactly) (op : Connective)
    (leftNumber : left.value.IsNumber leftType.isFloating)
    (rightNumber : right.value.IsNumber rightType.isFloating) (heap : Heap) :
    diadic heap (.connective op) leftType.component rightType.component (.item left)
        (.item right) =
      .ok (.item (.new (.truth (leftType.isFloating || rightType.isFloating)
        (op.holds (!left.value.isZero) (!right.value.isZero))))) := by
  rw [diadic_items (by simp) leftNumber rightNumber]
  cases floating : leftType.isFloating || rightType.isFloating with
  | true =>
      rw [if_pos rfl, Coerced.compute_items rfl]
      change Except.ok (Nested.item (Copy.new (Value.float (Domain.ofBool
        (Domain.connect op (Floating.number left.value) (Floating.number right.value)))))) = _
      rw [Domain.connect_eq, isTrue_double exactly leftNumber, isTrue_double exactly rightNumber]
      rfl
  | false =>
      obtain ⟨leftWords, rightWords⟩ := Bool.or_eq_false_iff.mp floating
      rw [leftWords] at leftNumber
      rw [rightWords] at rightNumber
      rw [if_neg Bool.false_ne_true, Coerced.compute_items rfl]
      change Except.ok (Nested.item (Copy.new (Value.int (Domain.ofBool
        (Domain.connect op (Word.number left.value) (Word.number right.value)))))) = _
      rw [Domain.connect_eq, isTrue_word leftNumber, isTrue_word rightNumber]
      rfl

end Operation

namespace Evaluation

/-- The early decision of a connective of two numbers: a zero decides `and`, anything else `or`. -/
theorem decided?_connective (op : Connective) {leftType rightType : NumericType}
    (leftScalar : leftType.isArray = false) (rightScalar : rightType.isArray = false)
    (left : Value) :
    decided? (.connective op) leftType.static rightType.static left =
      if left.isZero = (op == .and) then
        some (.truth (leftType.isFloating || rightType.isFloating) (op == .or))
      else none := by
  have bothNumeric : (leftType.static.isNumeric && rightType.static.isNumeric) = true := by
    rw [NumericType.static_of_scalar leftScalar, NumericType.static_of_scalar rightScalar,
      NumericType.isNumeric_component, NumericType.isNumeric_component, Bool.and_self]
  cases op with
  | and =>
      rw [decided?, if_pos bothNumeric, NumericType.floatingWith_static]
      cases left.isZero <;> rfl
  | or =>
      rw [decided?, if_pos bothNumeric, NumericType.floatingWith_static]
      cases left.isZero <;> rfl

/-- What the left operand decides is what the connective gives, whatever is on its right. -/
theorem getD_decided?_connective (op : Connective) {leftType rightType : NumericType}
    (leftScalar : leftType.isArray = false) (rightScalar : rightType.isArray = false)
    (left : Value) (right : Bool) :
    (decided? (.connective op) leftType.static rightType.static left).getD
        (.truth (leftType.isFloating || rightType.isFloating) (op.holds (!left.isZero) right)) =
      .truth (leftType.isFloating || rightType.isFloating) (op.holds (!left.isZero) right) := by
  rw [decided?_connective op leftScalar rightScalar]
  cases op with
  | and => cases left.isZero <;> rfl
  | or => cases left.isZero <;> rfl

section

variable [library : NumericLibrary] {annotations : Annotations} {calls : Calls} {left right : Node}
  {leftType rightType : NumericType} {machine afterLeft afterRight : Machine}
  {leftCopy rightCopy : Copy} {op : Connective}

/-- A connective of two numbers gives what its left operand decides, and otherwise what the operator
gives. -/
theorem run_connective (id : NodeId)
    (leftTyped : annotations.typeOf left = .ok leftType.static)
    (rightTyped : annotations.typeOf right = .ok rightType.static)
    (leftRan : (evaluate annotations calls left).run machine = .done leftCopy afterLeft)
    (rightRan : (evaluate annotations calls right).run afterLeft = .done rightCopy afterRight)
    {eager : Value}
    (computed : ∀ heap, Operation.diadic heap (.connective op) leftType.static rightType.static
      (.item leftCopy) (.item rightCopy) = .ok (.item (.new eager))) :
    ∃ result final,
      (evaluate annotations calls (.diadic id left (.connective op) right)).run machine =
          .done result final ∧
        result.value = (decided? (.connective op) leftType.static rightType.static
          leftCopy.value).getD eager := by
  cases decision : decided? (.connective op) leftType.static rightType.static leftCopy.value with
  | some value =>
      refine ⟨_, { afterLeft with made := afterLeft.made + 1 }, Eval.run_locate_of_done ?_ _,
        Copy.value_keep (.new value) afterLeft.made⟩
      rw [Eval.run_bind_of_done (run_typeOf leftTyped machine),
        Eval.run_bind_of_done (run_typeOf rightTyped machine),
        Eval.run_bind_of_done leftRan, decision]
      rfl
  | none =>
      refine ⟨_, { afterRight with made := afterRight.made + 1 }, Eval.run_locate_of_done ?_ _,
        Copy.value_keep (.new eager) afterRight.made⟩
      rw [Eval.run_bind_of_done (run_typeOf leftTyped machine),
        Eval.run_bind_of_done (run_typeOf rightTyped machine),
        Eval.run_bind_of_done leftRan, decision]
      dsimp only
      rw [Eval.run_bind_of_done rightRan, Eval.operate,
        Eval.run_bind_of_done (Eval.run_look Machine.heap afterRight), computed]
      rfl

end

end Evaluation

/-- **Short circuit.** Let `left` and `right` be nodes of the types `Int` or `Float` that evaluate to
numbers `leftCopy` and then `rightCopy`, and let comparisons be exact. Then

`evaluate (.diadic id left (.connective op) right)` has the value
`.truth floating (op.holds (!leftCopy.value.isZero) (!rightCopy.value.isZero))`,

where `floating` says whether either type is, even if it does not get to its right operand; and
`Operation.diadic` gives the same value for the two copies. -/
theorem evaluate_connective [library : NumericLibrary] (exactly : library.ComparesExactly)
    (annotations : Annotations) (calls : Calls) (id : NodeId) (op : Connective)
    (left right : Node) (leftType rightType : NumericType)
    (leftScalar : leftType.isArray = false) (rightScalar : rightType.isArray = false)
    (leftTyped : annotations.typeOf left = .ok leftType.static)
    (rightTyped : annotations.typeOf right = .ok rightType.static)
    (machine afterLeft afterRight : Machine) (leftCopy rightCopy : Copy)
    (leftRan : (Evaluation.evaluate annotations calls left).run machine = .done leftCopy afterLeft)
    (rightRan :
      (Evaluation.evaluate annotations calls right).run afterLeft = .done rightCopy afterRight)
    (leftNumber : leftCopy.value.IsNumber leftType.isFloating)
    (rightNumber : rightCopy.value.IsNumber rightType.isFloating) :
    let value := Value.truth (leftType.isFloating || rightType.isFloating)
      (op.holds (!leftCopy.value.isZero) (!rightCopy.value.isZero))
    (∃ result final,
      (Evaluation.evaluate annotations calls (.diadic id left (.connective op) right)).run machine =
          .done result final ∧
        result.value = value) ∧
      ∀ heap, Operation.diadic heap (.connective op) leftType.static rightType.static
        (.item leftCopy) (.item rightCopy) = .ok (.item (.new value)) := by
  intro value
  have computed := Operation.diadic_connective exactly op leftNumber rightNumber
  rw [← NumericType.static_of_scalar leftScalar, ← NumericType.static_of_scalar rightScalar]
    at computed
  obtain ⟨result, final, ran, isValue⟩ := Evaluation.run_connective id leftTyped rightTyped leftRan
    rightRan computed
  refine ⟨⟨result, final, ran, ?_⟩, computed⟩
  rw [isValue]
  exact Evaluation.getD_decided?_connective op leftScalar rightScalar _ _

/-- Two nodes of the type `Float`. -/
def Annotations.ofDoubles (first second : NodeId) : Annotations :=
  Annotations.empty |>.annotate first .float |>.annotate second .float

/-- `ofDoubles first second` records `Float` for either node. -/
theorem Annotations.typeOf_ofDoubles {first second : NodeId} {node : Node}
    (isEither : node.id = first ∨ node.id = second) :
    (ofDoubles first second).typeOf node = .ok .float := by
  rcases isEither with isFirst | isSecond
  · simp [ofDoubles, typeOf, types_annotate, isFirst]
  · simp [ofDoubles, typeOf, types_annotate, isSecond]

/-- `0.5 || 0.0` is `1.0`, evaluated and as an operator. -/
theorem evaluate_connective_half :
    letI : NumericLibrary := .standard
    let annotations := Annotations.ofDoubles 1 2
    let either := Node.diadic 3 (.float 1 0.5) (.connective .or) (.float 2 0.0)
    NumericLibrary.standard.ComparesExactly ∧
      annotations.typeOf (.float 1 0.5) = .ok .float ∧
      annotations.typeOf (.float 2 0.0) = .ok .float ∧
      (∃ result final,
        (Evaluation.evaluate annotations (Execution.callsTo annotations 1) either).run .initial =
            .done result final ∧
          result.value = .float 1.0) ∧
        ∀ heap, Operation.diadic heap (.connective .or) .float .float
          (.item (.written 1 (.float 0.5))) (.item (.written 2 (.float 0.0))) =
            .ok (.item (.new (.float 1.0))) := by
  let : NumericLibrary := .standard
  intro annotations either
  have leftTyped : annotations.typeOf (.float 1 0.5) = .ok .float :=
    Annotations.typeOf_ofDoubles (.inl rfl)
  have rightTyped : annotations.typeOf (.float 2 0.0) = .ok .float :=
    Annotations.typeOf_ofDoubles (.inr rfl)
  have isOne : Value.truth true (Connective.or.holds (!(Value.float 0.5).isZero)
      (!(Value.float 0.0).isZero)) = .float 1.0 := by
    decide
  obtain ⟨evaluated, computed⟩ := @evaluate_connective .standard
    NumericLibrary.standard_comparesExactly annotations (Execution.callsTo annotations 1) 3 .or
    (.float 1 0.5) (.float 2 0.0) ⟨false, true⟩ ⟨false, true⟩ rfl rfl leftTyped rightTyped .initial
    .initial .initial (.written 1 (.float 0.5)) (.written 2 (.float 0.0)) rfl rfl rfl rfl
  rw [Copy.value_written, Copy.value_written] at evaluated computed
  refine ⟨NumericLibrary.standard_comparesExactly, leftTyped, rightTyped, ?_, ?_⟩
  · obtain ⟨result, final, ran, value⟩ := evaluated
    exact ⟨result, final, ran, value.trans isOne⟩
  · intro heap
    rw [← isOne]
    exact computed heap

end ArrayForks
