import ArrayForks.Numeric.Floating
import ArrayForks.Numeric.Integer
import ArrayForks.Operand

/-! # Coerced pairs

Two operands enter a numeric operator as numbers of one domain. They are doubles as soon as either
static type is floating, and words otherwise. A numeric operator then stretches both to one shape
and works on each pair of numbers, unless it traps.

* **`Coerced`** is a pair of operands as numbers, `.words left right` or `.doubles left right`,
  and **`Coerced.ofOperands`** reads operands as one.
* **`applyIn op left right`** works in one domain: it pairs both sides, looks for a trap, and
  applies the kernel of `op` to each pair. **`apply op`** does so in either. -/

namespace ArrayForks

/-- The numbers of two operands in one domain. -/
inductive Coerced where
  /-- Words on both sides. -/
  | words (left right : Nested Int)
  /-- Doubles on both sides. -/
  | doubles (left right : Nested Float)

/-- The numbers of an operand of a type. A type that is not numeric in shape is refused before the
operand is looked at. -/
def Operand.numbers {α : Type} [Domain α] (heap : Heap) (type : StaticType) (operand : Operand) :
    Except Failure (Nested α) :=
  match type with
  | .array component =>
      if component.isNumeric then do
        let items ← operand.elements heap (.array component)
        Domain.ofData (items.map (Operand.unfold heap))
      else (Violation.nonNumericArray component.array).raise
  | scalar =>
      if scalar.isNumeric then Domain.ofDatum (operand.unfold heap)
      else (Violation.nonNumericOperand scalar).raise

/-- Numbers as an operand. -/
def Operand.ofNumbers {α : Type} [Domain α] (numbers : Nested α) : Operand :=
  numbers.map fun number => .new (Domain.toValue number)

/-- An operand as a double. A double stays the copy that it is. -/
def Operand.asDouble (heap : Heap) (operand : Operand) : Except Failure Copy :=
  match operand with
  | .item ⟨.float x, origin⟩ => .ok ⟨.float x, origin⟩
  | operand => (Floating.readDatum (operand.unfold heap)).map fun x => .new (.float x)

/-- Whether an operator on operands of these types works on doubles. -/
def StaticType.floatingWith (left right : StaticType) : Bool :=
  left.isFloating || right.isFloating

namespace Coerced

variable [NumericLibrary]

/-- Bring two operands into one domain, the left one first. -/
def ofOperands (heap : Heap) (leftType rightType : StaticType) (left right : Operand) :
    Except Failure Coerced :=
  if leftType.floatingWith rightType then do
    let leftNumbers ← left.numbers heap leftType
    let rightNumbers ← right.numbers heap rightType
    .ok (.doubles leftNumbers rightNumbers)
  else do
    let leftNumbers ← left.numbers heap leftType
    let rightNumbers ← right.numbers heap rightType
    .ok (.words leftNumbers rightNumbers)

/-- The lengths of both sides. -/
def lengths : Coerced → Nat × Nat
  | .words left right => (left.length, right.length)
  | .doubles left right => (left.length, right.length)

/-- A numeric operator on the numbers of two operands in one domain. -/
def applyIn {α : Type} [Domain α] (op : DiadicOp) (left right : Nested α) :
    Except Failure (Nested α) :=
  match Domain.kernel? (right.isSpreadOver left) op, Domain.trapOnRights? op right.items with
  | none, _ => (Violation.noNumericForm op).raise
  -- A zero divisor counts before shapes do, even if it would be paired with nothing.
  | some _, some cause => (RuntimeError.divisionByZero cause).raise
  | some kernel, none =>
      match left.pairs? right with
      | none => .error (Domain.unpaired op left right)
      | some pairs =>
          match Domain.trapOnPairs? op pairs.items with
          | some cause => (RuntimeError.divisionByZero cause).raise
          | none => .ok (pairs.map fun pair => kernel pair.1 pair.2)

/-- A numeric operator on a coerced pair. Comparisons and connectives give one or zero in the domain
of the pair. -/
def apply (op : DiadicOp) : Coerced → Except Failure Operand
  | .words left right => (applyIn op left right).map Operand.ofNumbers
  | .doubles left right => (applyIn op left right).map Operand.ofNumbers

end Coerced

end ArrayForks
