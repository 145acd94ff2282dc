import ArrayForks.Operation.Diadic
import ArrayForks.Operation.Monadic

/-! # Forks

A fork applies its outer operators to the same operand or operands, and its middle operator to the
two results. The results carry no static type, so the middle operator is chosen by the types that
the results show.

* **`monadicFork`** and **`diadicFork`** apply the outer operators, and **`combine`** the middle
  one. -/

namespace ArrayForks.Operation

variable [NumericLibrary]

/-- Combine the results of the outer operators of a fork. -/
def combine (heap : Heap) (middle : DiadicOp) (left right : Operand) : Except Failure Operand := do
  let leftType ← left.type heap
  let rightType ← right.type heap
  diadic heap middle leftType rightType left right

/-- Apply a monadic fork. -/
def monadicFork (heap : Heap) (fork : MonadicFork) (type : StaticType) (operand : Operand) :
    Except Failure Operand := do
  let left ← monadic heap fork.left type operand
  let right ← monadic heap fork.right type operand
  combine heap fork.middle left right

/-- Apply a diadic fork. -/
def diadicFork (heap : Heap) (fork : DiadicFork) (leftType rightType : StaticType)
    (left right : Operand) : Except Failure Operand := do
  let leftResult ← diadic heap fork.left leftType rightType left right
  let rightResult ← diadic heap fork.right leftType rightType left right
  combine heap fork.middle leftResult rightResult

end ArrayForks.Operation
