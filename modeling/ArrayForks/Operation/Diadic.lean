import ArrayForks.Numeric.Coerced

/-! # Diadic operators

What a diadic operator does is chosen by the static types of its operands. Adding anything to a text
joins the texts of both; laying out takes the elements of both; an array on either side lifts a
numeric operator to all elements; two numbers meet in the numeric operator itself; and whatever is
left can only be compared for equality.

* **`ruleFor op leftType rightType : Rule`** is the choice.
* **`diadic heap op leftType rightType left right`** is the operator itself. -/

namespace ArrayForks.Operation

/-- What a diadic operator does with operands of two types. -/
inductive Rule where
  /-- Join the texts of both operands. -/
  | join
  /-- Lay out the elements of both operands. -/
  | layOut
  /-- Apply a numeric operator to all elements. -/
  | lift
  /-- Apply a numeric operator to two numbers. -/
  | compute
  /-- Compare for equality. -/
  | equality
  /-- Compare for inequality. -/
  | inequality
  /-- Nothing: the operator does not apply. -/
  | none
  deriving DecidableEq, Repr

/-- The rule for an operator and two types. -/
def ruleFor (op : DiadicOp) (leftType rightType : StaticType) : Rule :=
  if op = .arithmetic .add ∧ (leftType = .string ∨ rightType = .string) then .join
  else if op = .concat then .layOut
  else if leftType.isArray || rightType.isArray then .lift
  else if leftType.isNumeric && rightType.isNumeric then .compute
  else
    match op with
    | .comparison .equal => .equality
    | .comparison .notEqual => .inequality
    | _ => .none

/-- Join the texts of both operands. Joining the empty text gives the other text itself. -/
def join (heap : Heap) (left right : Operand) : Copy :=
  if left.text heap = "" then right.shown heap
  else if right.text heap = "" then left.shown heap
  else .new (.string (left.text heap ++ right.text heap))

/-- `(join heap left right).value = .string (left.text heap ++ right.text heap)`. -/
@[simp] theorem value_join (heap : Heap) (left right : Operand) :
    (join heap left right).value = .string (left.text heap ++ right.text heap) := by
  unfold join
  split
  · simp [*]
  · split <;> simp [*]

/-- Lay out the elements of both operands. Words become doubles when both types are numeric in shape
and one of them is floating. -/
def layOut (heap : Heap) (leftType rightType : StaticType) (left right : Operand) :
    Except Failure Operand := do
  let leftItems ← left.elements heap leftType
  let rightItems ← right.elements heap rightType
  let items := leftItems ++ rightItems
  if leftType.isNumericShape && rightType.isNumericShape && leftType.floatingWith rightType then do
    let doubles ← items.mapM (Operand.asDouble heap)
    .ok (.ofList doubles)
  else .ok (.row items)

variable [NumericLibrary]

/-- Lift a numeric operator to the elements of arrays. Two arrays have to be of one length, which is
checked before anything is computed. -/
def lift (heap : Heap) (op : DiadicOp) (leftType rightType : StaticType) (left right : Operand) :
    Except Failure Operand := do
  let pair ← Coerced.ofOperands heap leftType rightType left right
  let (leftLength, rightLength) := pair.lengths
  if leftType.isArray && rightType.isArray && leftLength != rightLength then
    (RuntimeError.lengthMismatch leftLength rightLength).raise
  else pair.apply op

/-- Equality of operands that are not both numbers: by content when the left type is primitive, and
by sameness otherwise. -/
def areEqual (heap : Heap) (leftType : StaticType) (left right : Operand) : Bool :=
  if leftType.isPrimitive then left.equal heap right else left.same right

/-- Apply a diadic operator. -/
def diadic (heap : Heap) (op : DiadicOp) (leftType rightType : StaticType)
    (left right : Operand) : Except Failure Operand :=
  match ruleFor op leftType rightType with
  | .join => .ok (.item (join heap left right))
  | .layOut => layOut heap leftType rightType left right
  | .lift => lift heap op leftType rightType left right
  | .compute => do
      let pair ← Coerced.ofOperands heap leftType rightType left right
      pair.apply op
  | .equality => .ok (.item (.new (.ofBool (areEqual heap leftType left right))))
  | .inequality => .ok (.item (.new (.ofBool (!areEqual heap leftType left right))))
  | .none => (Violation.diadicTypes op leftType rightType).raise

end ArrayForks.Operation
