import ArrayForks.Element

/-! # Conditions

A number holds as a condition when it is not zero, and an array of numbers when its first element
does; the empty array does not hold. Values of other types are no conditions. -/

namespace ArrayForks.Operation

/-- Whether a value of a type holds as a condition. -/
def holds (heap : Heap) (type : StaticType) (value : Value) : Except Failure Bool :=
  match type with
  | .int | .float => .ok (!value.isZero)
  | .array component =>
      if component.isNumeric then
        match heap.items? value with
        | some [] => .ok false
        | some (_ :: _) => (heap.element value (.word 0)).map fun first => !first.value.isZero
        | none => if value = .null ∨ value.isZero then .ok false else .error .wrongKind
      else (Violation.notCondition type).raise
  | type => (Violation.notCondition type).raise

end ArrayForks.Operation
