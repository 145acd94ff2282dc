import ArrayForks.Numeric.Coerced

/-! # Monadic operators

A monadic operator reduces an array to one value or maps its elements, and treats a single number as
the only element of an array, without making one. An empty array is reduced to the neutral number of
the operator if there is one.

* **`onScalar`** and **`onArray`** are the operators on single numbers and on arrays, and
  **`onEmpty`** on the empty array.
* **`monadic heap op type operand`** chooses between them by the static type. -/

namespace ArrayForks.Operation

/-- The result of an operator on numbers. A single number is its own fold, its own last element and
the only one of its elements; of rows, only those of single numbers can be folded. -/
def onNumbers {α : Type} [Domain α] (op : MonadicOp) (numbers : Nested α) :
    Except Failure (Nested α) :=
  match op with
  | .pointwise op => Domain.pointwise op numbers
  | .quantifier op => .ok (.item (Domain.ofBool (Domain.test op numbers.items)))
  | .fold op' =>
      match numbers with
      | .item number => .ok (.item number)
      | .row parts =>
          match Nested.flat? parts with
          | none => .error .wrongKind
          | some values =>
              match Domain.foldRight? op' values with
              | none => (RuntimeError.emptyArray op).raise
              | some (result, hitZero) =>
                  if hitZero && Domain.foldTraps α op' then
                    (RuntimeError.divisionByZero .fold).raise
                  else .ok (.item result)
  | .last => .ok numbers
  | .count => .ok (.item Domain.one)

/-- Apply an operator that looks at the number to an operand of a single number's type. -/
def onNumber (α : Type) [Domain α] (heap : Heap) (op : MonadicOp) (operand : Operand) :
    Except Failure Operand := do
  let numbers : Nested α ← Domain.ofDatum (operand.unfold heap)
  let result ← onNumbers op numbers
  .ok (Operand.ofNumbers result)

variable [NumericLibrary]

/-- Apply an operator to an operand of a single number's type. A fold and the last element give the
operand back, and the number of elements does not depend on it; but under the type `Float` the
operand first has to be a double or to become one. -/
def onScalar (heap : Heap) (op : MonadicOp) (type : StaticType) (operand : Operand) :
    Except Failure Operand :=
  if type.isFloating then do
    let double ← operand.asDouble heap
    match op with
    | .fold _ | .last => .ok (.item double)
    | .count => .ok (.item ⟨.float 1.0, .common⟩)
    | op => onNumber Float heap op (.item double)
  else
    match op with
    | .fold _ | .last => .ok operand
    | .count => .ok (.item (.new (.int 1)))
    | op => onNumber Int heap op operand

/-- The result of an operator on the empty array. -/
def onEmpty (α : Type) [Domain α] (op : MonadicOp) : Except Failure (Nested α) :=
  match op with
  | .pointwise _ => .ok (.row [])
  | .quantifier op => .ok (.item (Domain.ofBool (Domain.test op ([] : List α))))
  | .fold op' =>
      match Domain.neutral? op' with
      | some number => .ok (.item number)
      | none => (RuntimeError.emptyArray op).raise
  | op => (RuntimeError.emptyArray op).raise

/-- Reduce or map the elements of an array in a domain. The component type matters only when there
are elements. -/
def onItems (α : Type) [Domain α] (heap : Heap) (op : MonadicOp) (component : StaticType)
    (items : List Operand) : Except Failure Operand :=
  if items.isEmpty then (onEmpty α op).map Operand.ofNumbers
  else if component.isNumeric then do
    let numbers : Nested α ← Domain.ofData (items.map (Operand.unfold heap))
    let result ← onNumbers op numbers
    .ok (Operand.ofNumbers result)
  else (Violation.nonNumericArray component.array).raise

/-- Apply an operator to an operand of an array's type. The number of elements and the last element
are asked of arrays of any component type. -/
def onArray (heap : Heap) (op : MonadicOp) (component : StaticType) (operand : Operand) :
    Except Failure Operand := do
  let items ← operand.elements heap component.array
  match op with
  | .count => .ok (.item (.new (.int items.length)))
  | .last =>
      if items.isEmpty then (RuntimeError.emptyArray .last).raise
      else operand.element heap (items.length - 1)
  | op =>
      if component = .float then onItems Float heap op component items
      else onItems Int heap op component items

/-- Apply a monadic operator. -/
def monadic (heap : Heap) (op : MonadicOp) (type : StaticType) (operand : Operand) :
    Except Failure Operand :=
  match type with
  | .array component => onArray heap op component operand
  | type =>
      if type.isNumeric then onScalar heap op type operand
      else (Violation.monadicType op type).raise

end ArrayForks.Operation
