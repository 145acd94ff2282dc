import ArrayForks.Datum
import ArrayForks.Element
import ArrayForks.Equality
import ArrayForks.Nested

/-! # Operands

What operators take and give: a copy of a value, or the elements of an array that has just been
computed and is no object yet. Operators look elements up in the heap and never write to it, so a
result with elements of its own is an array that nothing else refers to. -/

namespace ArrayForks

/-- The origin of the text of a copy. A text is its own text, and the texts of `null` and of a
declaration are always the same ones; any other text is made when it is asked for. -/
def Copy.textOrigin : Copy → Origin
  | ⟨.string _, origin⟩ => origin
  | ⟨.null, _⟩ => .common
  | ⟨.function name declaration, _⟩ => (written declaration (.string name)).origin
  | ⟨.type name declaration, _⟩ => (written declaration (.string name)).origin
  | ⟨.builtin name identity, _⟩ => (written identity (.string name)).origin
  | _ => .fresh

/-- The text of a copy as a value. -/
def Copy.shown (heap : Heap) (copy : Copy) : Copy :=
  ⟨.string (heap.unfold copy.value).text, copy.textOrigin⟩

/-- A shown copy is the text of what it unfolds to. -/
@[simp] theorem Copy.value_shown (heap : Heap) (copy : Copy) :
    (copy.shown heap).value = .string (heap.unfold copy.value).text :=
  rfl

/-- A copy of a value, or the elements of an array without a place in the heap, which may be such
arrays themselves. -/
abbrev Operand := Nested Copy

namespace Operand

/-- The elements of an operand where an array is expected. -/
def items? (heap : Heap) : Operand → Option (List Operand)
  | .item copy => (heap.items? copy.value).map fun items => items.map .item
  | .row parts => some parts

/-- The element of an operand at a place. -/
def element (heap : Heap) (operand : Operand) (place : Nat) : Except Failure Operand :=
  match operand with
  | .item copy => (heap.element copy.value (.word place)).map .item
  | .row parts =>
      match parts[place]? with
      | some part => .ok part
      | none => .error .wrongKind

mutual

/-- An operand with all that it refers to. -/
def unfold (heap : Heap) : Operand → Datum
  | .item copy => heap.unfold copy.value
  | .row parts => .array (unfoldAll heap parts)

/-- Operands with all that they refer to. -/
def unfoldAll (heap : Heap) : List Operand → List Datum
  | [] => []
  | part :: parts => unfold heap part :: unfoldAll heap parts

end

/-- The text of an operand. -/
def text (heap : Heap) (operand : Operand) : String :=
  (operand.unfold heap).text

/-- The text of an operand as a value. -/
def shown (heap : Heap) (operand : Operand) : Copy :=
  match operand with
  | .item copy => copy.shown heap
  | operand => .new (.string (operand.text heap))

/-- A shown operand is its text. -/
@[simp] theorem value_shown (heap : Heap) (operand : Operand) :
    (operand.shown heap).value = .string (operand.text heap) := by
  cases operand <;> rfl

/-- The type that an operand shows. -/
def type (heap : Heap) (operand : Operand) : Except Failure StaticType :=
  (operand.unfold heap).type.mapError .violation

/-- Whether two operands are equal by content. An array that is no object yet is never asked. -/
def equal (heap : Heap) : Operand → Operand → Bool
  | .item left, .item right => heap.equal left.value right.value
  | _, _ => false

/-- Whether two operands are one copy. An array that is no object yet is not the same as
anything. -/
def same : Operand → Operand → Bool
  | .item left, .item right => left.same right
  | _, _ => false

/-- The elements of an operand of a type, where anything but an array is one element. -/
def elements (heap : Heap) (type : StaticType) (operand : Operand) :
    Except Failure (List Operand) :=
  if type.isArray then
    match operand.items? heap with
    | some items => .ok items
    | none => .error .wrongKind
  else .ok [operand]

end Operand

end ArrayForks
