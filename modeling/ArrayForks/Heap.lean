import ArrayForks.Bindings
import ArrayForks.Copy
import ArrayForks.Key

/-! # The heap

Arrays, structures and constructors are objects at numbered places. An object is made at the next
free place and stays there; its elements and fields may be written, so that every reference to the
object sees the change.

* **`heap.alloc object`** makes an object, **`heap.get? ref`** looks it up, and
  **`heap.replace ref`** writes it. -/

namespace ArrayForks

/-- What a reference refers to. -/
inductive Object where
  /-- An array with its elements. -/
  | array (items : List Copy)
  /-- A structure with its entries. -/
  | record (entries : Bindings Key Copy)
  /-- A constructor of a type. -/
  | constructor (of : Value)

/-- The objects made so far; the place of an object is its index. -/
structure Heap where
  /-- The objects, oldest first. -/
  objects : Array Object

namespace Heap

/-- The heap without objects. -/
def empty : Heap :=
  ⟨#[]⟩

/-- The object at a place. -/
def get? (heap : Heap) (ref : Ref) : Option Object :=
  heap.objects[ref]?

/-- Make an object at the next free place. -/
def alloc (heap : Heap) (object : Object) : Ref × Heap :=
  (heap.objects.size, ⟨heap.objects.push object⟩)

/-- Put another object at a place. -/
def replace (heap : Heap) (ref : Ref) (object : Object) : Heap :=
  ⟨heap.objects.setIfInBounds ref object⟩

/-- The object that a value refers to. -/
def object? (heap : Heap) : Value → Option Object
  | .object ref => heap.get? ref
  | _ => none

/-- The elements of a value where an array is expected: those of an array, the characters of a text,
and the keys of a structure. -/
def items? (heap : Heap) (value : Value) : Option (List Copy) :=
  match value with
  | .string text => some (text.toList.map fun c => .new (.string c.toString))
  | value =>
      match heap.object? value with
      | some (.array items) => some items
      | some (.record entries) => some (entries.names.map fun key => .new key.value)
      | _ => none

/-! ### Making, reading and writing objects -/

/-- There are objects at the places up to the size of the heap only. -/
theorem lt_size_of_get? {heap : Heap} {ref : Ref} {object : Object}
    (found : heap.get? ref = some object) : ref < heap.objects.size :=
  (Array.getElem?_eq_some_iff.mp found).1

/-- A value refers to an object by its place alone. -/
theorem object?_eq_some {heap : Heap} {value : Value} {object : Object}
    (found : heap.object? value = some object) :
    ∃ ref, value = .object ref ∧ heap.get? ref = some object := by
  cases value with
  | object ref => exact ⟨ref, rfl, found⟩
  | _ => cases found

/-- A new object is found at its place. -/
@[simp] theorem get?_alloc_self (heap : Heap) (object : Object) :
    (heap.alloc object).2.get? (heap.alloc object).1 = some object := by
  simp [alloc, get?]

/-- A new object takes the place of no other. -/
theorem get?_alloc_of_lt (heap : Heap) (object : Object) {ref : Ref}
    (before : ref < heap.objects.size) :
    (heap.alloc object).2.get? ref = heap.get? ref := by
  simp only [alloc, get?]
  exact Array.getElem?_push_lt before |>.trans (Array.getElem?_eq_getElem before).symm

/-- A new object is found at its place, and every other object where it was. -/
theorem get?_alloc (heap : Heap) (object : Object) (ref : Ref) :
    (heap.alloc object).2.get? ref =
      if ref = heap.objects.size then some object else heap.get? ref := by
  simp only [alloc, get?, Array.getElem?_push]

/-- Another object at a place is seen there and nowhere else. -/
theorem get?_replace (heap : Heap) (ref other : Ref) (object : Object) :
    (heap.replace ref object).get? other =
      if ref = other ∧ ref < heap.objects.size then some object else heap.get? other := by
  simp only [replace, get?, Array.getElem?_setIfInBounds]
  by_cases same : ref = other
  · by_cases before : ref < heap.objects.size
    · simp [same ▸ before, same]
    · have beyond : ¬ other < heap.objects.size := same ▸ before
      simp [same, beyond]
  · simp [same]

/-- Making an object makes room for it. -/
@[simp] theorem size_alloc (heap : Heap) (object : Object) :
    (heap.alloc object).2.objects.size = heap.objects.size + 1 :=
  Array.size_push ..

/-- Writing makes no room. -/
@[simp] theorem size_replace (heap : Heap) (ref : Ref) (object : Object) :
    (heap.replace ref object).objects.size = heap.objects.size := by
  simp [replace]

end Heap

end ArrayForks
