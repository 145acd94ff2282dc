import ArrayForks.Failure
import ArrayForks.Heap

/-! # Elements

Reading one element of a value by its index. An index is checked against the number of elements
first, and a double passes that check like a word; but only words are places in an array or a text.
A structure has an element at an index if the index finds one of its entries.

* **`Index.check`** checks an index against a length, and **`Heap.element`** reads the element. -/

namespace ArrayForks

/-- Check an index against a number of elements. -/
def Index.check (index : Value) (length : Nat) : Except Failure Index :=
  match index with
  | .int n =>
      if n < 0 then (RuntimeError.negativeIndex index).raise
      else if length ≤ n then (RuntimeError.indexBeyond index length).raise
      else .ok (.word n.toNat)
  | .float x =>
      if x < 0.0 then (RuntimeError.negativeIndex index).raise
      else if Float.ofNat length ≤ x then (RuntimeError.indexBeyond index length).raise
      else .ok (.double x)
  | _ => .error .wrongKind

/-- An index that passes the check is a place among the elements. -/
theorem Index.lt_of_check {index : Value} {length place : Nat}
    (checked : check index length = .ok (.word place)) : place < length := by
  unfold check at checked
  split at checked
  · split at checked
    · cases checked
    · split at checked
      · cases checked
      · cases checked
        omega
  · split at checked
    · cases checked
    · split at checked
      · cases checked
      · cases checked
  · cases checked

/-- The element of a value at an index. -/
def Heap.element (heap : Heap) (value : Value) (index : Index) : Except Failure Copy :=
  match heap.object? value with
  | some (.record entries) =>
      match entries.find? (Key.among entries.names index) with
      | some element => .ok element
      | none => .error .missingElement
  | _ =>
      match index, heap.items? value with
      | .word place, some items =>
          match items[place]? with
          | some element => .ok element
          | none => .error .missingElement
      | _, _ => .error .wrongKind

end ArrayForks
