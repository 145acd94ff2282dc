import ArrayForks.Binary64.Decoded
import ArrayForks.Heap

/-! # Equality by content

Numbers and texts are equal by what they are, arrays element by element, and structures entry by
entry in whatever order. Within an array or a structure one and the same copy is equal to itself
without a look at it, which matters for an undefined double.

* **`heap.equal left right`** decides equality by content. -/

namespace ArrayForks

/-- Equality of values that refer to nothing. A word and a double are equal when they are the same
number; an undefined double equals nothing. -/
def Value.equalAtoms : Value → Value → Bool
  | .float x, .float y => x == y
  | .int n, .float x => Binary64.integer? x = some n
  | .float x, .int n => Binary64.integer? x = some n
  | left, right => left = right

namespace Heap

/-- Equality along chains of at most `depth` references. Constructors are equal by place. -/
def equalTo (heap : Heap) : (depth : Nat) → (left right : Value) → Bool
  | 0, _, _ => false
  | depth + 1, left, right =>
      let held (left right : Copy) : Bool :=
        left.same right || heap.equalTo depth left.value right.value
      match heap.object? left, heap.object? right with
      | none, none => left.equalAtoms right
      | some (.array lefts), some (.array rights) =>
          lefts.length == rights.length && (lefts.zip rights).all fun pair => held pair.1 pair.2
      | some (.record lefts), some (.record rights) =>
          lefts.size == rights.size && lefts.entries.all fun entry =>
            match rights.find? entry.1 with
            | some right => held entry.2 right
            | none => false
      | some (.constructor _), some (.constructor _) => left = right
      | _, _ => false

/-- Equality of values. A comparison that comes to an end passes each pair of objects at most once on
its way down, so the number of pairs is depth enough. -/
def equal (heap : Heap) (left right : Value) : Bool :=
  heap.equalTo (heap.objects.size * heap.objects.size + 1) left right

/-- Equality of copies of values where one and the same copy is equal to itself. -/
def equalCopies (heap : Heap) (left right : Copy) : Bool :=
  left.same right || heap.equal left.value right.value

/-- Values that refer to nothing are compared by themselves. -/
theorem equal_of_object?_eq_none {heap : Heap} {left right : Value}
    (noLeft : heap.object? left = none) (noRight : heap.object? right = none) :
    heap.equal left right = left.equalAtoms right := by
  simp [equal, equalTo, noLeft, noRight]

end Heap

end ArrayForks
