import ArrayForks.Proofs.FrameCondition

/-! # The shape of the heap

An array keeps its length for as long as the program runs, a structure keeps its entries and their
order and may only get further ones, and no object turns into one of another kind or vanishes. So an
index that was checked against an array stays within it, whatever runs between the check and the
use.

* **`Object.SameShape`**, **`Heap.ShapesStay`** relate the objects before and after.
* **`Machine.steps_shapes`**: every single step keeps shapes, as `Execution.Steps` asks.
* **`run_assign_index`**: the assignment of an element, given what its parts evaluate to. -/

namespace ArrayForks

/-- What an object and the same object later have in common: the length of an array, and the first
names of a structure. -/
inductive Object.SameShape : Object → Object → Prop where
  | array {before after : List Copy} (length_eq : after.length = before.length) :
      SameShape (.array before) (.array after)
  | record {before after : Bindings Key Copy} (names_grow : before.names <+: after.names) :
      SameShape (.record before) (.record after)
  | constructor (of : Value) : SameShape (.constructor of) (.constructor of)

namespace Object

/-- An object has its own shape. -/
theorem SameShape.refl : (object : Object) → object.SameShape object
  | .array _ => .array rfl
  | .record _ => .record List.prefix_rfl
  | .constructor of => .constructor of

/-- Objects of the shape of one and the same object have the same shape. -/
theorem SameShape.trans {first middle last : Object} (start : first.SameShape middle)
    (rest : middle.SameShape last) : first.SameShape last := by
  cases start with
  | array same =>
      cases rest with
      | array again => exact .array (again.trans same)
  | record start =>
      cases rest with
      | record rest => exact .record (start.trans rest)
  | constructor of => exact rest

/-- An object of the shape of an array is an array of its length. -/
theorem SameShape.of_array {items : List Copy} {object : Object}
    (same : (Object.array items).SameShape object) :
    ∃ current, object = .array current ∧ current.length = items.length := by
  cases same with
  | array length_eq => exact ⟨_, rfl, length_eq⟩

end Object

namespace Heap

/-- Every object is still there and of the same shape. -/
def ShapesStay (before after : Heap) : Prop :=
  ∀ ref object, before.get? ref = some object →
    ∃ current, after.get? ref = some current ∧ object.SameShape current

/-- All shapes stay where nothing happens. -/
theorem ShapesStay.refl (heap : Heap) : heap.ShapesStay heap :=
  fun _ object found => ⟨object, found, .refl object⟩

/-- Shapes that stay twice have stayed. -/
theorem ShapesStay.trans {first middle last : Heap} (start : first.ShapesStay middle)
    (rest : middle.ShapesStay last) : first.ShapesStay last := by
  intro ref object found
  obtain ⟨between, foundBetween, same⟩ := start ref object found
  obtain ⟨current, foundLast, again⟩ := rest ref between foundBetween
  exact ⟨current, foundLast, same.trans again⟩

/-- A new object changes none. -/
theorem shapesStay_alloc (heap : Heap) (object : Object) :
    heap.ShapesStay (heap.alloc object).2 := by
  intro ref old found
  refine ⟨old, ?_, .refl old⟩
  rw [get?_alloc_of_lt heap object (lt_size_of_get? found), found]

/-- Replacing an object by one of its shape keeps all shapes. -/
theorem shapesStay_replace {heap : Heap} {ref : Ref} {old new : Object}
    (found : heap.get? ref = some old) (same : old.SameShape new) :
    heap.ShapesStay (heap.replace ref new) := by
  intro other object foundOther
  rw [get?_replace]
  split
  · next here =>
      have equal : old = object := by
        rw [here.1, foundOther] at found
        exact (Option.some.inj found).symm
      exact ⟨new, rfl, equal ▸ same⟩
  · exact ⟨object, foundOther, .refl object⟩

end Heap

/-! ### Runs -/

namespace Machine

/-- Every object of the machine is still there and of the same shape. -/
def ShapesStay (before after : Machine) : Prop :=
  before.heap.ShapesStay after.heap

/-- Every elementary change of an evaluation keeps the shapes. -/
theorem allows_shapesStay : Allows ShapesStay where
  refl machine := Heap.ShapesStay.refl machine.heap
  trans start rest := Heap.ShapesStay.trans start rest
  count machine _ := Heap.ShapesStay.refl machine.heap
  print machine _ := Heap.ShapesStay.refl machine.heap
  make machine object := Heap.shapesStay_alloc machine.heap object
  writeItem found _ := Heap.shapesStay_replace found (.array (List.length_set ..))
  writeEntry found key value :=
    Heap.shapesStay_replace found (.record (Bindings.names_grow_insert _ key value))
  writeName {machine _ _} _ _ := Heap.ShapesStay.refl machine.heap

/-- A new frame makes no difference to the heap. -/
theorem keeps_shapes_within {α : Type} {computation : Eval α}
    (opening : FrameTree Copy → FrameId → FrameId × FrameTree Copy)
    (keeps : Eval.Keeps ShapesStay α computation) :
    Eval.Keeps ShapesStay α (Eval.within opening computation) := by
  intro machine final ends
  obtain ⟨last, rfl, ran⟩ := Eval.machine?_within ends
  have shapes := keeps _ last ran
  exact shapes

/-- Evaluations and executions keep the shapes. -/
theorem steps_shapes : Execution.Steps (Eval.Keeps ShapesStay) (Eval.Keeps ShapesStay) where
  evaluation := allows_shapesStay.steps
  composes := allows_shapesStay.steps.toComposes
  unfinished := Eval.keeps_unfinished
  lift keeps := keeps
  declare _ _ machine final ends := by
    cases ends
    exact Heap.ShapesStay.refl machine.heap
  block := keeps_shapes_within FrameTree.child
  call := keeps_shapes_within FrameTree.callFrame

end Machine

/-! ### Stores -/

namespace Evaluation

/-- Writing within an array that is there succeeds. -/
theorem run_writeElement {machine : Machine} {ref : Ref} {items : List Copy} {place : Nat}
    (found : machine.heap.get? ref = some (.array items)) (within : place < items.length)
    (value : Copy) :
    (writeElement (.object ref) (.word place) value).run machine =
      .done () { machine with heap := machine.heap.replace ref (.array (items.set place value)) } := by
  have object : machine.heap.object? (.object ref) = some (.array items) := found
  simp only [writeElement, Eval.run_bind, Eval.run_look, object, if_pos within, Eval.run_replace]

/-- An assignment to an element runs the array, the index and the value in this order, and then
writes the element without a further check of its own. -/
theorem run_assign_index [NumericLibrary] {annotations : Annotations} {calls : Calls}
    {id stemId : NodeId} {stem position source : Node} {type : StaticType}
    {machine afterStem afterIndex afterSource : Machine} {array index value : Copy} {ref : Ref}
    {items current : List Copy} {place : Nat}
    (typed : annotations.typeOf (.assign id (.index stemId stem position) source) = .ok type)
    (ranStem : (evaluate annotations calls stem).run machine = .done array afterStem)
    (isArray : array.value = .object ref)
    (found : afterStem.heap.get? ref = some (.array items))
    (ranIndex : (evaluate annotations calls position).run afterStem = .done index afterIndex)
    (checked : Index.check index.value items.length = .ok (.word place))
    (ranSource : (evaluate annotations calls source).run afterIndex = .done value afterSource)
    (foundLater : afterSource.heap.get? ref = some (.array current))
    (within : place < current.length) :
    let kept := (widen type value).keep afterSource.made
    (evaluate annotations calls (.assign id (.index stemId stem position) source)).run machine =
      .done kept { afterSource with
        heap := afterSource.heap.replace ref (.array (current.set place kept))
        made := afterSource.made + 1 } := by
  intro kept
  have ranType : (typeOf annotations (.assign id (.index stemId stem position) source)).run machine =
      .done type machine := by
    rw [typeOf, typed, Eval.run_ofExcept_ok]
  have wrote : (writeElement (.object ref) (.word place) kept).run
      { afterSource with made := afterSource.made + 1 } =
      .done () { afterSource with
        heap := afterSource.heap.replace ref (.array (current.set place kept))
        made := afterSource.made + 1 } := by
    apply run_writeElement
    · exact foundLater
    · exact within
  unfold evaluate
  refine Eval.run_locate_of_done ?_ _
  rw [Eval.run_bind_of_done ranType, Eval.run_bind_of_done ranStem]
  simp only [isArray]
  rw [Eval.run_bind_of_done (run_extent found), Eval.run_bind_of_done ranIndex, checked,
    Eval.run_bind_of_done (Eval.run_ofExcept_ok _ _), Eval.run_bind_of_done ranSource,
    Eval.run_bind_of_done (Eval.run_keep _ _), Eval.run_bind_of_done wrote, Eval.run_pure]

/-- The check of an index and the number of elements fail for other reasons than a missing
element. -/
theorem check_ne_missingElement (index : Value) (length : Nat) :
    Index.check index length ≠ .error .missingElement := by
  unfold Index.check
  split
  · split
    · simp [RuntimeError.raise]
    · split <;> simp [RuntimeError.raise]
  · split
    · simp [RuntimeError.raise]
    · split <;> simp [RuntimeError.raise]
  · simp

/-- A node without a type is no missing element. -/
theorem typeOf_ne_missingElement (annotations : Annotations) (node : Node) :
    annotations.typeOf node ≠ .error .missingElement := by
  unfold Annotations.typeOf
  split
  · simp
  · simp [Violation.raise]

/-- The number of elements is that of an array, or of a value that is none, and counting changes
nothing. -/
theorem items?_of_run_extent {value : Value} {machine final : Machine} {length : Nat}
    (ran : (extent value).run machine = .done length final) :
    final = machine ∧ ∃ items, machine.heap.items? value = some items ∧ items.length = length := by
  unfold extent at ran
  split at ran
  · cases ran
  · rw [Eval.run_bind, Eval.run_look] at ran
    simp only at ran
    split at ran
    · next items found =>
        cases ran
        exact ⟨rfl, items, found, rfl⟩
    · cases ran

/-- Counting elements fails for other reasons than a missing element. -/
theorem extent_ne_missingElement (value : Value) (machine final : Machine) :
    (extent value).run machine ≠ .failed .missingElement final := by
  intro ran
  unfold extent at ran
  split at ran
  · cases ran
  · rw [Eval.run_bind, Eval.run_look] at ran
    simp only at ran
    split at ran
    · cases ran
    · cases ran

/-- Writing an element finds it missing only in an array that is too short. -/
theorem length_le_of_writeElement {target : Value} {index : Index} {value : Copy}
    {machine final : Machine}
    (ran : (writeElement target index value).run machine = .failed .missingElement final) :
    ∃ ref place items, target = .object ref ∧ index = .word place ∧
      machine.heap.get? ref = some (.array items) ∧ items.length ≤ place := by
  simp only [writeElement, Eval.run_bind, Eval.run_look] at ran
  split at ran
  · next ref place items found =>
      split at ran
      · cases ran
      · next beyond => exact ⟨ref, place, items, rfl, rfl, found, Nat.not_lt.mp beyond⟩
  · cases ran
  · cases ran

/-- An object that has been counted, and later is an array, was an array of this length. -/
theorem length_of_later_array {before after : Heap} {ref : Ref} {items current : List Copy}
    (stay : before.ShapesStay after) (counted : before.items? (.object ref) = some items)
    (foundLater : after.get? ref = some (.array current)) : current.length = items.length := by
  simp only [Heap.items?, Heap.object?] at counted
  split at counted
  · next found =>
      cases counted
      obtain ⟨later, foundAgain, same⟩ := stay ref _ found
      rw [foundLater] at foundAgain
      cases foundAgain
      cases same with
      | array length_eq => exact length_eq
  · next found =>
      obtain ⟨later, foundAgain, same⟩ := stay ref _ found
      rw [foundLater] at foundAgain
      cases foundAgain
      cases same
  · cases counted

variable [NumericLibrary]

/-- If an assignment to an element ends with a missing element, then so did the evaluation of one of
its parts: the write itself never finds the element missing. -/
theorem missingElement_of_assign_index {annotations : Annotations} {calls : Calls}
    (called : calls.Have (Eval.Keeps Machine.ShapesStay)) {id stemId : NodeId}
    {stem position source : Node} {machine final : Machine}
    (ran : (evaluate annotations calls (.assign id (.index stemId stem position) source)).run machine =
      .failed .missingElement final) :
    ∃ part ∈ [stem, position, source], ∃ start,
      (evaluate annotations calls part).run start = .failed .missingElement final := by
  have evaluated := Machine.steps_shapes.evaluation.evaluate annotations called
  unfold evaluate at ran
  obtain ⟨inner, located, ranInner⟩ := Eval.failed_of_locate ran
  obtain rfl := Failure.eq_of_locate_eq located.symm (by simp)
  -- The steps of the assignment one by one: each fails, or it gives what the next one starts from.
  rcases Eval.failed_of_bind ranInner with untyped | ⟨type, _, typed, ranType⟩
  · exact absurd (Eval.run_ofExcept_eq_failed.mp untyped).1 (typeOf_ne_missingElement _ _)
  obtain ⟨-, rfl⟩ := Eval.run_ofExcept_eq_done.mp typed
  rcases Eval.failed_of_bind ranType with ranStem | ⟨array, afterStem, ranStem, ranArray⟩
  · exact ⟨stem, by simp, _, ranStem⟩
  rcases Eval.failed_of_bind ranArray with noExtent | ⟨length, _, ranExtent, ranLength⟩
  · exact absurd noExtent (extent_ne_missingElement _ _ _)
  obtain ⟨rfl, items, counted, rfl⟩ := items?_of_run_extent ranExtent
  rcases Eval.failed_of_bind ranLength with ranIndex | ⟨index, afterIndex, ranIndex, ranChecked⟩
  · exact ⟨position, by simp, _, ranIndex⟩
  rcases Eval.failed_of_bind ranChecked with unchecked | ⟨place, _, ranCheck, ranPlace⟩
  · exact absurd (Eval.run_ofExcept_eq_failed.mp unchecked).1 (check_ne_missingElement _ _)
  obtain ⟨checked, rfl⟩ := Eval.run_ofExcept_eq_done.mp ranCheck
  rcases Eval.failed_of_bind ranPlace with ranSource | ⟨value, afterSource, ranSource, ranValue⟩
  · exact ⟨source, by simp, _, ranSource⟩
  rcases Eval.failed_of_bind ranValue with unkept | ⟨kept, _, ranKeep, ranKept⟩
  · cases unkept
  cases ranKeep
  rcases Eval.failed_of_bind ranKept with unwritten | ⟨_, _, _, ranPure⟩
  · -- The write would find an array that is shorter than the one that was counted.
    obtain ⟨ref, place, current, isArray, rfl, foundLater, beyond⟩ :=
      length_le_of_writeElement unwritten
    have indexShapes := evaluated position _ afterIndex (by rw [ranIndex]; rfl)
    have sourceShapes := evaluated source afterIndex afterSource (by rw [ranSource]; rfl)
    have same := length_of_later_array (indexShapes.trans sourceShapes) (isArray ▸ counted)
      foundLater
    have within := Index.lt_of_check checked
    omega
  · cases ranPure

end Evaluation

variable [NumericLibrary]

/-- **Shapes along a run, and checked indices.**

* `machine.ShapesStay final` for every `evaluate` and every `execute` that ends in `final`, with a
  value or with a failure: arrays keep their lengths, and structures their types.
* If `Index.check` accepts an index against the array at `ref` before the value of an assignment is
  evaluated, then `place < current.length` still holds when the value is there, and the assignment
  is `.done` with `current.set place kept` in the heap.
* If an assignment to an element is `.failed .missingElement final`, then so is one of its parts. -/
theorem shapes_after_run (annotations : Annotations) (callLimit limit : Nat) :
    let calls := Execution.callsTo annotations callLimit
    let evaluate := Evaluation.evaluate annotations calls
    let execute := Execution.execute annotations calls limit
    (∀ node machine final, ((evaluate node).run machine).machine? = some final →
      machine.ShapesStay final) ∧
    (∀ node machine final, ((execute node).run machine).machine? = some final →
      machine.ShapesStay final) ∧
    (∀ id stemId stem position source type machine afterStem afterIndex afterSource
        (array index value : Copy) ref items place,
      annotations.typeOf (.assign id (.index stemId stem position) source) = .ok type →
      (evaluate stem).run machine = .done array afterStem →
      array.value = .object ref →
      afterStem.heap.get? ref = some (.array items) →
      (evaluate position).run afterStem = .done index afterIndex →
      Index.check index.value items.length = .ok (.word place) →
      (evaluate source).run afterIndex = .done value afterSource →
      ∃ current kept,
        afterSource.heap.get? ref = some (.array current) ∧ place < current.length ∧
        kept = (Evaluation.widen type value).keep afterSource.made ∧
        (evaluate (.assign id (.index stemId stem position) source)).run machine =
          .done kept { afterSource with
            heap := afterSource.heap.replace ref (.array (current.set place kept))
            made := afterSource.made + 1 }) ∧
    (∀ id stemId stem position source machine final,
      (evaluate (.assign id (.index stemId stem position) source)).run machine =
        .failed .missingElement final →
      ∃ part ∈ [stem, position, source], ∃ start,
        (evaluate part).run start = .failed .missingElement final) := by
  intro calls evaluate execute
  have called := Machine.steps_shapes.callsTo annotations callLimit
  have evaluated := Machine.steps_shapes.evaluation.evaluate annotations called
  refine ⟨evaluated, Machine.steps_shapes.execute annotations called limit, ?_, ?_⟩
  · intro id stemId stem position source type machine afterStem afterIndex afterSource array index
      value ref items place typed ranStem isArray found ranIndex checked ranSource
    -- The array keeps its length while the index and then the value are evaluated.
    have indexShapes := evaluated position afterStem afterIndex (by rw [ranIndex]; rfl)
    have sourceShapes := evaluated source afterIndex afterSource (by rw [ranSource]; rfl)
    obtain ⟨later, foundLater, same⟩ := indexShapes.trans sourceShapes ref _ found
    obtain ⟨current, rfl, length_eq⟩ := same.of_array
    have within : place < current.length := length_eq ▸ Index.lt_of_check checked
    exact ⟨current, _, foundLater, within, rfl,
      Evaluation.run_assign_index typed ranStem isArray found ranIndex checked ranSource foundLater
        within⟩
  · intro id stemId stem position source machine final ran
    exact Evaluation.missingElement_of_assign_index called ran

end ArrayForks
