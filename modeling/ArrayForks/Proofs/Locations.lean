import ArrayForks.Proofs.FrameNames
import ArrayForks.Proofs.HeapShape

/-! # Locations

What can be written in a machine: a variable of a frame, an element of an array, an entry of a
structure. Arrays and structures are known by their places in the heap, so a location is one and the
same through whichever reference it is reached. Each elementary write changes what one location
holds, and nothing else.

* **`Machine.DiffersOnlyAt`** is the frame condition of a write, and **`Machine.Untouched`** that
  of a step that only counts copies.
* **`writeName_differs`**, **`writeItem_differs`**, **`writeEntry_differs`**: the elementary
  writes. -/

namespace ArrayForks

/-- A place in a machine that holds a copy. -/
inductive Location where
  /-- A variable of a frame. -/
  | binding (frame : FrameId) (name : String)
  /-- An element of an array. -/
  | element (ref : Ref) (place : Nat)
  /-- An entry of a structure. -/
  | entry (ref : Ref) (key : Key)
  deriving DecidableEq

/-- The element of an object at a place. -/
def Object.element? : Object → Nat → Option Copy
  | .array items, place => items[place]?
  | _, _ => none

/-- The entry of an object under a key. -/
def Object.entry? : Object → Key → Option Copy
  | .record entries, key => entries.find? key
  | _, _ => none

namespace Heap

/-- Where another object is put, it is seen, and all other objects are what they were. -/
theorem get?_replace_of_get? {heap : Heap} {ref : Ref} {old : Object}
    (found : heap.get? ref = some old) (new : Object) (other : Ref) :
    (heap.replace ref new).get? other = if other = ref then some new else heap.get? other := by
  rw [get?_replace]
  by_cases same : ref = other
  · rw [if_pos ⟨same, lt_size_of_get? found⟩, if_pos same.symm]
  · rw [if_neg fun both => same both.1, if_neg fun equal => same equal.symm]

end Heap

namespace Machine

/-- What a location holds, if it is there. -/
def content? (machine : Machine) : Location → Option Copy
  | .binding frame name => (machine.frames.own frame).find? name
  | .element ref place => (machine.heap.get? ref).bind fun object => object.element? place
  | .entry ref key => (machine.heap.get? ref).bind fun object => object.entry? key

/-- Nothing has changed but the number of copies that have been kept. -/
def Untouched (before after : Machine) : Prop :=
  after = { before with made := after.made }

/-- Nothing has changed but what one location holds, and the number of copies that have been kept.
There are the same frames with the same names and the same objects of the same shapes; only the
location itself may be new to its structure. -/
structure DiffersOnlyAt (location : Location) (before after : Machine) : Prop extends
    NamesStay before after where
  frames_size : after.frames.nodes.size = before.frames.nodes.size
  shapes : before.ShapesStay after
  heap_size : after.heap.objects.size = before.heap.objects.size
  output_eq : after.output = before.output
  content_eq : ∀ other, other ≠ location → after.content? other = before.content? other

/-- A machine is untouched where nothing happens. -/
theorem Untouched.refl (machine : Machine) : machine.Untouched machine :=
  rfl

/-- Counting a copy touches nothing. -/
theorem untouched_count (machine : Machine) (made : Nat) :
    machine.Untouched { machine with made } :=
  rfl

/-- What was not touched before a write was as it is just before the write. -/
theorem DiffersOnlyAt.of_untouched {location : Location} {start middle final : Machine}
    (untouched : start.Untouched middle) (differs : DiffersOnlyAt location middle final) :
    DiffersOnlyAt location start final := by
  rw [untouched] at differs
  obtain ⟨⟨here_eq, frames⟩, frames_size, shapes, heap_size, output_eq, content_eq⟩ := differs
  exact ⟨⟨here_eq, frames⟩, frames_size, shapes, heap_size, output_eq, fun other differ =>
    (content_eq other differ).trans (by cases other <;> rfl)⟩

/-! ### Writes -/

/-- Writing a variable changes what the nearest frame that binds its name holds for it. -/
theorem writeName_differs {machine : Machine} {name : String} {frame : FrameId}
    (found : machine.frames.owner? machine.here name = some frame) (value : Copy) :
    let final := { machine with frames := machine.frames.insert frame name value }
    DiffersOnlyAt (.binding frame name) machine final ∧
      final.content? (.binding frame name) = some value := by
  intro final
  obtain ⟨inChain, bound⟩ := FrameTree.owner?_eq_some found
  have inTree := FrameTree.lt_size_of_mem_chain inChain
  have held (other : FrameId) : final.frames.own other =
      if other = frame then (machine.frames.own frame).insert name value
      else machine.frames.own other := by
    change (machine.frames.insert frame name value).own other = _
    rw [FrameTree.insert, FrameTree.own_setOwn]
    simp only [inTree, and_true]
  refine ⟨⟨allows_namesStay.writeName found value, FrameTree.size_setOwn .., ?_, rfl, rfl, ?_⟩, ?_⟩
  · exact allows_shapesStay.writeName found value
  · intro other differ
    cases other with
    | binding otherFrame otherName =>
        rw [content?, content?, held]
        split
        · next same =>
            have otherName : otherName ≠ name := fun equal => differ (same ▸ equal ▸ rfl)
            rw [Bindings.find?_insert, if_neg otherName, same]
        · rfl
    | element ref place => rfl
    | entry ref key => rfl
  · rw [content?, held, if_pos rfl, Bindings.find?_insert, if_pos rfl]

/-- Writing an element of an array changes this element. -/
theorem writeItem_differs {machine : Machine} {ref : Ref} {items : List Copy} {place : Nat}
    (found : machine.heap.get? ref = some (.array items)) (within : place < items.length)
    (value : Copy) :
    let final :=
      { machine with heap := machine.heap.replace ref (.array (items.set place value)) }
    DiffersOnlyAt (.element ref place) machine final ∧
      final.content? (.element ref place) = some value := by
  intro final
  have held := Heap.get?_replace_of_get? found (.array (items.set place value))
  refine ⟨⟨allows_namesStay.writeItem found value, rfl, allows_shapesStay.writeItem found value,
    Heap.size_replace .., rfl, ?_⟩, ?_⟩
  · intro other differ
    cases other with
    | binding frame name => rfl
    | element otherRef otherPlace =>
        rw [content?, content?, held]
        split
        · next same =>
            -- Another element of the same array.
            have otherPlace : place ≠ otherPlace := fun equal => differ (same ▸ equal ▸ rfl)
            rw [same, found, Option.bind_some, Option.bind_some, Object.element?, Object.element?,
              List.getElem?_set_ne otherPlace]
        · rfl
    | entry otherRef key =>
        rw [content?, content?, held]
        split
        · next same =>
            rw [same, found]
            rfl
        · rfl
  · rw [content?, held, if_pos rfl, Option.bind_some, Object.element?,
      List.getElem?_set_self within]

/-- Writing an entry of a structure changes this entry, which may be new. -/
theorem writeEntry_differs {machine : Machine} {ref : Ref} {entries : Bindings Key Copy}
    (found : machine.heap.get? ref = some (.record entries)) (key : Key) (value : Copy) :
    let final :=
      { machine with heap := machine.heap.replace ref (.record (entries.insert key value)) }
    DiffersOnlyAt (.entry ref key) machine final ∧
      final.content? (.entry ref key) = some value := by
  intro final
  have held := Heap.get?_replace_of_get? found (.record (entries.insert key value))
  refine ⟨⟨allows_namesStay.writeEntry found key value, rfl,
    allows_shapesStay.writeEntry found key value, Heap.size_replace .., rfl, ?_⟩, ?_⟩
  · intro other differ
    cases other with
    | binding frame name => rfl
    | element otherRef place =>
        rw [content?, content?, held]
        split
        · next same =>
            rw [same, found]
            rfl
        · rfl
    | entry otherRef otherKey =>
        rw [content?, content?, held]
        split
        · next same =>
            -- Another entry of the same structure.
            have otherKey : otherKey ≠ key := fun equal => differ (same ▸ equal ▸ rfl)
            rw [same, found, Option.bind_some, Option.bind_some, Object.entry?, Object.entry?,
              Bindings.find?_insert, if_neg otherKey]
        · rfl
  · rw [content?, held, if_pos rfl, Option.bind_some, Object.entry?, Bindings.find?_insert,
      if_pos rfl]

end Machine

end ArrayForks
