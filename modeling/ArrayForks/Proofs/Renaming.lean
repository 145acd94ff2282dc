import Mathlib.Order.Monotone.Basic
import Mathlib.Data.Finset.Card
import Mathlib.Data.Finset.Prod
import ArrayForks.Operand

/-! # Renamed objects

The places of objects and the numbers of copies are names without a meaning of their own. Two heaps
that differ in these names alone hold the same objects, so that looking up, unfolding and comparing
values in them gives the same up to the names. The text of a value and the type that it shows do not
depend on the names at all.

* **`Renaming`** is an injective map of places and one of numbers, and **`Heap.Renamed`** relates
  two heaps look-up by look-up.
* **`Heap.Renamed.unfold_eq`**, **`Heap.Renamed.equal_eq`**: unfolding and comparing commute with
  renaming, and **`Datum.text_rename`**, **`Datum.type_rename`** say that texts and types do not
  change. -/

namespace ArrayForks

/-- Other names for objects and for copies, different ones for different ones. -/
structure Renaming where
  /-- The place of an object. -/
  ref : Ref → Ref
  /-- The number of a copy. -/
  number : Nat → Nat
  ref_injective : Function.Injective ref
  number_injective : Function.Injective number

section

variable (mapping : Renaming)

/-- A value with the place of its object renamed. -/
def Value.rename : Value → Value
  | .object ref => .object (mapping.ref ref)
  | value => value

/-- An origin with the number of its copy renamed. -/
def Origin.rename : Origin → Origin
  | .made number => .made (mapping.number number)
  | origin => origin

/-- A copy with its value and its number renamed. -/
def Copy.rename (copy : Copy) : Copy :=
  ⟨copy.value.rename mapping, copy.origin.rename mapping⟩

/-- Bindings with the copies in them renamed. -/
def Bindings.rename {ν : Type} (bindings : Bindings ν Copy) : Bindings ν Copy where
  entries := bindings.entries.map fun entry => (entry.1, entry.2.rename mapping)
  nodup := by
    rw [List.map_map]
    exact bindings.nodup

/-- An object with everything in it renamed. -/
def Object.rename : Object → Object
  | .array items => .array (items.map (Copy.rename mapping))
  | .record entries => .record (entries.rename mapping)
  | .constructor of => .constructor (of.rename mapping)

mutual

/-- A datum with the places in it renamed. -/
def Datum.rename : Datum → Datum
  | .atom value => .atom (value.rename mapping)
  | .array items => .array (renameAll items)
  | .record entries => .record (renameEntries entries)
  | .constructor of ref => .constructor of.rename (mapping.ref ref)

/-- Data with the places in them renamed. -/
def Datum.renameAll : List Datum → List Datum
  | [] => []
  | item :: items => item.rename :: renameAll items

/-- Entries with the places in them renamed. -/
def Datum.renameEntries : List (Key × Datum) → List (Key × Datum)
  | [] => []
  | (key, value) :: entries => (key, value.rename) :: renameEntries entries

end

end

variable {mapping : Renaming}

/-! ### Values and copies -/

namespace Value

/-- A text holds no name: `(string text).rename mapping = .string text`. -/
@[simp] theorem rename_string (text : String) : (string text).rename mapping = .string text :=
  rfl

/-- A key holds no name, be it a text or a word. -/
@[simp] theorem rename_key (key : Key) : key.value.rename mapping = key.value := by
  cases key <;> rfl

/-- `(value.rename mapping).isUnique = value.isUnique`: uniqueness is a matter of the constructor.
-/
@[simp] theorem isUnique_rename (value : Value) :
    (value.rename mapping).isUnique = value.isUnique := by
  cases value <;> rfl

/-- Renaming changes no number, so it does not change which values are zero. -/
@[simp] theorem isZero_rename (value : Value) : (value.rename mapping).isZero = value.isZero := by
  cases value <;> rfl

/-- A truth value as a number holds no name. -/
@[simp] theorem rename_truth (floating b : Bool) :
    (truth floating b).rename mapping = truth floating b := by
  cases floating <;> rfl

/-- The text of a value does not show where its object is. -/
@[simp] theorem text_rename (value : Value) : (value.rename mapping).text = value.text := by
  cases value <;> rfl

/-- Different values stay different, since `mapping.ref` is injective. -/
theorem rename_inj {left right : Value} :
    left.rename mapping = right.rename mapping ↔ left = right := by
  cases left <;> cases right <;> simp [rename, mapping.ref_injective.eq_iff]

/-- Only `null` is renamed to `null`. -/
@[simp] theorem rename_eq_null {value : Value} : value.rename mapping = .null ↔ value = .null := by
  cases value <;> simp [rename]

/-- `Value.equalAtoms` compares places only with each other, so renaming both sides does not change
it. -/
theorem equalAtoms_rename (left right : Value) :
    (left.rename mapping).equalAtoms (right.rename mapping) = left.equalAtoms right := by
  cases left <;> cases right <;> simp [rename, equalAtoms, mapping.ref_injective.eq_iff]

end Value

namespace Copy

/-- `(copy.rename mapping).value = copy.value.rename mapping`. -/
@[simp] theorem value_rename (copy : Copy) :
    (copy.rename mapping).value = copy.value.rename mapping :=
  rfl

/-- A new copy of a value is renamed with the value. -/
@[simp] theorem rename_new (value : Value) :
    (new value).rename mapping = new (value.rename mapping) := by
  simp only [rename, new, Value.isUnique_rename]
  split <;> rfl

/-- A copy that is written in the program is renamed with its value; it has a node and no number. -/
@[simp] theorem rename_written (node : NodeId) (value : Value) :
    (written node value).rename mapping = written node (value.rename mapping) := by
  simp only [rename, written, Value.isUnique_rename]
  split <;> rfl

/-- A copy that is kept under a number is renamed with the number. -/
theorem rename_keep (copy : Copy) (number : Nat) :
    (copy.keep number).rename mapping = (copy.rename mapping).keep (mapping.number number) := by
  obtain ⟨value, origin⟩ := copy
  cases origin <;> rfl

/-- Different copies stay different, since both parts of `mapping` are injective. -/
theorem rename_inj {left right : Copy} :
    left.rename mapping = right.rename mapping ↔ left = right := by
  obtain ⟨leftValue, leftOrigin⟩ := left
  obtain ⟨rightValue, rightOrigin⟩ := right
  have origins : leftOrigin.rename mapping = rightOrigin.rename mapping ↔
      leftOrigin = rightOrigin := by
    cases leftOrigin <;> cases rightOrigin <;>
      simp [Origin.rename, mapping.number_injective.eq_iff]
  simp only [rename, Copy.mk.injEq, Value.rename_inj, origins]

/-- Renaming does not change which copies are one. -/
@[simp] theorem same_rename (left right : Copy) :
    (left.rename mapping).same (right.rename mapping) = left.same right := by
  have fresh : (left.rename mapping).origin = .fresh ↔ left.origin = .fresh := by
    obtain ⟨value, origin⟩ := left
    cases origin <;> simp [rename, Origin.rename]
  simp only [same, rename_inj, ne_eq, fresh]

end Copy

namespace Bindings

variable {ν : Type}

/-- Only the copies are renamed, not the names that they are bound to. -/
@[simp] theorem names_rename (bindings : Bindings ν Copy) :
    (bindings.rename mapping).names = bindings.names := by
  simp only [names, rename, List.map_map]
  rfl

/-- `(bindings.rename mapping).size = bindings.size`. -/
@[simp] theorem size_rename (bindings : Bindings ν Copy) :
    (bindings.rename mapping).size = bindings.size := by
  simp only [size, rename, List.length_map]

/-- A renamed entry is found under the same name. -/
theorem find?_rename [DecidableEq ν] (bindings : Bindings ν Copy) (name : ν) :
    (bindings.rename mapping).find? name = (bindings.find? name).map (Copy.rename mapping) := by
  simp only [find?, rename]
  induction bindings.entries with
  | nil => rfl
  | cons entry entries inductionHypothesis =>
      obtain ⟨key, copy⟩ := entry
      rw [List.map_cons, List.lookup_cons, List.lookup_cons, inductionHypothesis]
      cases name == key <;> rfl

end Bindings

/-! ### Heaps -/

/-- Two heaps with the same objects under other names. The second one may hold further objects. -/
structure Heap.Renamed (mapping : Renaming) (left right : Heap) : Prop where
  get?_eq (ref : Ref) :
    right.get? (mapping.ref ref) = (left.get? ref).map (Object.rename mapping)
  size_le : left.objects.size ≤ right.objects.size

namespace Heap.Renamed

variable {left right : Heap} (heaps : Renamed mapping left right)

include heaps

/-- The object of a renamed value, `right.object? (value.rename mapping)`. -/
theorem object?_eq (value : Value) :
    right.object? (value.rename mapping) = (left.object? value).map (Object.rename mapping) := by
  cases value with
  | object ref => exact heaps.get?_eq ref
  | _ => rfl

/-- The elements of a renamed value. -/
theorem items?_eq (value : Value) :
    right.items? (value.rename mapping) =
      (left.items? value).map (List.map (Copy.rename mapping)) := by
  have objects := heaps.object?_eq value
  cases value with
  | object ref =>
      simp only [Value.rename, items?] at objects ⊢
      rw [objects]
      cases left.object? (.object ref) with
      | none => rfl
      | some object => cases object <;> simp [Object.rename]
  | string text => simp [items?]
  | _ => rfl

/-- The element of a renamed value. -/
theorem element_eq (value : Value) (index : Index) :
    right.element (value.rename mapping) index =
      (left.element value index).map (Copy.rename mapping) := by
  unfold element
  rw [heaps.object?_eq value, heaps.items?_eq value]
  -- A structure is asked for its entry; anything else is asked for an element at a place.
  rcases left.object? value with _ | ⟨items⟩ | ⟨entries⟩ | of
  case some.record =>
    simp only [Option.map_some, Object.rename, Bindings.find?_rename, Bindings.names_rename]
    cases entries.find? (Key.among entries.names index) <;> rfl
  all_goals
    rcases index with place | x
    · rcases left.items? value with _ | items
      · rfl
      · simp only [Option.map_some, List.getElem?_map]
        cases items[place]? <;> rfl
    · rfl

end Heap.Renamed

/-! ### Unfolding -/

namespace Heap

/-- A value unfolds to the same datum along longer chains if the chains are long enough for every
object that is not around it. -/
theorem unfoldTo_succ (heap : Heap) {depth : Nat} {around : List Ref} (nodup : around.Nodup)
    (inHeap : ∀ ref ∈ around, ref < heap.objects.size)
    (enough : heap.objects.size < depth + around.length) (value : Value) :
    heap.unfoldTo (depth + 1) around value = heap.unfoldTo depth around value := by
  -- The induction is on the depth; the objects around the value make up for what is gone of it.
  induction depth generalizing around value with
  | zero =>
      have inRange : around ⊆ List.range heap.objects.size := fun ref isIn =>
        List.mem_range.mpr (inHeap ref isIn)
      have few := (nodup.subperm inRange).length_le
      rw [List.length_range] at few
      omega
  | succ depth inductionHypothesis =>
      cases value with
      | object ref =>
          unfold unfoldTo
          by_cases within : ref ∈ around
          · rw [if_pos within, if_pos within]
          · rw [if_neg within, if_neg within]
            cases found : heap.get? ref with
            | none => rfl
            | some object =>
                have inner := @inductionHypothesis (ref :: around)
                  (List.nodup_cons.mpr ⟨within, nodup⟩)
                  (List.forall_mem_cons.mpr ⟨lt_size_of_get? found, inHeap⟩)
                  (by rw [List.length_cons]; omega)
                cases object <;> simp only [inner]
      | _ => rfl

/-- A depth beyond the number of objects is enough to unfold a value. -/
theorem unfoldTo_eq_unfold (heap : Heap) {depth : Nat} (enough : heap.objects.size < depth)
    (value : Value) : heap.unfoldTo depth [] value = heap.unfold value := by
  obtain ⟨more, rfl⟩ := Nat.exists_eq_add_of_le (Nat.succ_le_of_lt enough)
  induction more with
  | zero => rfl
  | succ more inductionHypothesis =>
      have deeper := @unfoldTo_succ heap (heap.objects.size + 1 + more) [] List.nodup_nil
        (fun _ isIn => absurd isIn List.not_mem_nil) (by rw [List.length_nil]; omega) value
      exact deeper.trans (inductionHypothesis (by omega))

end Heap

namespace Datum

/-- `renameAll mapping items = items.map (rename mapping)`. -/
theorem renameAll_eq_map (items : List Datum) :
    renameAll mapping items = items.map (rename mapping) := by
  induction items with
  | nil => rfl
  | cons item items inductionHypothesis =>
      rw [renameAll, inductionHypothesis, List.map_cons]

/-- `renameEntries` renames the data of the entries and keeps their keys. -/
theorem renameEntries_eq_map (entries : List (Key × Datum)) :
    renameEntries mapping entries = entries.map fun entry => (entry.1, entry.2.rename mapping) := by
  induction entries with
  | nil => rfl
  | cons entry entries inductionHypothesis =>
      rw [renameEntries, inductionHypothesis, List.map_cons]

end Datum

namespace Heap.Renamed

variable {left right : Heap} (heaps : Renamed mapping left right)

include heaps

/-- A renamed value unfolds to the renamed datum along chains of any length, by induction on the
length. The objects around the value are renamed with it. -/
theorem unfoldTo_eq (depth : Nat) (around : List Ref) (value : Value) :
    right.unfoldTo depth (around.map mapping.ref) (value.rename mapping) =
      (left.unfoldTo depth around value).rename mapping := by
  induction depth generalizing around value with
  | zero => cases value <;> rfl
  | succ depth inductionHypothesis =>
      cases value with
      | object ref =>
          simp only [Value.rename, unfoldTo, List.mem_map_of_injective mapping.ref_injective,
            heaps.get?_eq]
          -- An object within itself is unfolded no further, in either heap.
          by_cases within : ref ∈ around
          · rw [if_pos within, if_pos within]
            rfl
          · rw [if_neg within, if_neg within]
            have inner (value : Value) := inductionHypothesis (ref :: around) value
            cases left.get? ref with
            | none => rfl
            | some object =>
                cases object with
                | array items =>
                    simp only [Option.map_some, Object.rename, List.map_map, Datum.rename,
                      Datum.renameAll_eq_map]
                    congr 2
                    funext item
                    exact inner item.value
                | record entries =>
                    simp only [Option.map_some, Object.rename, Bindings.rename, List.map_map,
                      Datum.rename, Datum.renameEntries_eq_map]
                    congr 2
                    funext entry
                    exact congrArg (Prod.mk entry.1) (inner entry.2.value)
                | constructor of =>
                    simp only [Option.map_some, Object.rename, Datum.rename]
                    exact congrArg (Datum.constructor · _) (inner of)
      | _ => rfl

/-- A renamed value unfolds to the renamed datum. -/
theorem unfold_eq (value : Value) :
    right.unfold (value.rename mapping) = (left.unfold value).rename mapping := by
  have deeper := left.unfoldTo_eq_unfold (Nat.lt_succ_of_le heaps.size_le) value
  rw [← deeper]
  exact heaps.unfoldTo_eq _ [] value

end Heap.Renamed

/-! ### Comparing -/

namespace Heap

variable (heap : Heap)

/-- Whether two copies are equal in an array or a structure, where chains of at most `depth`
references are followed. -/
def heldTo (depth : Nat) (left right : Copy) : Bool :=
  left.same right || heap.equalTo depth left.value right.value

/-- Whether two objects are equal, given the equality of what they hold. -/
def equalObjects (held : Copy → Copy → Bool) (left right : Value) :
    (leftObject rightObject : Option Object) → Bool
  | none, none => left.equalAtoms right
  | some (.array lefts), some (.array rights) =>
      lefts.length == rights.length && (lefts.zip rights).all fun pair => held pair.1 pair.2
  | some (.record lefts), some (.record rights) =>
      lefts.size == rights.size && lefts.entries.all fun entry =>
        match rights.find? entry.1 with
        | some right => held entry.2 right
        | none => false
  | some (.constructor _), some (.constructor _) => left = right
  | _, _ => false

/-- One step of `equalTo`: objects are compared by `equalObjects`, and what they hold by `heldTo
depth`. -/
theorem equalTo_succ (depth : Nat) (left right : Value) :
    heap.equalTo (depth + 1) left right =
      equalObjects (heap.heldTo depth) left right (heap.object? left) (heap.object? right) := by
  rw [equalTo]
  unfold equalObjects heldTo
  rfl

/-- Objects are equal if they are when less of what they hold is. -/
theorem equalObjects_mono {held other : Copy → Copy → Bool}
    (implies : ∀ left right, held left right = true → other left right = true)
    {left right : Value} {leftObject rightObject : Option Object}
    (equal : equalObjects held left right leftObject rightObject = true) :
    equalObjects other left right leftObject rightObject = true := by
  unfold equalObjects at equal ⊢
  split at equal
  · exact equal
  · rw [Bool.and_eq_true_iff] at equal ⊢
    refine ⟨equal.1, ?_⟩
    rw [List.all_eq_true] at equal ⊢
    exact fun pair isIn => implies _ _ (equal.2 pair isIn)
  · rw [Bool.and_eq_true_iff] at equal ⊢
    refine ⟨equal.1, ?_⟩
    rw [List.all_eq_true] at equal ⊢
    intro entry isIn
    have found := equal.2 entry isIn
    split at found
    · exact implies _ _ found
    · exact found
  · exact equal
  · cases equal

/-- Values that are equal along short chains are so along longer ones. -/
theorem equalTo_mono (depth : Nat) (left right : Value)
    (equal : heap.equalTo depth left right = true) :
    heap.equalTo (depth + 1) left right = true := by
  induction depth generalizing left right with
  | zero => cases equal
  | succ depth inductionHypothesis =>
      rw [equalTo_succ] at equal ⊢
      refine equalObjects_mono (fun leftCopy rightCopy held => ?_) equal
      rw [heldTo, Bool.or_eq_true_iff] at held ⊢
      exact held.imp_right (inductionHypothesis _ _)

/-- If one more reference does not matter, then neither does the next one. -/
theorem equalTo_step {depth : Nat}
    (same : ∀ left right, heap.equalTo (depth + 1) left right = heap.equalTo depth left right)
    (left right : Value) :
    heap.equalTo (depth + 2) left right = heap.equalTo (depth + 1) left right := by
  have held : heap.heldTo (depth + 1) = heap.heldTo depth := by
    funext leftCopy rightCopy
    rw [heldTo, heldTo, same]
  rw [equalTo_succ, equalTo_succ, held]

/-- The pairs of objects that are equal along chains of at most one reference more than `depth`. -/
def equalPairs (depth : Nat) : Finset (Nat × Nat) :=
  (Finset.range heap.objects.size ×ˢ Finset.range heap.objects.size).filter fun pair =>
    heap.equalTo (depth + 1) (.object pair.1) (.object pair.2)

/-- `(left, right) ∈ heap.equalPairs depth` if both are places of objects, and the objects are
equal. -/
theorem mem_equalPairs {depth left right : Nat} :
    (left, right) ∈ heap.equalPairs depth ↔
      (left < heap.objects.size ∧ right < heap.objects.size) ∧
        heap.equalTo (depth + 1) (.object left) (.object right) = true := by
  simp only [equalPairs, Finset.mem_filter, Finset.mem_product, Finset.mem_range]

/-- `heap.equalPairs depth ⊆ heap.equalPairs (depth + 1)`, by `equalTo_mono`. -/
theorem equalPairs_subset_succ (depth : Nat) :
    heap.equalPairs depth ⊆ heap.equalPairs (depth + 1) := by
  rintro ⟨left, right⟩ isIn
  rw [mem_equalPairs] at isIn ⊢
  exact isIn.imp_right (heap.equalTo_mono _ _ _)

/-- If no further objects are equal along longer chains, then no further values are. -/
theorem equalTo_of_equalPairs {depth : Nat}
    (same : heap.equalPairs depth = heap.equalPairs (depth + 1)) (left right : Value) :
    heap.equalTo (depth + 2) left right = heap.equalTo (depth + 1) left right := by
  cases foundLeft : heap.object? left with
  | none => rw [equalTo_succ, equalTo_succ, foundLeft]; cases heap.object? right <;> rfl
  | some leftObject =>
      cases foundRight : heap.object? right with
      | none => rw [equalTo_succ, equalTo_succ, foundLeft, foundRight]; cases leftObject <;> rfl
      | some rightObject =>
          obtain ⟨leftRef, rfl, leftFound⟩ := object?_eq_some foundLeft
          obtain ⟨rightRef, rfl, rightFound⟩ := object?_eq_some foundRight
          have inHeap := And.intro (lt_size_of_get? leftFound) (lt_size_of_get? rightFound)
          have both : (leftRef, rightRef) ∈ heap.equalPairs (depth + 1) ↔
              (leftRef, rightRef) ∈ heap.equalPairs depth := by rw [same]
          rw [mem_equalPairs, mem_equalPairs, and_iff_right inHeap, and_iff_right inHeap] at both
          exact Bool.eq_iff_iff.mpr both

/-- A depth beyond the number of pairs of objects is enough to compare values. -/
theorem equalTo_eq_equal {depth : Nat} (enough : heap.objects.size * heap.objects.size < depth)
    (left right : Value) : heap.equalTo depth left right = heap.equal left right := by
  let count (depth : Nat) : Nat := (heap.equalPairs depth).card
  have settled {depth : Nat} (same : count depth = count (depth + 1)) :
      heap.equalPairs depth = heap.equalPairs (depth + 1) :=
    Finset.eq_of_subset_of_card_le (heap.equalPairs_subset_succ depth) (Nat.le_of_eq same.symm)
  have grows : Monotone count := monotone_nat_of_le_succ fun depth =>
    Finset.card_le_card (heap.equalPairs_subset_succ depth)
  have bounded (depth : Nat) : count depth ≤ heap.objects.size * heap.objects.size := by
    have few := Finset.card_filter_le
      (Finset.range heap.objects.size ×ˢ Finset.range heap.objects.size)
      fun pair => heap.equalTo (depth + 1) (.object pair.1) (.object pair.2)
    rwa [Finset.card_product, Finset.card_range] at few
  -- Once no pair is added, none is added ever after.
  have stays (depth : Nat) (same : count depth = count (depth + 1)) :
      count (depth + 1) = count (depth + 2) := by
    have next := heap.equalTo_step (heap.equalTo_of_equalPairs (settled same))
    exact congrArg Finset.card (Finset.filter_congr fun pair _ => by rw [next])
  have constant {depth : Nat} (le : heap.objects.size * heap.objects.size ≤ depth) :
      count depth = count (heap.objects.size * heap.objects.size) :=
    Nat.stabilises_of_monotone grows bounded stays le
  obtain ⟨more, rfl⟩ := Nat.exists_eq_add_of_le (Nat.succ_le_of_lt enough)
  induction more with
  | zero => rfl
  | succ more inductionHypothesis =>
      have le := Nat.le_add_right (heap.objects.size * heap.objects.size) more
      have same := (constant le).trans (constant (Nat.le_succ_of_le le)).symm
      have deeper := heap.equalTo_of_equalPairs (settled same) left right
      rw [← inductionHypothesis (by omega)]
      convert deeper using 2 <;> omega

end Heap

/-- Renaming does not change which objects are equal, given the equality of what they hold. -/
theorem Heap.equalObjects_rename {held other : Copy → Copy → Bool}
    (same : ∀ first second, other (first.rename mapping) (second.rename mapping) = held first second)
    (left right : Value) (leftObject rightObject : Option Object) :
    equalObjects other (left.rename mapping) (right.rename mapping)
        (leftObject.map (Object.rename mapping)) (rightObject.map (Object.rename mapping)) =
      equalObjects held left right leftObject rightObject := by
  cases leftObject with
  | none =>
      cases rightObject with
      | none => exact Value.equalAtoms_rename left right
      | some object => rfl
  | some leftObject =>
      cases rightObject with
      | none => cases leftObject <;> rfl
      | some rightObject =>
          cases leftObject with
          | array lefts =>
              cases rightObject with
              | array rights =>
                  simp only [Option.map_some, Object.rename, equalObjects, List.length_map,
                    List.zip_map, List.all_map, Function.comp_def, Prod.map_fst, Prod.map_snd, same]
              | record _ => rfl
              | constructor _ => rfl
          | record lefts =>
              cases rightObject with
              | record rights =>
                  have entries : (lefts.rename mapping).entries =
                      lefts.entries.map fun entry => (entry.1, entry.2.rename mapping) := rfl
                  -- Keys hold no references, so the entries are found under the same keys.
                  simp only [Option.map_some, Object.rename, equalObjects, Bindings.size_rename,
                    entries, List.all_map, Function.comp_def, Bindings.find?_rename]
                  congr 2
                  funext entry
                  cases rights.find? entry.1 with
                  | none => rfl
                  | some right => exact same entry.2 right
              | array _ => rfl
              | constructor _ => rfl
          | constructor _ =>
              cases rightObject with
              | constructor _ =>
                  simp only [Option.map_some, Object.rename, equalObjects, Value.rename_inj]
              | array _ => rfl
              | record _ => rfl

namespace Heap.Renamed

variable {left right : Heap} (heaps : Renamed mapping left right)

include heaps

/-- Renaming does not change which values are equal along chains of some length. -/
theorem equalTo_eq (depth : Nat) (first second : Value) :
    right.equalTo depth (first.rename mapping) (second.rename mapping) =
      left.equalTo depth first second := by
  induction depth generalizing first second with
  | zero => rfl
  | succ depth inductionHypothesis =>
      have held (first second : Copy) :
          right.heldTo depth (first.rename mapping) (second.rename mapping) =
            left.heldTo depth first second := by
        rw [heldTo, heldTo, Copy.same_rename, Copy.value_rename, Copy.value_rename,
          inductionHypothesis]
      rw [equalTo_succ, equalTo_succ, heaps.object?_eq, heaps.object?_eq, equalObjects_rename held]

/-- Renaming does not change which values are equal. -/
theorem equal_eq (first second : Value) :
    right.equal (first.rename mapping) (second.rename mapping) = left.equal first second := by
  have pairs := Nat.mul_le_mul heaps.size_le heaps.size_le
  rw [← left.equalTo_eq_equal (Nat.lt_succ_of_le pairs)]
  exact heaps.equalTo_eq _ first second

end Heap.Renamed

/-! ### Data -/

namespace Datum

mutual

/-- The text of a datum shows no place, by induction on the datum. -/
@[simp] theorem text_rename : (datum : Datum) → (datum.rename mapping).text = datum.text
  | .atom value => by simp only [rename, text, Value.text_rename]
  | .array items => by simp only [rename, text, textAll_rename items]
  | .record entries => by simp only [rename, text, textEntries_rename entries]
  | .constructor of _ => by simp only [rename, text, text_rename of]

/-- The texts of data show no place, by the same induction. -/
theorem textAll_rename : (items : List Datum) → textAll (renameAll mapping items) = textAll items
  | [] => rfl
  | item :: items => by simp only [renameAll, textAll, text_rename item, textAll_rename items]

/-- The texts of entries show no place, by the same induction. -/
theorem textEntries_rename :
    (entries : List (Key × Datum)) → textEntries (renameEntries mapping entries) = textEntries entries
  | [] => rfl
  | (_, value) :: entries => by
      simp only [renameEntries, textEntries, text_rename value, textEntries_rename entries]

end

/-- The type that the first of several data shows does not depend on places. -/
theorem componentType_rename :
    (items : List Datum) → componentType (renameAll mapping items) = componentType items
  | [] => rfl
  | .atom value :: _ => by
      cases value <;> simp only [renameAll, rename, Value.rename, componentType, kind]
  | .array items :: _ => by
      simp only [renameAll, rename, componentType, componentType_rename items]
  | .record _ :: _ => by simp only [renameAll, rename, componentType, kind]
  | .constructor _ _ :: _ => by simp only [renameAll, rename, componentType, kind]

/-- The type that a datum shows does not depend on places. -/
@[simp] theorem type_rename (datum : Datum) : (datum.rename mapping).type = datum.type := by
  cases datum with
  | atom value => cases value <;> rfl
  | array items => simp only [rename, type, componentType_rename items]
  | _ => rfl

mutual

/-- Renaming neither makes nor removes a `null` in a datum. -/
@[simp] theorem holdsNull_rename : (datum : Datum) → (datum.rename mapping).holdsNull = datum.holdsNull
  | .atom value => by cases value <;> rfl
  | .array items => anyHoldsNull_rename items
  | .record _ => rfl
  | .constructor _ _ => rfl

/-- Renaming neither makes nor removes a `null` in several data. -/
theorem anyHoldsNull_rename :
    (items : List Datum) → anyHoldsNull (renameAll mapping items) = anyHoldsNull items
  | [] => rfl
  | item :: items => by
      simp only [renameAll, anyHoldsNull, holdsNull_rename item, anyHoldsNull_rename items]

end

/-- `(renameAll mapping items).length = items.length`. -/
@[simp] theorem length_renameAll (items : List Datum) :
    (renameAll mapping items).length = items.length := by
  rw [renameAll_eq_map, List.length_map]

mutual

/-- The shape of a datum does not depend on places. -/
@[simp] theorem shape?_rename : (datum : Datum) → (datum.rename mapping).shape? = datum.shape?
  | .atom _ => rfl
  | .array [] => rfl
  | .array (first :: rest) => by
      simp only [rename, renameAll, shape?, shape?_rename first, length_renameAll,
        haveShape_rename _ rest]
  | .record _ => rfl
  | .constructor _ _ => rfl

/-- Whether several data are of one shape does not depend on places. -/
theorem haveShape_rename (shape : List Nat) :
    (items : List Datum) → haveShape shape (renameAll mapping items) = haveShape shape items
  | [] => rfl
  | item :: items => by
      simp only [renameAll, haveShape, shape?_rename item, haveShape_rename shape items]

end

end Datum

end ArrayForks
