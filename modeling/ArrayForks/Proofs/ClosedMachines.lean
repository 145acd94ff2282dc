import ArrayForks.Proofs.RenamedOperators
import ArrayForks.Proofs.Standards

/-! # Closed machines

A machine is closed if nothing in it refers to an object that has not been made yet, and no copy in
it has a number that has not been given yet. The machine before a program is closed, and every
evaluation and every execution leads from closed machines to closed ones. What keeps an operator from
making up a reference is that it treats all references alike: a renaming that leaves the heap and the
operands alone leaves the result alone as well.

* **`Copy.isLawful_known`**: `Copy.Known`, the standard of copies that are known to a machine, is
  kept by every single step.
* **`Piece.closed_along`**: so a run from a closed machine goes through closed machines. -/

namespace ArrayForks

/-- A copy of no object that the machine has yet to make, under no number that it has yet to give. -/
structure Copy.Known (machine : Machine) (copy : Copy) : Prop where
  ref_lt : ∀ ref, copy.value = .object ref → ref < machine.heap.objects.size
  number_lt : ∀ number, copy.origin = .made number → number < machine.made

/-- Whatever the machine binds and holds is known to it. -/
abbrev Machine.Closed (machine : Machine) : Prop :=
  machine.Upholds Copy.Known

/-! ### Names that are not in use -/

/-- Everything from a first name on moves up by a distance. -/
def shiftFrom (first distance name : Nat) : Nat :=
  if name < first then name else name + distance

/-- Names before the first one to be shifted stay. -/
theorem shiftFrom_of_lt {first name : Nat} (before : name < first) (distance : Nat) :
    shiftFrom first distance name = name :=
  if_pos before

/-- `shiftFrom first distance (first + later) = first + distance + later`. -/
theorem shiftFrom_add (first distance later : Nat) :
    shiftFrom first distance (first + later) = first + distance + later := by
  rw [shiftFrom, if_neg (by omega)]
  omega

/-- Only the names before the first one stay. -/
theorem lt_of_shiftFrom_eq {first name : Nat} (stays : shiftFrom first 1 name = name) :
    name < first := by
  unfold shiftFrom at stays
  split at stays
  · assumption
  · omega

/-- Shifting keeps names apart. -/
theorem shiftFrom_injective (first distance : Nat) :
    Function.Injective (shiftFrom first distance) := by
  intro left right same
  simp only [shiftFrom] at same
  split at same <;> split at same <;> omega

/-- A renaming of nothing that is in use in a machine. -/
structure Renaming.Fixes (mapping : Renaming) (machine : Machine) : Prop where
  ref_eq : ∀ ref < machine.heap.objects.size, mapping.ref ref = ref
  number_eq : ∀ number < machine.made, mapping.number number = number

/-- Other names for everything that is not in use yet. -/
def Machine.unused (machine : Machine) : Renaming where
  ref := shiftFrom machine.heap.objects.size 1
  number := shiftFrom machine.made 1
  ref_injective := shiftFrom_injective _ _
  number_injective := shiftFrom_injective _ _

/-- Shifting unused names fixes all names of the machine. -/
theorem Machine.unused_fixes (machine : Machine) : machine.unused.Fixes machine where
  ref_eq _ inHeap := shiftFrom_of_lt inHeap 1
  number_eq _ counted := shiftFrom_of_lt counted 1

variable {mapping : Renaming} {machine : Machine}

/-- A known copy is not renamed by a renaming that fixes the machine. -/
theorem Copy.Known.rename_eq {copy : Copy} (known : copy.Known machine)
    (fixes : mapping.Fixes machine) : copy.rename mapping = copy := by
  obtain ⟨value, origin⟩ := copy
  have valueStays : value.rename mapping = value := by
    cases value with
    | object ref => exact congrArg Value.object (fixes.ref_eq ref (known.ref_lt ref rfl))
    | _ => rfl
  have originStays : origin.rename mapping = origin := by
    cases origin with
    | made number => exact congrArg Origin.made (fixes.number_eq number (known.number_lt number rfl))
    | _ => rfl
  exact congrArg₂ Copy.mk valueStays originStays

/-- A copy is known if other names for what is not in use leave it alone. -/
theorem Copy.known_of_rename_eq {copy : Copy} (stays : copy.rename machine.unused = copy) :
    copy.Known machine where
  ref_lt ref isObject := by
    have same := congrArg Copy.value stays
    rw [Copy.value_rename, isObject] at same
    exact lt_of_shiftFrom_eq (Value.object.inj same)
  number_lt number isMade := by
    have same := congrArg Copy.origin stays
    change copy.origin.rename _ = _ at same
    rw [isMade] at same
    exact lt_of_shiftFrom_eq (Origin.made.inj same)

/-- An object of known copies is not renamed by a renaming that fixes the machine. -/
theorem Object.rename_eq {object : Object} (known : Standard.All Copy.Known machine object.copies)
    (fixes : mapping.Fixes machine) : object.rename mapping = object := by
  cases object with
  | array items =>
      refine congrArg Object.array ((List.map_congr_left fun item isIn => ?_).trans (List.map_id _))
      exact (known item isIn).rename_eq fixes
  | record entries =>
      refine congrArg Object.record (Bindings.ext ?_)
      refine (List.map_congr_left fun entry isIn => ?_).trans (List.map_id _)
      exact congrArg (Prod.mk entry.1) ((known _ (List.mem_map_of_mem isIn)).rename_eq fixes)
  | constructor of =>
      have stays := (known _ List.mem_cons_self).rename_eq fixes
      rw [Copy.rename_new] at stays
      exact congrArg Object.constructor (congrArg Copy.value stays)

/-- The heap of a closed machine is the same under other names for what is not in use. -/
theorem Machine.heap_renamed (machine : Machine) (closed : machine.Closed) (fixes : mapping.Fixes machine) :
    machine.heap.Renamed mapping machine.heap where
  get?_eq ref := by
    rcases Nat.lt_or_ge ref machine.heap.objects.size with inHeap | beyond
    · rw [fixes.ref_eq ref inHeap]
      cases found : machine.heap.get? ref with
      | none => rfl
      | some object => rw [Option.map_some, Object.rename_eq (closed.objects ref object found) fixes]
    · -- A place beyond the heap cannot get the name of a place in it, which keeps its own name.
      have stillBeyond : machine.heap.objects.size ≤ mapping.ref ref := by
        refine Nat.le_of_not_lt fun within => ?_
        have same := mapping.ref_injective (fixes.ref_eq _ within)
        exact Nat.lt_irrefl _ (Nat.lt_of_lt_of_le (same ▸ within) beyond)
      have none (place : Ref) (outside : machine.heap.objects.size ≤ place) :
          machine.heap.get? place = none := Array.getElem?_eq_none outside
      rw [none _ stillBeyond, none _ beyond]
      rfl
  size_le := Nat.le_refl _

/-! ### Steps -/

namespace Operand

/-- What other names for what is not in use leave alone is known. -/
theorem known_of_steady {outcome : Except Failure Operand} {result : Operand}
    (steady : outcome = outcome.map (rename machine.unused)) (applied : outcome = .ok result) :
    Standard.All Copy.Known machine result.items := by
  rw [applied] at steady
  have stays := congrArg Nested.items (Except.ok.inj steady)
  rw [rename, Nested.items_map] at stays
  have each := List.map_inj_left.mp ((List.map_id _).trans stays)
  exact fun copy isIn => Copy.known_of_rename_eq (each copy isIn).symm

/-- An operator to which all names are alike gives known copies of a known one. -/
theorem known_of_one {operator : Heap → Operand → Except Failure Operand}
    (alike : ∀ {mapping left right}, Heap.Renamed mapping left right → ∀ operand,
      operator right (operand.rename mapping) = (operator left operand).map (rename mapping))
    (closed : machine.Closed) {copy : Copy} (known : copy.Known machine) {result : Operand}
    (applied : operator machine.heap (.item copy) = .ok result) :
    Standard.All Copy.Known machine result.items := by
  have fixes := machine.unused_fixes
  have steady := alike (machine.heap_renamed closed fixes) (.item copy)
  rw [rename_item, known.rename_eq fixes] at steady
  exact known_of_steady steady applied

/-- An operator to which all names are alike gives known copies of two known ones. -/
theorem known_of_two {operator : Heap → Operand → Operand → Except Failure Operand}
    (alike : ∀ {mapping left right}, Heap.Renamed mapping left right → ∀ first second,
      operator right (first.rename mapping) (second.rename mapping) =
        (operator left first second).map (rename mapping))
    (closed : machine.Closed) {left right : Copy} (ofLeft : left.Known machine)
    (ofRight : right.Known machine) {result : Operand}
    (applied : operator machine.heap (.item left) (.item right) = .ok result) :
    Standard.All Copy.Known machine result.items := by
  have fixes := machine.unused_fixes
  have steady := alike (machine.heap_renamed closed fixes) (.item left) (.item right)
  rw [rename_item, rename_item, ofLeft.rename_eq fixes, ofRight.rename_eq fixes] at steady
  exact known_of_steady steady applied

end Operand

/-- A fresh copy is known if its value is. -/
theorem Copy.known_new {value : Value}
    (ref_lt : ∀ ref, value = .object ref → ref < machine.heap.objects.size) :
    (Copy.new value).Known machine := by
  refine ⟨ref_lt, fun number isMade => ?_⟩
  simp only [Copy.new] at isMade
  split at isMade <;> cases isMade

/-- A key refers to no object. -/
theorem Copy.known_key (key : Key) : (Copy.new key.value).Known machine :=
  Copy.known_new fun ref isObject => by cases key <;> cases isObject

variable [NumericLibrary]

/-- Every step makes known copies of known ones. -/
theorem Copy.isLawful_known :
    Standard.IsLawful Copy.Known (fun _ _ => True) fun _ => True where
  mono grows known :=
    ⟨fun ref isObject => Nat.lt_of_lt_of_le (known.ref_lt ref isObject) grows.size_le,
      fun number isMade => Nat.lt_of_lt_of_le (known.number_lt number isMade) grows.made_le⟩
  plain machine value isPlain := Copy.known_new fun ref isObject => by
    rw [isObject] at isPlain
    exact isPlain.elim
  written machine node value isPlain := by
    refine ⟨fun ref isObject => ?_, fun number isMade => ?_⟩
    · rw [Copy.value_written] at isObject
      rw [isObject] at isPlain
      exact isPlain.elim
    · simp only [Copy.written] at isMade
      split at isMade <;> cases isMade
  declaration _ value _ isDeclaration _ := Copy.known_new fun ref isObject => by
    rw [isObject] at isDeclaration
    cases isDeclaration
  object machine ref inHeap := Copy.known_new fun other isObject => by
    cases isObject
    exact inHeap
  counted _ _ _ := Copy.known_new fun ref isObject => by cases isObject
  key _ _ := Copy.known_key _
  ofValue known := Copy.known_new known.ref_lt
  shown {machine copy} known := by
    have origin : copy.textOrigin.rename machine.unused = copy.textOrigin := by
      rw [← Copy.textOrigin_rename, known.rename_eq machine.unused_fixes]
    exact Copy.known_of_rename_eq (congrArg (Copy.mk _) origin)
  kept {machine copy} known := by
    refine ⟨fun ref isObject => ?_, fun number isMade => ?_⟩
    · rw [Copy.value_keep] at isObject
      exact known.ref_lt ref isObject
    · unfold Copy.keep at isMade
      split at isMade
      · cases isMade
        exact Nat.lt_succ_self _
      · exact Nat.lt_succ_of_lt (known.number_lt number isMade)
  -- An operator commutes with the renaming of unused names, so its result holds none of them.
  diadic complies ofLeft ofRight applied :=
    Operand.known_of_two (fun heaps => Operation.diadic_rename heaps _ _ _) complies.toUpholds ofLeft
      ofRight applied
  monadic complies ofValue _ applied :=
    Operand.known_of_one (fun heaps => Operation.monadic_rename heaps _ _) complies.toUpholds ofValue
      applied
  monadicFork complies ofValue _ applied :=
    Operand.known_of_one (fun heaps => Operation.monadicFork_rename heaps _ _) complies.toUpholds
      ofValue applied
  diadicFork complies ofLeft ofRight applied :=
    Operand.known_of_two (fun heaps => Operation.diadicFork_rename heaps _ _ _) complies.toUpholds
      ofLeft ofRight applied

/-! ### Runs -/

omit [NumericLibrary] in
/-- The machine before a program is closed. -/
theorem Machine.closed_initial : initial.Closed :=
  (complies_initial (Copy.known_new fun ref isObject => by cases isObject)).toUpholds

/-- Every piece of a run starts from a closed machine if the run does, and the machine is closed when
the piece ends, however it ends. -/
theorem Piece.closed_along {annotations : Annotations} {piece part : Piece} {start : Machine}
    (reaches : Reaches annotations piece machine part start) (closed : machine.Closed) :
    start.Closed ∧ ∀ final, ((part.computation annotations).run start).machine? = some final →
      final.Closed := by
  have complies : machine.Complies Copy.Known :=
    { closed with keys := fun _ _ _ key _ => Copy.known_key key }
  have admits : piece.Admits annotations (fun _ _ => True) machine := fun _ _ _ _ _ _ _ => trivial
  have declares : piece.Declares annotations (fun _ => True) machine := fun _ _ _ _ _ => trivial
  have lawful := Copy.isLawful_known
  exact ⟨(reaches.complies lawful admits declares complies).toUpholds, fun final ended =>
    (reaches.complies_final lawful admits declares complies ended).toUpholds⟩

end ArrayForks
