import ArrayForks.Proofs.ClosedMachines
import ArrayForks.Proofs.OperatorTyping
import ArrayForks.Proofs.RenamedRuns

/-! # Pure expressions

An expression without calls and assignments only makes objects. Whatever was there before stays as
it was, so that the expression may be evaluated again: the second evaluation makes the objects of the
first one once more, at later places, and ends with the same failure or with the same value up to
these places. An operator that computes an array always gives a new one, which is therefore not seen
from anywhere else when it is written to.

* **`Machine.Extends`** is what a pure evaluation keeps, `Evaluation.extends_evaluate`.
* **`Machine.again`** is the renaming that takes the objects of the first evaluation to those of
  the second one, and leaves the machine before them alone, `again_fixes`.
* **`Evaluation.makesNew_evaluate`**: an array that is computed was not there before. -/

namespace ArrayForks

open Evaluation (evaluate writeElement)

variable {mapping : Renaming}

/-! ### What is left alone -/

/-- Everything is as it was before, except that further objects may have been made and further
copies counted. -/
structure Machine.Extends (before after : Machine) : Prop where
  frames_eq : after.frames = before.frames
  here_eq : after.here = before.here
  output_eq : after.output = before.output
  made_le : before.made ≤ after.made
  size_le : before.heap.objects.size ≤ after.heap.objects.size
  get?_eq : ∀ ref < before.heap.objects.size, after.heap.get? ref = before.heap.get? ref

namespace Machine.Extends

/-- Every machine extends itself. -/
theorem refl (machine : Machine) : machine.Extends machine :=
  ⟨rfl, rfl, rfl, Nat.le_refl _, Nat.le_refl _, fun _ _ => rfl⟩

/-- Extending an extended machine extends the first one. -/
theorem trans {first middle last : Machine} (start : first.Extends middle)
    (rest : middle.Extends last) : first.Extends last where
  frames_eq := rest.frames_eq.trans start.frames_eq
  here_eq := rest.here_eq.trans start.here_eq
  output_eq := rest.output_eq.trans start.output_eq
  made_le := Nat.le_trans start.made_le rest.made_le
  size_le := Nat.le_trans start.size_le rest.size_le
  get?_eq ref inHeap := by
    rw [rest.get?_eq ref (Nat.lt_of_lt_of_le inHeap start.size_le), start.get?_eq ref inHeap]

end Machine.Extends

/-- The computations that end and leave alone what was there before. -/
def Eval.Extends : Eval.Trait := fun _ computation =>
  ∀ machine, ∃ final, (computation.run machine).machine? = some final ∧ machine.Extends final

/-- The steps of a pure expression leave alone what was there before. -/
theorem Evaluation.quietSteps_extends : QuietSteps Eval.Extends where
  pure value machine := ⟨machine, rfl, .refl machine⟩
  bind {α β computation next} first rest machine := by
    obtain ⟨middle, ends, start⟩ := first machine
    rw [Eval.run_bind]
    cases ran : computation.run machine with
    | done value final =>
        rw [ran] at ends
        cases ends
        obtain ⟨last, lastEnds, later⟩ := rest value middle
        exact ⟨last, lastEnds, start.trans later⟩
    | failed failure final =>
        rw [ran] at ends
        cases ends
        exact ⟨middle, rfl, start⟩
    | unfinished =>
        rw [ran] at ends
        cases ends
  fail failure machine := ⟨machine, rfl, .refl machine⟩
  look view machine := ⟨machine, rfl, .refl machine⟩
  locate node computation located machine := by
    obtain ⟨final, ends, start⟩ := located machine
    refine ⟨final, ?_, start⟩
    simp only [Eval.run, Eval.locate] at ends ⊢
    split
    · next ran =>
        rw [ran] at ends
        exact ends
    · exact ends
  make object machine := by
    refine ⟨_, rfl, rfl, rfl, rfl, Nat.le_refl _, ?_, ?_⟩
    · simp
    · exact fun ref inHeap => Heap.get?_alloc_of_lt machine.heap object inHeap
  keep copy machine := ⟨_, rfl, rfl, rfl, rfl, Nat.le_succ _, Nat.le_refl _, fun _ _ => rfl⟩
  readName name machine := by
    refine ⟨machine, ?_, .refl machine⟩
    simp only [Eval.readName, Eval.run_bind, Eval.run_look]
    cases machine.frames.lookup machine.here name <;> rfl

/-- A pure expression ends and leaves alone what was there before. -/
theorem Evaluation.extends_evaluate [NumericLibrary] (annotations : Annotations) (calls : Calls)
    {node : Node} (pure : node.isPure = true) : Eval.Extends Copy (evaluate annotations calls node) :=
  quietSteps_extends.evaluate annotations node (.inl pure)

/-! ### Evaluating once more -/

namespace Machine

/-- The names of the objects and copies that are made once more after a machine has come so far. -/
def again (before after : Machine) : Renaming where
  ref := shiftFrom before.heap.objects.size (after.heap.objects.size - before.heap.objects.size)
  number := shiftFrom before.made (after.made - before.made)
  ref_injective := shiftFrom_injective _ _
  number_injective := shiftFrom_injective _ _

/-- `before.again after` keeps the names of everything that was there before. -/
theorem again_fixes (before after : Machine) : (before.again after).Fixes before where
  ref_eq _ inHeap := shiftFrom_of_lt inHeap _
  number_eq _ counted := shiftFrom_of_lt counted _

/-- The next object of `before` is renamed to the next one of `after`, and so on. -/
theorem again_ref_next {before after : Machine}
    (size_le : before.heap.objects.size ≤ after.heap.objects.size) (later : Nat) :
    (before.again after).ref (before.heap.objects.size + later) =
      after.heap.objects.size + later := by
  change shiftFrom _ _ _ = _
  rw [shiftFrom_add, Nat.add_sub_cancel' size_le]

/-- The next copy of `before` is renamed to the next one of `after`, and so on. -/
theorem again_number_next {before after : Machine} (made_le : before.made ≤ after.made)
    (later : Nat) :
    (before.again after).number (before.made + later) = after.made + later := by
  change shiftFrom _ _ _ = _
  rw [shiftFrom_add, Nat.add_sub_cancel' made_le]

/-- A machine that has come farther is the one before under other names for what is made next. -/
theorem Extends.renamed {before after : Machine} (extend : before.Extends after)
    (closed : before.Closed) : before.Renamed (before.again after) after where
  heaps := by
    refine ⟨fun ref => ?_, extend.size_le⟩
    rcases Nat.lt_or_ge ref before.heap.objects.size with inHeap | beyond
    · rw [(again_fixes before after).ref_eq ref inHeap, extend.get?_eq ref inHeap]
      cases found : before.heap.get? ref with
      | none => rfl
      | some object =>
          have fixed := Object.rename_eq (closed.objects ref object found) (again_fixes before after)
          rw [Option.map_some, fixed]
    · -- Neither machine has an object that the other one does not have.
      obtain ⟨later, rfl⟩ := Nat.exists_eq_add_of_le beyond
      have outside : after.heap.get? (after.heap.objects.size + later) = none :=
        Array.getElem?_eq_none (Nat.le_add_right _ _)
      have outsideBefore : before.heap.get? (before.heap.objects.size + later) = none :=
        Array.getElem?_eq_none (Nat.le_add_right _ _)
      rw [again_ref_next extend.size_le, outside, outsideBefore]
      rfl
  ref_next := again_ref_next extend.size_le
  number_next := again_number_next extend.made_le
  lookup_eq name := by
    rw [extend.frames_eq, extend.here_eq]
    cases found : before.frames.lookup before.here name with
    | error failure => rfl
    | ok value =>
        obtain ⟨frame, bound⟩ := FrameTree.exists_find?_of_lookup found
        have known := closed.frames frame value (Bindings.mem_values_of_find? bound)
        exact congrArg Except.ok (known.rename_eq (again_fixes before after)).symm

end Machine

/-! ### New arrays -/

/-- An array that is no object yet, or a value that is no object at all. -/
def Operand.IsNew : Operand → Prop
  | .item copy => ∀ ref, copy.value ≠ .object ref
  | .row _ => True

/-- The result of an operator, if there is one, is no object that was there before. -/
abbrev GivesNew (result : Except Failure Operand) : Prop :=
  Yields Operand.IsNew (fun _ => True) result

/-- `Operand.ofNumbers numbers` is a new array, or it is a number and no object. -/
theorem Operand.isNew_ofNumbers {α : Type} [Domain α] [Domain.Nameless α] (numbers : Nested α) :
    (ofNumbers numbers).IsNew := by
  cases numbers with
  | row parts => trivial
  | item number => exact Domain.Nameless.toValue_ne_object number

namespace Operation

variable (heap : Heap)

/-- Numbers as an operand are new. -/
theorem givesNew_ofNumbers {α : Type} [Domain α] [Domain.Nameless α]
    (numbers : Except Failure (Nested α)) : GivesNew (numbers.map Operand.ofNumbers) :=
  (Yields.any numbers).map fun numbers _ => Operand.isNew_ofNumbers numbers

variable [NumericLibrary]

/-- `Coerced.apply` gives numbers, which are new. -/
theorem givesNew_apply (op : DiadicOp) (pair : Coerced) : GivesNew (pair.apply op) := by
  cases pair with
  | words left right => exact givesNew_ofNumbers _
  | doubles left right => exact givesNew_ofNumbers _

/-- No diadic operator gives one of its operands back, unless that is no object. -/
theorem givesNew_diadic (op : DiadicOp) (leftType rightType : StaticType) (left right : Operand) :
    GivesNew (diadic heap op leftType rightType left right) := by
  unfold diadic
  -- There is a case for each rule that the types may choose.
  split
  · refine .ok fun ref => ?_
    rw [value_join]
    simp
  · refine (Yields.any _).bind fun leftItems _ => (Yields.any _).bind fun rightItems _ => ?_
    dsimp only
    split
    · exact (Yields.any _).bind fun doubles _ => .ok trivial
    · exact .ok trivial
  · refine (Yields.any _).bind fun pair _ => ?_
    dsimp only
    split
    · exact .error trivial
    · exact givesNew_apply op pair
  · exact (Yields.any _).bind fun pair _ => givesNew_apply op pair
  · exact .ok fun ref => by simp [Value.ofBool]
  · exact .ok fun ref => by simp [Value.ofBool]
  · exact .error trivial

/-- A pointwise operator gives no array back that it is given. -/
theorem givesNew_pointwise (op : Pointwise) (type : StaticType) (operand : Operand) :
    GivesNew (monadic heap (.pointwise op) type operand) := by
  have onNumber (α : Type) [Domain α] [Domain.Nameless α] (operand : Operand) :
      GivesNew (onNumber α heap (.pointwise op) operand) :=
    (Yields.any _).bind fun numbers _ => (Yields.any _).bind fun result _ =>
      .ok (Operand.isNew_ofNumbers result)
  have onItems (α : Type) [Domain α] [Domain.Nameless α] (component : StaticType)
      (items : List Operand) : GivesNew (onItems α heap (.pointwise op) component items) := by
    unfold Operation.onItems
    split
    · exact givesNew_ofNumbers _
    · split
      · exact (Yields.any _).bind fun numbers _ => (Yields.any _).bind fun result _ =>
          .ok (Operand.isNew_ofNumbers result)
      · exact .error trivial
  unfold monadic
  split
  · next component =>
      refine (Yields.any _).bind fun items _ => ?_
      dsimp only
      split
      · exact onItems Float component items
      · exact onItems Int component items
  · split
    · unfold onScalar
      split
      · exact (Yields.any _).bind fun double _ => onNumber Float (.item double)
      · exact onNumber Int operand
    · exact .error trivial

/-- The middle operator of a fork gives what is new, being a diadic operator. -/
theorem givesNew_combine (middle : DiadicOp) (left right : Operand) :
    GivesNew (combine heap middle left right) :=
  (Yields.any _).bind fun leftType _ => (Yields.any _).bind fun rightType _ =>
    givesNew_diadic heap middle leftType rightType left right

/-- A monadic fork gives what is new, as its middle operator does. -/
theorem givesNew_monadicFork (fork : MonadicFork) (type : StaticType) (operand : Operand) :
    GivesNew (monadicFork heap fork type operand) :=
  (Yields.any _).bind fun left _ => (Yields.any _).bind fun right _ =>
    givesNew_combine heap fork.middle left right

/-- A diadic fork gives what is new, as its middle operator does. -/
theorem givesNew_diadicFork (fork : DiadicFork) (leftType rightType : StaticType)
    (left right : Operand) : GivesNew (diadicFork heap fork leftType rightType left right) :=
  (Yields.any _).bind fun leftResult _ => (Yields.any _).bind fun rightResult _ =>
    givesNew_combine heap fork.middle leftResult rightResult

end Operation

/-- The computations whose result is no object that was there before. -/
def Eval.MakesNew (computation : Eval Copy) : Prop :=
  ∀ machine value final ref, computation.run machine = .done value final →
    value.value = .object ref → machine.heap.objects.size ≤ ref

namespace Eval.MakesNew

/-- A sequence makes something new if its first computation leaves alone what was there, and what
follows makes something new. -/
theorem bind {α : Type} {computation : Eval α} {next : α → Eval Copy}
    (first : Eval.Extends α computation) (rest : ∀ value, MakesNew (next value)) :
    MakesNew (computation >>= next) := by
  intro machine value final ref ends isObject
  obtain ⟨last, lastEnds, start⟩ := first machine
  rw [run_bind] at ends
  cases ran : computation.run machine with
  | done held middle =>
      rw [ran] at ends lastEnds
      obtain rfl : middle = last := Option.some.inj lastEnds
      exact Nat.le_trans start.size_le (rest held middle value final ref ends isObject)
  | failed failure middle =>
      rw [ran] at ends
      cases ends
  | unfinished =>
      rw [ran] at ends
      cases ends

/-- A place for a failure does not change a value. -/
theorem locate (node : Unit → String) {computation : Eval Copy} (new : MakesNew computation) :
    MakesNew (Eval.locate node computation) := by
  intro machine value final ref ends isObject
  refine new machine value final ref ?_ isObject
  simp only [run, Eval.locate] at ends ⊢
  split at ends
  · cases ends
  · exact ends

/-- A copy of no object is nothing that was there before. -/
theorem keep {copy : Copy} (noObject : ∀ ref, copy.value ≠ .object ref) :
    MakesNew (Eval.keep copy) := by
  intro machine value final ref ends isObject
  rw [run_keep] at ends
  cases ends
  rw [Copy.value_keep] at isObject
  exact absurd isObject (noObject ref)

/-- An object that is made lies behind all that were there before. -/
theorem make (object : Object) : MakesNew (Eval.make object) := by
  intro machine value final ref ends isObject
  rw [run_make] at ends
  cases ends
  cases isObject
  exact Nat.le_refl _

/-- A new operand becomes a new value. -/
theorem settle {operand : Operand} (new : operand.IsNew) : MakesNew (Eval.settle operand) := by
  cases operand with
  | item copy => exact keep new
  | row parts =>
      exact bind (Evaluation.quietSteps_extends.settleAll parts) fun items => make (.array items)

/-- An operator that gives what is new makes a new value. -/
theorem operate {operator : Heap → Except Failure Operand}
    (new : ∀ heap, GivesNew (operator heap)) : MakesNew (Eval.operate operator) := by
  intro machine value final ref ends isObject
  have given := new machine.heap
  simp only [Eval.operate, run_bind, run_look] at ends
  generalize operator machine.heap = result at given ends
  cases given with
  | ok isNew => exact settle isNew machine value final ref ends isObject
  | error _ => cases ends

end Eval.MakesNew

/-- The nodes that compute an array: array literals, diadic operators and forks, and the monadic
operators that map the elements of an array. -/
def Node.makesArray : Node → Bool
  | .array _ _ | .diadic _ _ _ _ | .monadicFork _ _ _ | .diadicFork _ _ _ _ => true
  | .monadic _ (.pointwise _) _ => true
  | _ => false

variable [NumericLibrary]

/-- The array that a pure expression computes was not there before. -/
theorem Evaluation.makesNew_evaluate (annotations : Annotations) (calls : Calls) {node : Node}
    (pure : node.isPure = true) (makes : node.makesArray = true) :
    Eval.MakesNew (evaluate annotations calls node) := by
  have typed (node : Node) := quietSteps_extends.typeOf annotations node
  cases node with
  | array id items =>
      have elements : Eval.Extends _ (Evaluation.evaluateAll annotations calls items) :=
        quietSteps_extends.evaluateAll annotations items (.inl pure)
      exact .locate _ (.bind (typed _) fun type => .bind elements fun values => .settle trivial)
  | diadic id left op right =>
      have both := Bool.and_eq_true_iff.mp pure
      refine .locate _ (.bind (typed _) fun leftType => .bind (typed _) fun rightType => ?_)
      refine .bind (extends_evaluate annotations calls both.1) fun leftValue => ?_
      split
      · next value decided =>
          -- An early decision is a number.
          refine .keep fun ref => ?_
          obtain ⟨b, rfl⟩ := Evaluation.exists_of_decided? decided
          cases leftType.floatingWith rightType <;> simp [Value.truth]
      · refine .bind (extends_evaluate annotations calls both.2) fun rightValue => ?_
        exact .operate fun heap => Operation.givesNew_diadic heap op leftType rightType _ _
  | monadic id op operand =>
      cases op with
      | pointwise op =>
          refine .locate _ (.bind (extends_evaluate annotations calls pure) fun value => ?_)
          refine .bind (typed _) fun type => ?_
          exact .operate fun heap => Operation.givesNew_pointwise heap op type _
      | _ => cases makes
  | monadicFork id fork operand =>
      refine .locate _ (.bind (extends_evaluate annotations calls pure) fun value => ?_)
      refine .bind (typed _) fun type => ?_
      exact .operate fun heap => Operation.givesNew_monadicFork heap fork type _
  | diadicFork id left fork right =>
      have both := Bool.and_eq_true_iff.mp pure
      refine .locate _ (.bind (extends_evaluate annotations calls both.1) fun leftValue => ?_)
      refine .bind (extends_evaluate annotations calls both.2) fun rightValue => ?_
      refine .bind (typed _) fun leftType => .bind (typed _) fun rightType => ?_
      exact .operate fun heap => Operation.givesNew_diadicFork heap fork leftType rightType _ _
  | _ => cases makes

omit [NumericLibrary] in
/-- What writing to an element leaves alone. -/
theorem Evaluation.writeElement_elsewhere {target : Ref} {index : Index} {written : Copy}
    {machine final : Machine}
    (ends : ((writeElement (.object target) index written).run machine).machine? = some final) :
    final.frames = machine.frames ∧ final.output = machine.output ∧
      ∀ ref, ref ≠ target → final.heap.get? ref = machine.heap.get? ref := by
  have replaced (object : Object) (ref : Ref) (other : ref ≠ target) :
      (machine.heap.replace target object).get? ref = machine.heap.get? ref := by
    rw [Heap.get?_replace, if_neg fun both => other both.1.symm]
  simp only [writeElement, Eval.run_bind, Eval.run_look] at ends
  split at ends
  · next isTarget _ =>
      cases isTarget
      split at ends
      · cases ends
        exact ⟨rfl, rfl, replaced _⟩
      · cases ends
        exact ⟨rfl, rfl, fun _ _ => rfl⟩
  · next isTarget _ =>
      cases isTarget
      cases ends
      exact ⟨rfl, rfl, replaced _⟩
  · cases ends
    exact ⟨rfl, rfl, fun _ _ => rfl⟩

/-- What two evaluations have in common that end with the same failure, or with values of the same
structure: these are alike up to the places of objects beyond the first `size` ones. -/
inductive Outcome.SameStructure (size : Nat) : Outcome Copy → Outcome Copy → Prop where
  /-- Both end with values of the same structure. -/
  | done {left right : Copy} {leftEnd rightEnd : Machine} (mapping : Renaming)
      (fixed : ∀ ref < size, mapping.ref ref = ref)
      (same : rightEnd.heap.unfold right.value = (leftEnd.heap.unfold left.value).rename mapping) :
      SameStructure size (.done left leftEnd) (.done right rightEnd)
  /-- Both end with the same failure. -/
  | failed (failure : Failure) (leftEnd rightEnd : Machine) :
      SameStructure size (.failed failure leftEnd) (.failed failure rightEnd)

/-- **Pure expressions.** Let `node.isPure`. Then its evaluation ends in some `final`, and

* `machine.Extends final`: the frames, the output and every object that was there are as they were;
* if `machine.Closed`, as every machine of a run is, then the evaluation from `final` has the
  `SameStructure`: the same failure, or a value that unfolds to the same data;
* if `node.makesArray`, then `machine.heap.objects.size ≤ ref` for the array `ref` that it gives, so
  that `writeElement` to it at whatever later time changes no frame, no output and no object that
  was there before the evaluation. -/
theorem pure_evaluation (annotations : Annotations) (calls : Calls) {node : Node}
    (pure : node.isPure = true) (machine : Machine) :
    let evaluation := evaluate annotations calls node
    ∃ final, (evaluation.run machine).machine? = some final ∧ machine.Extends final ∧
      (machine.Closed →
        (evaluation.run machine).SameStructure machine.heap.objects.size (evaluation.run final)) ∧
      (node.makesArray = true → ∀ value ref, evaluation.run machine = .done value final →
        value.value = .object ref → machine.heap.objects.size ≤ ref ∧
        ∀ later index written last,
          ((writeElement value.value index written).run later).machine? = some last →
          last.frames = later.frames ∧ last.output = later.output ∧
            ∀ earlier < machine.heap.objects.size,
              last.heap.get? earlier = later.heap.get? earlier) := by
  intro evaluation
  obtain ⟨final, ends, extend⟩ := Evaluation.extends_evaluate annotations calls pure machine
  refine ⟨final, ends, extend, fun closed => ?_, fun makes value ref ran isObject => ?_⟩
  · -- The second evaluation is the first one with other names for what it makes.
    have step := Evaluation.evaluate_renamed annotations calls node pure machine final
      (extend.renamed closed)
    change (evaluation.run machine).machine? = some final at ends
    generalize evaluation.run machine = first at step ends ⊢
    generalize evaluation.run final = second at step ⊢
    cases step with
    | done value machines =>
        exact .done (machine.again final) (machine.again_fixes final).ref_eq
          (machines.heaps.unfold_eq value.value)
    | failed failure machines => exact .failed failure _ _
    | unfinished => cases ends
  · have new := Evaluation.makesNew_evaluate annotations calls pure makes machine value final ref
      ran isObject
    refine ⟨new, fun later index written last written? => ?_⟩
    rw [isObject] at written?
    obtain ⟨frames, output, elsewhere⟩ := Evaluation.writeElement_elsewhere written?
    refine ⟨frames, output, fun earlier before => elsewhere earlier ?_⟩
    exact Nat.ne_of_lt (Nat.lt_of_lt_of_le before new)

/-- Putting nothing behind the elements of an array runs: the empty array is the next object, and
what is given the one after it. -/
theorem run_concat_nothing :
    let machine : Machine := { Machine.initial with
      frames := .ofRoot (Bindings.ofList [("a", .new (.object 0))])
      heap := ⟨#[.array [.new (.int 1)]]⟩ }
    let annotations := Annotations.empty |>.annotate 2 (.array .int) |>.annotate 3 (.array .int)
    let evaluation := evaluate annotations (Execution.callsTo annotations 0)
      (.diadic 1 (.reference 2 "a") .concat (.array 3 []))
    ∃ final, evaluation.run machine = .done (.new (.object 2)) final := by
  intro machine annotations evaluation
  have leftTyped : annotations.typeOf (.reference 2 "a") = .ok (.array .int) := by
    simp [annotations, Annotations.typeOf, Annotations.types_annotate, Node.id]
  have rightTyped : annotations.typeOf (.array 3 []) = .ok (.array .int) := by
    simp [annotations, Annotations.typeOf, Annotations.types_annotate, Node.id]
  have unbound : annotations.bindingOf? 2 = none := by
    simp [annotations, Annotations.bindingOf?, Annotations.annotate, Annotations.empty]
  have left : (evaluate annotations (Execution.callsTo annotations 0) (.reference 2 "a")).run
      machine = .done (.new (.object 0)) machine := by
    have chain : machine.frames.chain machine.here = [0] := by
      rw [FrameTree.chain_eq_cons (by decide)]
      rfl
    have read : machine.frames.lookup machine.here "a" = .ok (.new (.object 0)) := by
      simp only [FrameTree.lookup, FrameTree.find?, FrameTree.owner?, chain]
      rfl
    unfold evaluate Evaluation.resolve
    rw [unbound]
    change (Eval.readName "a").run machine = _
    rw [Eval.readName, Eval.run_bind, Eval.run_look, read]
    rfl
  let last : Machine := { machine with heap := (machine.heap.alloc (.array [])).2 }
  have right : (evaluate annotations (Execution.callsTo annotations 0) (.array 3 [])).run
      machine = .done (.new (.object 1)) last := by
    refine Eval.run_locate_of_done ?_ _
    rw [Eval.run_bind_of_done (Evaluation.run_typeOf rightTyped machine)]
    rfl
  refine ⟨?final, Eval.run_locate_of_done ?ran _⟩
  case ran =>
    rw [Eval.run_bind_of_done (Evaluation.run_typeOf leftTyped machine),
      Eval.run_bind_of_done (Evaluation.run_typeOf rightTyped machine),
      Eval.run_bind_of_done left]
    refine (Eval.run_bind_of_done right _).trans ?_
    rfl

omit [NumericLibrary] in
/-- Putting nothing behind the elements of an array leaves the array alone and gives another one. -/
theorem pure_evaluation_concat :
    letI : NumericLibrary := .standard
    let machine : Machine := { Machine.initial with
      frames := .ofRoot (Bindings.ofList [("a", .new (.object 0))])
      heap := ⟨#[.array [.new (.int 1)]]⟩ }
    let annotations := Annotations.empty |>.annotate 2 (.array .int) |>.annotate 3 (.array .int)
    let evaluation := evaluate annotations (Execution.callsTo annotations 0)
      (.diadic 1 (.reference 2 "a") .concat (.array 3 []))
    ∃ final, evaluation.run machine = .done (.new (.object 2)) final ∧ machine.Extends final ∧
      (evaluation.run machine).SameStructure 1 (evaluation.run final) ∧
      ∀ later index written last,
        ((writeElement (.object 2) index written).run later).machine? = some last →
        last.frames = later.frames ∧ last.output = later.output ∧
          ∀ earlier < 1, last.heap.get? earlier = later.heap.get? earlier := by
  let : NumericLibrary := .standard
  intro machine annotations evaluation
  have closed : machine.Closed := by
    refine ⟨fun id copy isIn => ?_, fun ref object found => ?_⟩
    · cases id with
      | zero =>
          rw [List.mem_singleton.mp isIn]
          refine Copy.known_new fun ref isObject => ?_
          cases isObject
          exact Nat.one_pos
      | succ id => cases isIn
    · obtain rfl : ref = 0 := Nat.lt_one_iff.mp (Heap.lt_size_of_get? found)
      cases found
      intro item isIn
      rw [List.mem_singleton.mp isIn]
      exact Copy.known_new fun ref isObject => by cases isObject
  have isPure : (Node.diadic 1 (.reference 2 "a") .concat (.array 3 [])).isPure = true := rfl
  obtain ⟨final, ends, extend, again, new⟩ := pure_evaluation annotations
    (Execution.callsTo annotations 0) isPure machine
  obtain ⟨reached, ran⟩ := run_concat_nothing
  obtain rfl : reached = final := by
    rw [ran] at ends
    exact Option.some.inj ends
  exact ⟨reached, ran, extend, again closed, (new rfl _ 2 ran rfl).2⟩

end ArrayForks
