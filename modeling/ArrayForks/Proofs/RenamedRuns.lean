import ArrayForks.Proofs.RenamedOperators
import ArrayForks.Proofs.Steps

/-! # Runs in renamed machines

An expression without calls and assignments does nothing with an object but pass it on, look into it
and make a further one. So if it is evaluated in two machines that hold the same objects under other
names, both evaluations make corresponding objects and end alike: with the same failure, or with
values that correspond to each other as well.

* **`Eval.Renamed`** relates two computations, by the machines and the outcomes they lead to.
* **`Evaluation.evaluate_renamed`**: `evaluate` of a pure node is renamed to itself. -/

namespace ArrayForks

open Evaluation (evaluate evaluateAll extent readElement readField resolve)

/-! ### Two runs in step -/

/-- Machines with the same objects and copies under other names, and with the same values of names
in reach. Objects that are made next and copies that are counted next have corresponding names. -/
structure Machine.Renamed (mapping : Renaming) (left right : Machine) : Prop where
  heaps : left.heap.Renamed mapping right.heap
  ref_next (later : Nat) :
    mapping.ref (left.heap.objects.size + later) = right.heap.objects.size + later
  number_next (later : Nat) : mapping.number (left.made + later) = right.made + later
  lookup_eq (name : String) : right.frames.lookup right.here name =
    (left.frames.lookup left.here name).map (Copy.rename mapping)

variable {mapping : Renaming}

/-- Two computations end alike, the second one with the renamed value. -/
inductive Outcome.Renamed {α β : Type} (mapping : Renaming) (rename : α → β) :
    Outcome α → Outcome β → Prop where
  /-- Both end with a value. -/
  | done (value : α) {left right : Machine} (machines : left.Renamed mapping right) :
      Renamed mapping rename (.done value left) (.done (rename value) right)
  /-- Both end with the same failure. -/
  | failed (failure : Failure) {left right : Machine} (machines : left.Renamed mapping right) :
      Renamed mapping rename (.failed failure left) (.failed failure right)
  /-- Neither ends. -/
  | unfinished : Renamed mapping rename .unfinished .unfinished

/-- In renamed machines the second computation ends with what the first one ends with, renamed. -/
def Eval.Renamed {α β : Type} (mapping : Renaming) (rename : α → β) (computation : Eval α)
    (other : Eval β) : Prop :=
  ∀ left right, left.Renamed mapping right →
    (computation.run left).Renamed mapping rename (other.run right)

namespace Eval.Renamed

variable {α β γ δ : Type} {rename : α → β} {renameLast : γ → δ}

/-- Giving corresponding values goes in step. -/
theorem pure (value : α) : Renamed mapping rename (Pure.pure value) (Pure.pure (rename value)) :=
  fun _ _ machines => .done value machines

/-- Failing alike goes in step. -/
theorem fail (failure : Failure) : Renamed mapping rename (Eval.fail failure) (Eval.fail failure) :=
  fun _ _ machines => .failed failure machines

/-- Sequences go in step if their first computations do, and what follows corresponding values. -/
theorem bind {computation : Eval α} {other : Eval β} {next : α → Eval γ} {nextOther : β → Eval δ}
    (first : Renamed mapping rename computation other)
    (rest : ∀ value, Renamed mapping renameLast (next value) (nextOther (rename value))) :
    Renamed mapping renameLast (computation >>= next) (other >>= nextOther) := by
  intro left right machines
  have start := first left right machines
  rw [run_bind, run_bind]
  generalize computation.run left = leftEnd at start ⊢
  generalize other.run right = rightEnd at start ⊢
  -- Either both runs go on with corresponding values or both are over.
  cases start with
  | done value machines => exact rest value _ _ machines
  | failed failure machines => exact .failed failure machines
  | unfinished => exact .unfinished

/-- What follows a look at the heap sees the renamed heap. -/
theorem bind_look {next : Heap → Eval γ} {nextOther : Heap → Eval δ}
    (rest : ∀ left right, left.Renamed mapping right →
      Renamed mapping renameLast (next left) (nextOther right)) :
    Renamed mapping renameLast (look Machine.heap >>= next) (look Machine.heap >>= nextOther) :=
  fun left right machines => rest _ _ machines.heaps left right machines

/-- Looks at renamed heaps that see corresponding values go in step. -/
theorem look {view : Heap → α} {viewOther : Heap → β}
    (same : ∀ left right, left.Renamed mapping right → viewOther right = rename (view left)) :
    Renamed mapping rename (Eval.look fun machine => view machine.heap)
      (Eval.look fun machine => viewOther machine.heap) := by
  intro left right machines
  rw [run_look, run_look, same _ _ machines.heaps]
  exact .done _ machines

/-- Results that correspond to each other, `other = result.map rename`, go in step. -/
theorem ofExcept {result : Except Failure α} {other : Except Failure β}
    (same : other = result.map rename) :
    Renamed mapping rename (Eval.ofExcept result) (Eval.ofExcept other) := by
  rw [same]
  cases result with
  | ok value => exact pure value
  | error failure => exact fail failure

/-- A failure gets the same place on both sides. -/
theorem locate (node : Unit → String) {computation : Eval α} {other : Eval β}
    (located : Renamed mapping rename computation other) :
    Renamed mapping rename (Eval.locate node computation) (Eval.locate node other) := by
  intro left right machines
  have ends := located left right machines
  simp only [run, Eval.locate] at ends ⊢
  generalize computation left = leftEnd at ends ⊢
  generalize other right = rightEnd at ends ⊢
  cases ends with
  | done value machines => exact .done value machines
  | failed failure machines => exact .failed (failure.locate node) machines
  | unfinished => exact .unfinished

/-- Objects that are made in step have corresponding places. -/
theorem make (object : Object) :
    Renamed mapping (Copy.rename mapping) (Eval.make object)
      (Eval.make (object.rename mapping)) := by
  intro left right machines
  have next : mapping.ref left.heap.objects.size = right.heap.objects.size := machines.ref_next 0
  have result : Copy.new (.object (right.heap.alloc (object.rename mapping)).1) =
      (Copy.new (.object (left.heap.alloc object).1)).rename mapping := by
    rw [Copy.rename_new]
    exact congrArg (fun ref => Copy.new (.object ref)) next.symm
  rw [run_make, run_make, result]
  refine .done _ ⟨⟨fun ref => ?_, ?_⟩, fun later => ?_, machines.number_next, machines.lookup_eq⟩
  · simp only [Heap.get?_alloc, ← next, mapping.ref_injective.eq_iff, machines.heaps.get?_eq]
    split <;> rfl
  · rw [Heap.size_alloc, Heap.size_alloc]
    exact Nat.succ_le_succ machines.heaps.size_le
  · rw [Heap.size_alloc, Heap.size_alloc, Nat.add_assoc, Nat.add_assoc]
    exact machines.ref_next (1 + later)

/-- Copies that are kept in step have corresponding numbers. -/
theorem keep (copy : Copy) :
    Renamed mapping (Copy.rename mapping) (Eval.keep copy) (Eval.keep (copy.rename mapping)) := by
  intro left right machines
  have next : mapping.number left.made = right.made := machines.number_next 0
  have result : (copy.rename mapping).keep right.made = (copy.keep left.made).rename mapping := by
    rw [Copy.rename_keep, next]
  rw [run_keep, run_keep, result]
  refine .done _ ⟨machines.heaps, machines.ref_next, fun later => ?_, machines.lookup_eq⟩
  rw [Nat.add_assoc, Nat.add_assoc]
  exact machines.number_next (1 + later)

/-- A name is read as corresponding copies, by `Machine.Renamed.lookup_eq`. -/
theorem readName (name : String) :
    Renamed mapping (Copy.rename mapping) (Eval.readName name) (Eval.readName name) := by
  intro left right machines
  simp only [Eval.readName, run_bind, run_look]
  exact ofExcept (machines.lookup_eq name) left right machines

mutual

/-- Corresponding operands become corresponding values, by induction on their layout. -/
theorem settle : (operand : Operand) →
    Renamed mapping (Copy.rename mapping) (Eval.settle operand)
      (Eval.settle (operand.rename mapping))
  | .item copy => keep copy
  | .row parts => by
      rw [Operand.rename_row]
      exact bind (settleAll parts) fun items => make (.array items)

/-- Corresponding operands become corresponding values one after the other. -/
theorem settleAll : (parts : List Operand) →
    Renamed mapping (List.map (Copy.rename mapping)) (Eval.settleAll parts)
      (Eval.settleAll (parts.map (Operand.rename mapping)))
  | [] => pure []
  | part :: parts =>
      bind (settle part) fun item => bind (settleAll parts) fun items => pure (item :: items)

end

/-- Operators on renamed operands. -/
theorem operate {operator other : Heap → Except Failure Operand}
    (same : ∀ left right, left.Renamed mapping right →
      other right = (operator left).map (Operand.rename mapping)) :
    Renamed mapping (Copy.rename mapping) (Eval.operate operator) (Eval.operate other) :=
  bind_look fun left right heaps =>
    bind (ofExcept (same left right heaps)) fun result => settle result

end Eval.Renamed

/-! ### Evaluating in step -/

namespace Evaluation

/-- Giving the same copy goes in step if it has no name. -/
theorem pure_nameless {copy : Copy} (nameless : copy.rename mapping = copy) :
    Eval.Renamed mapping (Copy.rename mapping) (pure copy) (pure copy) := by
  have same : Eval.Renamed mapping (Copy.rename mapping) (pure copy) (pure (copy.rename mapping)) :=
    .pure copy
  rwa [nameless] at same

/-- Keeping the same copy goes in step if it has no name. -/
theorem keep_nameless {copy : Copy} (nameless : copy.rename mapping = copy) :
    Eval.Renamed mapping (Copy.rename mapping) (Eval.keep copy) (Eval.keep copy) := by
  have same : Eval.Renamed mapping (Copy.rename mapping) (Eval.keep copy)
      (Eval.keep (copy.rename mapping)) := .keep copy
  rwa [nameless] at same

/-- `widen type (copy.rename mapping) = (widen type copy).rename mapping`. -/
@[simp] theorem widen_rename (type : StaticType) (copy : Copy) :
    widen type (copy.rename mapping) = (widen type copy).rename mapping := by
  obtain ⟨value, origin⟩ := copy
  cases type <;> cases value <;> rfl

/-- Renaming does not change what a left operand decides, since it is a number. -/
theorem decided?_rename (op : DiadicOp) (leftType rightType : StaticType) (value : Value) :
    decided? op leftType rightType (value.rename mapping) = decided? op leftType rightType value := by
  simp only [decided?, Value.isZero_rename]

/-- The lengths of corresponding arrays are found in step, and are the same. -/
theorem extent_renamed (value : Value) :
    Eval.Renamed mapping id (extent value) (extent (value.rename mapping)) := by
  unfold extent
  simp only [Value.rename_eq_null]
  split
  · exact .fail _
  · refine .bind (.look fun left right heaps => heaps.items?_eq value) fun items => ?_
    cases items with
    | none => exact .fail _
    | some items =>
        simp only [Option.map_some, List.length_map]
        exact .pure items.length

/-- An index is a number, so it is checked alike. -/
theorem check_rename (index : Value) (length : Nat) :
    Index.check (index.rename mapping) length = Index.check index length := by
  cases index <;> rfl

/-- Elements of corresponding values are read in step. -/
theorem readElement_renamed (value : Value) (index : Index) :
    Eval.Renamed mapping (Copy.rename mapping) (readElement value index)
      (readElement (value.rename mapping) index) :=
  .bind_look fun _ _ heaps =>
    .bind (.ofExcept (heaps.element_eq value index)) fun element => .keep element

/-- Fields of corresponding values are read in step. -/
theorem readField_renamed (stem : Value) (name : String) :
    Eval.Renamed mapping (Copy.rename mapping) (readField stem name)
      (readField (stem.rename mapping) name) := by
  unfold readField
  simp only [Value.rename_eq_null]
  split
  · exact .fail _
  · refine .bind_look fun left right heaps => ?_
    rw [heaps.object?_eq, heaps.items?_eq]
    -- A structure is asked for a field; of anything else the elements are counted.
    rcases left.object? stem with _ | ⟨items⟩ | ⟨entries⟩ | of
    case some.record =>
      simp only [Option.map_some, Object.rename, Bindings.find?_rename]
      rcases entries.find? (.name name) with _ | value
      · exact .fail _
      · exact .pure value
    all_goals
      rcases left.items? stem with _ | items
      · exact .fail _
      · simp only [Option.map_some, List.length_map]
        exact keep_nameless (Copy.rename_new (.int items.length))

/-- Declarations have no places. -/
theorem rename_valueOf? {annotations : Annotations} {declaration : NodeId} {value : Value}
    (found : annotations.valueOf? declaration = some value) : value.rename mapping = value := by
  unfold Annotations.valueOf? at found
  split at found
  · cases found
    rfl
  · cases found
    rfl
  · cases found

/-- References are resolved in step, to a declaration or to what a name is bound to. -/
theorem resolve_renamed (annotations : Annotations) (reference : NodeId) (name : String) :
    Eval.Renamed mapping (Copy.rename mapping) (resolve annotations reference name)
      (resolve annotations reference name) := by
  unfold resolve
  split
  · next value found =>
      obtain ⟨declaration, _, isValue⟩ := Option.bind_eq_some_iff.mp found
      have fixed : (Copy.new value).rename mapping = Copy.new value := by
        rw [Copy.rename_new, rename_valueOf? isValue]
      exact pure_nameless fixed
  · exact .readName name

/-- A result without names is the same on both sides. -/
theorem ofExcept_renamed {α : Type} (result : Except Failure α) :
    Eval.Renamed mapping id (Eval.ofExcept result) (Eval.ofExcept result) :=
  .ofExcept (by cases result <;> rfl)

section

variable [NumericLibrary] (annotations : Annotations) (calls : Calls)

mutual

/-- A pure expression evaluates in step in renamed machines. -/
theorem evaluate_renamed : (node : Node) → node.isPure = true →
    Eval.Renamed mapping (Copy.rename mapping) (evaluate annotations calls node)
      (evaluate annotations calls node)
  | .int _ n, _ => keep_nameless (Copy.rename_new (.int (Word.wrap n)))
  | .float id x, _ => pure_nameless (Copy.rename_written id (.float x))
  | .string id text, _ => pure_nameless (Copy.rename_written id (.string text))
  | .null _, _ => pure_nameless (Copy.rename_new .null)
  | .reference id name, _ => resolve_renamed annotations id name
  | .constructor _ of, quiet => .locate _ (.bind (evaluate_renamed of quiet) fun type => .make _)
  | .array _ items, quiet => by
      refine .locate _ (.bind (ofExcept_renamed _) fun type => ?_)
      refine .bind (evaluateAll_renamed items quiet) fun values => ?_
      have elements : (values.map (Copy.rename mapping)).map (widen (elementType type)) =
          (values.map (widen (elementType type))).map (Copy.rename mapping) := by
        rw [List.map_map, List.map_map]
        exact List.map_congr_left fun value _ => widen_rename (elementType type) value
      rw [id_eq, elements, ← Operand.rename_ofList]
      exact .settle _
  | .paren _ inner, quiet => .locate _ (evaluate_renamed inner quiet)
  | .field _ stem name, quiet =>
      .locate _ (.bind (evaluate_renamed stem quiet) fun object => readField_renamed object.value name)
  | .index _ stem position, quiet => by
      have both := Bool.and_eq_true_iff.mp quiet
      refine .locate _ (.bind (evaluate_renamed stem both.1) fun array => ?_)
      refine .bind (extent_renamed array.value) fun length => ?_
      refine .bind (evaluate_renamed position both.2) fun index => ?_
      rw [Copy.value_rename, check_rename]
      exact .bind (ofExcept_renamed _) fun place => readElement_renamed array.value place
  | .diadic _ left op right, quiet => by
      have both := Bool.and_eq_true_iff.mp quiet
      refine .locate _ (.bind (ofExcept_renamed _) fun leftType => ?_)
      refine .bind (ofExcept_renamed _) fun rightType => ?_
      refine .bind (evaluate_renamed left both.1) fun leftValue => ?_
      rw [Copy.value_rename, id_eq, id_eq, decided?_rename]
      -- A connective that its left operand decides does not evaluate the right one.
      split
      · next value decided =>
          have nameless : value.rename mapping = value := by
            obtain ⟨b, rfl⟩ := exists_of_decided? decided
            exact Value.rename_truth _ b
          exact keep_nameless ((Copy.rename_new value).trans (congrArg Copy.new nameless))
      · refine .bind (evaluate_renamed right both.2) fun rightValue => ?_
        exact .operate fun _ _ heaps => Operation.diadic_rename heaps op leftType rightType
          (.item leftValue) (.item rightValue)
  | .monadic _ op operand, quiet => by
      refine .locate _ (.bind (evaluate_renamed operand quiet) fun value => ?_)
      refine .bind (ofExcept_renamed _) fun type => ?_
      exact .operate fun _ _ heaps => Operation.monadic_rename heaps op type (.item value)
  | .monadicFork _ fork operand, quiet => by
      refine .locate _ (.bind (evaluate_renamed operand quiet) fun value => ?_)
      refine .bind (ofExcept_renamed _) fun type => ?_
      exact .operate fun _ _ heaps => Operation.monadicFork_rename heaps fork type (.item value)
  | .diadicFork _ left fork right, quiet => by
      have both := Bool.and_eq_true_iff.mp quiet
      refine .locate _ (.bind (evaluate_renamed left both.1) fun leftValue => ?_)
      refine .bind (evaluate_renamed right both.2) fun rightValue => ?_
      refine .bind (ofExcept_renamed _) fun leftType => ?_
      refine .bind (ofExcept_renamed _) fun rightType => ?_
      exact .operate fun _ _ heaps =>
        Operation.diadicFork_rename heaps fork leftType rightType (.item leftValue) (.item rightValue)
  | .block _ _, _ | .variable _ _ _, _ | .expression _ _, _ | .branch _ _ _ _, _
  | .loop _ _ _, _ | .return _ _, _ | .function _ _ _ _, _ | .struct _ _ _, _
  | .parameter _ _, _ | .fieldDeclaration _ _, _ | .root _ _, _ => .fail _

/-- Pure expressions evaluate in step one after the other, by the same induction. -/
theorem evaluateAll_renamed : (nodes : List Node) → Node.allPure nodes = true →
    Eval.Renamed mapping (List.map (Copy.rename mapping)) (evaluateAll annotations calls nodes)
      (evaluateAll annotations calls nodes)
  | [], _ => Eval.Renamed.pure []
  | node :: nodes, quiet =>
      have both := Bool.and_eq_true_iff.mp quiet
      .bind (evaluate_renamed node both.1) fun value =>
        .bind (evaluateAll_renamed nodes both.2) fun values => Eval.Renamed.pure (value :: values)

end

end

end Evaluation

end ArrayForks
