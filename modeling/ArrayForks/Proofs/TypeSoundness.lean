import ArrayForks.Execution
import ArrayForks.Proofs.ForkTypes

/-! # Type soundness of the operators

An expression of literals, parentheses, elements, operators and forks whose nodes carry the numeric
types that the rules give them evaluates to a value of its type, or fails for a reason that is
foreseen. It does so in every machine. Evaluating it makes objects and changes none, so that a value
that conforms to its type still does after what is evaluated later.

* **`Typed annotations forks node type`** is the typing of nodes.
* **`Eval.Ends machine good allowed`** says that a computation ends with a good value, or a
  failure that is allowed, and **`ends_evaluate`** is the induction over the typing. -/

namespace ArrayForks

/-! ### Typed expressions -/

/-- Expressions of the operator language in which every node carries the numeric type that the rules
give it, with forks only if these are allowed. -/
inductive Typed (annotations : Annotations) (forks : Bool) : Node → NumericType → Prop where
  | int {id : NodeId} (value : Int) (known : annotations.types[id]? = some .int) :
      Typed annotations forks (.int id value) ⟨false, false⟩
  | float {id : NodeId} (value : Float) (known : annotations.types[id]? = some .float) :
      Typed annotations forks (.float id value) ⟨false, true⟩
  | array {id : NodeId} {items : List Node} {isFloating : Bool} {floats : Node → Bool}
      (known : annotations.types[id]? = some (NumericType.mk true isFloating).static)
      (typed : ∀ item ∈ items, Typed annotations forks item ⟨false, floats item⟩)
      (wide : ∀ item ∈ items, floats item = true → isFloating = true) :
      Typed annotations forks (.array id items) ⟨true, isFloating⟩
  | paren {id : NodeId} {inner : Node} {type : NumericType}
      (known : annotations.types[id]? = some type.static)
      (typed : Typed annotations forks inner type) :
      Typed annotations forks (.paren id inner) type
  | index {id : NodeId} {stem position : Node} {isFloating : Bool}
      (known : annotations.types[id]? = some (NumericType.mk false isFloating).static)
      (stemTyped : Typed annotations forks stem ⟨true, isFloating⟩)
      (positionTyped : Typed annotations forks position ⟨false, false⟩) :
      Typed annotations forks (.index id stem position) ⟨false, isFloating⟩
  | diadic {id : NodeId} {left right : Node} {op : DiadicOp} {leftType rightType : NumericType}
      (known : annotations.types[id]? = some (NumericType.ofDiadic op leftType rightType).static)
      (leftTyped : Typed annotations forks left leftType)
      (rightTyped : Typed annotations forks right rightType) :
      Typed annotations forks (.diadic id left op right) (.ofDiadic op leftType rightType)
  | monadic {id : NodeId} {op : MonadicOp} {operand : Node} {type : NumericType}
      (known : annotations.types[id]? = some (NumericType.ofMonadic op type).static)
      (typed : Typed annotations forks operand type) :
      Typed annotations forks (.monadic id op operand) (.ofMonadic op type)
  | monadicFork {id : NodeId} {fork : MonadicFork} {operand : Node} {type : NumericType}
      (withForks : forks = true)
      (known : annotations.types[id]? = some (NumericType.ofMonadicFork fork type).static)
      (typed : Typed annotations forks operand type) :
      Typed annotations forks (.monadicFork id fork operand) (.ofMonadicFork fork type)
  | diadicFork {id : NodeId} {left right : Node} {fork : DiadicFork}
      {leftType rightType : NumericType} (withForks : forks = true)
      (known : annotations.types[id]? =
        some (NumericType.ofDiadicFork fork leftType rightType).static)
      (leftTyped : Typed annotations forks left leftType)
      (rightTyped : Typed annotations forks right rightType) :
      Typed annotations forks (.diadicFork id left fork right)
        (.ofDiadicFork fork leftType rightType)

namespace Typed

variable {annotations : Annotations} {forks : Bool} {node : Node} {type : NumericType}

/-- The type of a typed expression is found at its node. -/
theorem typeOf_eq (typed : Typed annotations forks node type) :
    annotations.typeOf node = .ok type.static := by
  have known : annotations.types[node.id]? = some type.static := by
    cases typed <;> assumption
  rw [Annotations.typeOf, known]

end Typed

/-! ### Runs -/

/-- A computation ends, with a good value or for an allowed reason. -/
def Eval.Ends {α : Type} (computation : Eval α) (machine : Machine)
    (good : α → Machine → Prop) (allowed : Failure → Prop) : Prop :=
  match computation.run machine with
  | .done value final => good value final
  | .failed failure _ => allowed failure
  | .unfinished => False

namespace Eval.Ends

variable {α β : Type} {computation : Eval α} {machine : Machine} {good : α → Machine → Prop}
  {allowed : Failure → Prop}

/-- What goes on from a value has to end well from good values only. -/
theorem bind {next : α → Eval β} {better : β → Machine → Prop}
    (first : computation.Ends machine good allowed)
    (rest : ∀ value middle, good value middle → (next value).Ends middle better allowed) :
    (computation >>= next).Ends machine better allowed := by
  unfold Eval.Ends at first ⊢
  rw [run_bind]
  cases ran : computation.run machine with
  | done value middle =>
      rw [ran] at first
      exact rest value middle first
  | failed failure middle =>
      rw [ran] at first
      exact first
  | unfinished =>
      rw [ran] at first
      exact first

/-- What follows a computation without state goes on from the same machine. -/
theorem bind_ofExcept {next : α → Eval β} {better : β → Machine → Prop} {result : Except Failure α}
    {fine : α → Prop} (yields : Yields fine allowed result)
    (rest : ∀ value, fine value → (next value).Ends machine better allowed) :
    (ofExcept result >>= next).Ends machine better allowed := by
  cases yields with
  | ok holds => exact rest _ holds
  | error holds => exact holds

/-- What follows a computation that ends with a value starts where that one ended. -/
theorem bind_of_done {next : α → Eval β} {better : β → Machine → Prop} {value : α}
    {middle : Machine} (ran : computation.run machine = .done value middle)
    (rest : (next value).Ends middle better allowed) :
    (computation >>= next).Ends machine better allowed := by
  unfold Eval.Ends
  rw [run_bind_of_done ran]
  exact rest

/-- What follows a look at the machine goes on from the same machine. -/
theorem bind_look {view : Machine → α} {next : α → Eval β} {better : β → Machine → Prop}
    (rest : (next (view machine)).Ends machine better allowed) :
    (look view >>= next).Ends machine better allowed :=
  rest

/-- An end is as good as what good values imply. -/
theorem imp {better : α → Machine → Prop} (ends : computation.Ends machine good allowed)
    (weaken : ∀ value final, good value final → better value final) :
    computation.Ends machine better allowed := by
  unfold Eval.Ends at ends ⊢
  split at ends
  · exact weaken _ _ ends
  · exact ends
  · exact ends

/-- Failures that are allowed in every place may get theirs. -/
theorem locate_of_stable (ends : computation.Ends machine good allowed) (node : Unit → String)
    (stable : ∀ failure : Failure, allowed failure → allowed (failure.locate node)) :
    (Eval.locate node computation).Ends machine good allowed := by
  unfold Eval.Ends at ends ⊢
  simp only [run, Eval.locate] at ends ⊢
  cases ran : computation machine with
  | done value final =>
      rw [ran] at ends
      exact ends
  | failed failure final =>
      rw [ran] at ends
      exact stable failure ends
  | unfinished =>
      rw [ran] at ends
      exact ends

/-- Failures that are foreseen are so in every place. -/
theorem locate {forks : Bool} (ends : computation.Ends machine good (Failure.Foreseen forks))
    (node : Unit → String) :
    (Eval.locate node computation).Ends machine good (Failure.Foreseen forks) :=
  ends.locate_of_stable node fun _ foreseen => foreseen.locate node

end Eval.Ends

/-- A copy conforms to a type after a computation that changed no object. -/
structure Machine.Gives (before : Machine) (type : NumericType) (copy : Copy) (after : Machine) :
    Prop where
  grown : before.heap.Extends after.heap
  conforms : after.heap.Conforms type copy.value

/-- What conforms after the last of several computations conforms after all of them. -/
theorem Machine.Gives.after {first middle last : Machine} {type : NumericType} {copy : Copy}
    (gives : middle.Gives type copy last) (grown : first.heap.Extends middle.heap) :
    first.Gives type copy last :=
  ⟨grown.trans gives.grown, gives.conforms⟩

namespace Eval

variable {machine : Machine} {type : NumericType} {allowed : Failure → Prop}

/-- A copy of a number that is kept is the same number. -/
theorem ends_keep {copy : Copy} (conforms : machine.heap.Conforms type copy.value) :
    (keep copy).Ends machine (machine.Gives type) allowed := by
  unfold Ends
  rw [run_keep]
  refine ⟨.refl _, ?_⟩
  rw [Copy.value_keep]
  exact conforms

/-- An operand becomes a value that shows the same values. -/
theorem ends_settle_shows {operand : Operand} {content : Nested Copy}
    (shown : Operand.Shows machine.heap type operand content) :
    (settle operand).Ends machine
      (fun copy final => machine.heap.Extends final.heap ∧ ∃ kept,
        Operand.Shows final.heap type (.item copy) kept ∧
          Operand.values kept = Operand.values content) allowed := by
  unfold Ends
  -- Only an array that is no object yet becomes one; what is there already stays as it is.
  cases shown with
  | @number copy scalar isNumber =>
      rw [settle, run_keep]
      have same := Copy.value_keep copy machine.made
      refine ⟨.refl _, _, .number scalar ?_, ?_⟩
      · rw [same]
        exact isNumber
      · exact congrArg Nested.item same
  | @array ref origin items array found areNumbers =>
      have same := Copy.value_keep ⟨.object ref, origin⟩ machine.made
      rw [settle, run_keep]
      revert same
      generalize Copy.keep ⟨.object ref, origin⟩ machine.made = kept
      obtain ⟨value, origin'⟩ := kept
      rintro rfl
      exact ⟨.refl _, _, .array array found areNumbers, rfl⟩
  | @row items array areNumbers =>
      rw [run_settle_ofList, run_make]
      have values := Copy.map_value_keepAll items machine.made
      refine ⟨Heap.extends_alloc _ _, _, .array array (Heap.get?_alloc_self _ _) ?_, ?_⟩
      · -- The copies that are kept have the values of those that the operand shows.
        intro item isIn
        have value := List.mem_map_of_mem (f := Copy.value) isIn
        rw [values] at value
        obtain ⟨copy, inItems, same⟩ := List.mem_map.mp value
        rw [← same]
        exact areNumbers copy inItems
      · rw [Operand.values, Nested.map_ofList, Nested.map_ofList, values]

/-- An operand of a type becomes a value of the type. -/
theorem ends_settle {operand : Operand} (ofType : Operand.OfType machine.heap type operand) :
    (settle operand).Ends machine (machine.Gives type) allowed := by
  obtain ⟨content, shown⟩ := ofType
  refine (ends_settle_shows shown).imp ?_
  rintro copy final ⟨grown, kept, keptShown, -⟩
  exact ⟨grown, keptShown.conforms⟩

/-- An operator that gives an operand of a type makes a value of the type. -/
theorem ends_operate {operator : Heap → Except Failure Operand}
    (yields : Yields (Operand.OfType machine.heap type) allowed (operator machine.heap)) :
    (operate operator).Ends machine (machine.Gives type) allowed := by
  refine Ends.bind_look ?_
  exact Ends.bind_ofExcept yields fun operand ofType => ends_settle ofType

end Eval

namespace NumericType

/-- The numeric types of numbers are those that are not types of arrays. -/
theorem isNumeric_static (type : NumericType) : type.static.isNumeric = !type.isArray := by
  rcases type with ⟨_ | _, _ | _⟩ <;> rfl

/-- The elements of an array literal are widened to the component type. -/
theorem elementType_static {type : NumericType} (array : type.isArray = true) :
    Evaluation.elementType type.static = type.component := by
  rw [static_of_array array]
  rfl

end NumericType

namespace Evaluation

variable {annotations : Annotations} {calls : Calls} {forks : Bool}

/-- A connective that is decided early gives a number of the type of its rule. -/
theorem conforms_decided {heap : Heap} {op : DiadicOp} {leftType rightType : NumericType}
    {left value : Value} (decided : decided? op leftType.static rightType.static left = some value) :
    heap.Conforms (.ofDiadic op leftType rightType) value := by
  have isNumber (b : Bool) : Value.IsNumber (leftType.isFloating || rightType.isFloating)
      (.truth (leftType.isFloating || rightType.isFloating) b) := by
    cases leftType.isFloating || rightType.isFloating with
    | true => rfl
    | false => rfl
  unfold decided? at decided
  rw [NumericType.isNumeric_static, NumericType.isNumeric_static] at decided
  -- Only connectives of single numbers are decided early.
  by_cases scalars : (!leftType.isArray && !rightType.isArray) = true
  · rw [if_pos scalars] at decided
    rw [Bool.and_eq_true, Bool.not_eq_true', Bool.not_eq_true'] at scalars
    have scalar (op : Connective) :
        (NumericType.ofDiadic (.connective op) leftType rightType).isArray = false := by
      simp [NumericType.ofDiadic, scalars]
    cases op with
    | connective op =>
        cases isZero : left.isZero with
        | true =>
            cases op with
            | and =>
                simp only [isZero, if_true, NumericType.floatingWith_static,
                  Option.some.injEq] at decided
                exact .number (scalar .and) (decided ▸ isNumber false)
            | or => simp [isZero] at decided
        | false =>
            cases op with
            | and => simp [isZero] at decided
            | or =>
                simp only [isZero, Bool.false_eq_true, if_false, NumericType.floatingWith_static,
                  Option.some.injEq] at decided
                exact .number (scalar .or) (decided ▸ isNumber true)
    | _ => cases decided
  · rw [if_neg scalars] at decided
    cases decided

/-- A word is checked as an index, and is then a place among the elements. -/
theorem yields_check {index : Value} (isWord : index.IsNumber false) (length : Nat) :
    Yields (fun place => ∃ n, place = .word n ∧ n < length) (Failure.Foreseen forks)
      (Index.check index length) := by
  cases index with
  | int n =>
      cases checked : Index.check (.int n) length with
      | error failure =>
          rw [Index.check] at checked
          split at checked
          · cases checked
            exact .error (.negativeIndex _ none)
          · split at checked
            · cases checked
              exact .error (.indexBeyond _ _ none)
            · cases checked
      | ok place =>
          refine .ok ⟨n.toNat, ?_⟩
          rw [Index.check] at checked
          split at checked
          · cases checked
          · split at checked
            · cases checked
            · cases checked
              exact ⟨rfl, by omega⟩
  | float x => cases isWord
  | _ => cases isWord

/-- An element of an array of numbers is one of them. -/
theorem ends_readElement {machine : Machine} {ref : Ref} {items : List Copy} {place : Nat}
    {isFloating : Bool} {allowed : Failure → Prop}
    (found : machine.heap.get? ref = some (.array items))
    (areNumbers : ∀ item ∈ items, item.value.IsNumber isFloating) (inside : place < items.length) :
    (readElement (.object ref) (.word place)).Ends machine (machine.Gives ⟨false, isFloating⟩)
      allowed := by
  have element : machine.heap.element (.object ref) (.word place) = .ok items[place] := by
    simp [Heap.element, Heap.object?, Heap.items?, found, inside]
  refine Eval.Ends.bind_look ?_
  rw [element]
  exact Eval.ends_keep (.number rfl (areNumbers _ (List.getElem_mem inside)))

variable [NumericLibrary]

/-- Expressions of numbers are evaluated one after the other. -/
theorem ends_evaluateAll {items : List Node} {floats : Node → Bool} {isFloating : Bool}
    (sound : ∀ item ∈ items, ∀ machine, (evaluate annotations calls item).Ends machine
      (machine.Gives ⟨false, floats item⟩) (Failure.Foreseen forks))
    (wide : ∀ item ∈ items, floats item = true → isFloating = true) (machine : Machine) :
    (evaluateAll annotations calls items).Ends machine
      (fun copies final => machine.heap.Extends final.heap ∧
        ∀ copy ∈ copies, copy.value.FitsInto isFloating) (Failure.Foreseen forks) := by
  induction items generalizing machine with
  | nil => exact ⟨.refl _, fun copy isIn => by cases isIn⟩
  | cons item items inductionHypothesis =>
      have rest := inductionHypothesis (fun other inRest => sound other (List.mem_cons_of_mem _ inRest))
        fun other inRest => wide other (List.mem_cons_of_mem _ inRest)
      refine (sound item List.mem_cons_self machine).bind fun copy middle first => ?_
      refine (rest middle).bind fun copies final others => ⟨first.grown.trans others.1, ?_⟩
      intro other isIn
      rcases List.mem_cons.mp isIn with rfl | inCopies
      · have isNumber := first.conforms.isNumber rfl
        exact isNumber.fitsInto (wide item List.mem_cons_self)
      · exact others.2 other inCopies

omit [NumericLibrary] in
/-- A node that carries a type is asked for it. -/
theorem ends_typeOf {β : Type} {node : Node} {type : StaticType}
    {next : StaticType → Eval β} {machine : Machine} {good : β → Machine → Prop}
    {allowed : Failure → Prop} (typed : annotations.typeOf node = .ok type)
    (rest : (next type).Ends machine good allowed) :
    (typeOf annotations node >>= next).Ends machine good allowed := by
  rw [typeOf, typed]
  exact rest

/-- A typed expression evaluates to a value of its type, or fails for a reason that is foreseen. -/
theorem ends_evaluate {node : Node} {type : NumericType}
    (typed : Typed annotations forks node type) (machine : Machine) :
    (evaluate annotations calls node).Ends machine (machine.Gives type)
      (Failure.Foreseen forks) := by
  -- The induction is on the typing, for all machines: what is evaluated later starts elsewhere.
  induction typed generalizing machine with
  | int value known => exact Eval.ends_keep (.number rfl rfl)
  | float value known => exact ⟨.refl _, .number rfl rfl⟩
  | @array id items isFloating floats known typed wide sound =>
      have typeKnown := (Typed.array known typed wide).typeOf_eq
      refine Eval.Ends.locate (ends_typeOf typeKnown ?_) _
      refine (ends_evaluateAll sound wide machine).bind fun copies middle ⟨grown, fit⟩ => ?_
      have ofType : Operand.OfType middle.heap ⟨true, isFloating⟩
          (.ofList (copies.map (widen (elementType (NumericType.mk true isFloating).static)))) := by
        rw [NumericType.elementType_static rfl]
        refine ⟨_, .row rfl fun item isIn => ?_⟩
        obtain ⟨copy, inCopies, rfl⟩ := List.mem_map.mp isIn
        exact isNumber_widen (fit copy inCopies)
      exact (Eval.ends_settle ofType).imp fun copy final gives => gives.after grown
  | paren known typed sound => exact Eval.Ends.locate (sound machine) _
  | @index id stem position isFloating known stemTyped positionTyped stemSound positionSound =>
      refine Eval.Ends.locate ?_ _
      refine (stemSound machine).bind fun array middle stemGives => ?_
      obtain ⟨ref, items, isObject, found, areNumbers⟩ := stemGives.conforms.isArray rfl
      rw [isObject]
      refine Eval.Ends.bind_of_done (run_extent found) ?_
      refine (positionSound middle).bind fun index last given => ?_
      refine Eval.Ends.bind_ofExcept (yields_check (given.conforms.isNumber rfl) items.length) ?_
      rintro _ ⟨place, rfl, inside⟩
      -- The array is still what it was before the index was evaluated.
      have stillFound := given.grown _ _ found
      exact (ends_readElement stillFound areNumbers inside).imp
        fun copy final gives => gives.after (stemGives.grown.trans given.grown)
  | @diadic id left right op leftType rightType known leftTyped rightTyped leftSound rightSound =>
      refine Eval.Ends.locate (ends_typeOf leftTyped.typeOf_eq (ends_typeOf rightTyped.typeOf_eq ?_)) _
      refine (leftSound machine).bind fun leftCopy middle leftGives => ?_
      split
      · next value decided =>
          exact (Eval.ends_keep (conforms_decided decided)).imp
            fun copy final gives => gives.after leftGives.grown
      · refine (rightSound middle).bind fun rightCopy last rightGives => ?_
        -- The left operand still conforms, since the right one has changed no object.
        have leftShown := (leftGives.conforms.mono rightGives.grown).shows
        have computed := Operation.yields_diadic op leftShown rightGives.conforms.shows forks
        exact (Eval.ends_operate computed).imp
          fun copy final gives => gives.after (leftGives.grown.trans rightGives.grown)
  | @monadic id op operand type known typed sound =>
      refine Eval.Ends.locate ((sound machine).bind fun value middle given => ?_) _
      refine ends_typeOf typed.typeOf_eq ?_
      have computed := Operation.yields_monadic op given.conforms.shows forks
      exact (Eval.ends_operate computed).imp fun copy final gives => gives.after given.grown
  | @monadicFork id fork operand type withForks known typed sound =>
      refine Eval.Ends.locate ((sound machine).bind fun value middle given => ?_) _
      refine ends_typeOf typed.typeOf_eq ?_
      have computed := Operation.yields_monadicFork fork given.conforms.shows
      rw [← withForks] at computed
      exact (Eval.ends_operate computed).imp fun copy final gives => gives.after given.grown
  | @diadicFork id left right fork leftType rightType withForks known leftTyped rightTyped leftSound
      rightSound =>
      refine Eval.Ends.locate ((leftSound machine).bind fun leftCopy middle leftGives => ?_) _
      refine (rightSound middle).bind fun rightCopy last rightGives => ?_
      refine ends_typeOf leftTyped.typeOf_eq (ends_typeOf rightTyped.typeOf_eq ?_)
      have leftShown := (leftGives.conforms.mono rightGives.grown).shows
      have computed := Operation.yields_diadicFork fork leftShown rightGives.conforms.shows
      rw [← withForks] at computed
      exact (Eval.ends_operate computed).imp
        fun copy final gives => gives.after (leftGives.grown.trans rightGives.grown)

end Evaluation

/-- **Type soundness.** If `Typed annotations forks node type`, then in every machine

`(Evaluation.evaluate annotations calls node).run machine`

is `.done value final` with `final.heap.Conforms type value.value`, or `.failed failure final` with
`failure.Foreseen forks`: different lengths, a division by zero, the fold of an empty array, an
index outside an array, and only where `forks = true` the violation by an empty intermediate
array. -/
theorem evaluate_typed [NumericLibrary] (annotations : Annotations) (calls : Calls)
    (forks : Bool) (node : Node) (type : NumericType) (typed : Typed annotations forks node type)
    (machine : Machine) :
    (∃ value final,
      (Evaluation.evaluate annotations calls node).run machine = .done value final ∧
        final.heap.Conforms type value.value) ∨
    ∃ failure final,
      (Evaluation.evaluate annotations calls node).run machine = .failed failure final ∧
        failure.Foreseen forks := by
  have ends : (Evaluation.evaluate annotations calls node).Ends machine (machine.Gives type)
      (Failure.Foreseen forks) := Evaluation.ends_evaluate typed machine
  unfold Eval.Ends at ends
  cases ran : (Evaluation.evaluate annotations calls node).run machine with
  | done value final =>
      rw [ran] at ends
      exact .inl ⟨value, final, rfl, ends.conforms⟩
  | failed failure final =>
      rw [ran] at ends
      exact .inr ⟨failure, final, rfl, ends⟩
  | unfinished =>
      rw [ran] at ends
      exact ends.elim

/-- The mean of a word and a double, as a fork of their sum and their number. -/
theorem evaluate_typed_mean :
    letI : NumericLibrary := .standard
    let mean := Node.monadicFork 4 ⟨.fold .sum, .arithmetic .divide, .count⟩
      (.array 3 [.int 1 1, .float 2 2.5])
    let annotations := Annotations.empty |>.annotate 1 .int |>.annotate 2 .float
      |>.annotate 3 (.array .float) |>.annotate 4 .float
    let evaluated := (Evaluation.evaluate annotations (Execution.callsTo annotations 1) mean).run .initial
    Typed annotations true mean ⟨false, true⟩ ∧
      ((∃ value final, evaluated = .done value final ∧
        final.heap.Conforms ⟨false, true⟩ value.value) ∨
      ∃ failure final, evaluated = .failed failure final ∧ failure.Foreseen true) := by
  let : NumericLibrary := .standard
  intro mean annotations evaluated
  have word : Typed annotations true (.int 1 1) ⟨false, false⟩ :=
    .int 1 (by simp [annotations, Annotations.types_annotate])
  have double : Typed annotations true (.float 2 2.5) ⟨false, true⟩ :=
    .float 2.5 (by simp [annotations, Annotations.types_annotate])
  have row : Typed annotations true (.array 3 [.int 1 1, .float 2 2.5]) ⟨true, true⟩ := by
    refine @Typed.array _ _ _ _ _ (fun node => node.id = 2) ?_ ?_ ?_
    · simp [annotations, Annotations.types_annotate, NumericType.static, NumericType.component]
    · simp [word, double, Node.id]
    · simp
  have typed : Typed annotations true mean ⟨false, true⟩ :=
    .monadicFork rfl (by simp [annotations, Annotations.types_annotate]; rfl) row
  exact ⟨typed, evaluate_typed annotations _ true mean _ typed .initial⟩

end ArrayForks
