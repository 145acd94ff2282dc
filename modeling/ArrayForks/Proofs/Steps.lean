import ArrayForks.Execution

/-! # From steps to runs

Evaluation and execution put steps on the machine one after the other. A trait of computations that
every single step has and that sequencing keeps is therefore a trait of every evaluation and of
every execution, through calls of any depth and loops of any length. Frame conditions on one run and
agreements of two runs are such traits. Statements may have less to promise than expressions, since
they declare variables, so there are two traits: `inner` for expressions and `outer` for
statements.

* **`Evaluation.Steps.evaluate`**, **`Execution.Steps.execute`**, **`Execution.Steps.callsTo`**:
  the three inductions, over nodes and over the depth of calls.
* **`Evaluation.QuietSteps.evaluate`** asks nothing of the writing steps, for pure nodes. -/

namespace ArrayForks

/-- A property that a computation may have, whatever it computes. -/
abbrev Eval.Trait := (α : Type) → Eval α → Prop

/-- A trait that sequencing keeps, and that failing and looking at the heap have. -/
structure Eval.Composes (trait : Eval.Trait) : Prop where
  pure {α : Type} (value : α) : trait α (Pure.pure value)
  bind {α β : Type} {computation : Eval α} {next : α → Eval β} (first : trait α computation)
    (rest : ∀ value, trait β (next value)) : trait β (computation >>= next)
  fail {α : Type} (failure : Failure) : trait α (Eval.fail failure)
  look {α : Type} (view : Heap → α) : trait α (Eval.look fun machine => view machine.heap)

/-- The calls that have a trait. -/
def Calls.Have (calls : Calls) (trait : Eval.Trait) : Prop :=
  ∀ parameters body arguments, trait Copy (calls parameters body arguments)

/-- A trait that every step on values has: those that change nothing that is there, and that ask for
no variable. -/
structure Evaluation.ValueSteps (trait : Eval.Trait) : Prop extends Eval.Composes trait where
  locate {α : Type} (node : Unit → String) {computation : Eval α} (located : trait α computation) :
    trait α (Eval.locate node computation)
  make (object : Object) : trait Copy (Eval.make object)
  keep (copy : Copy) : trait Copy (Eval.keep copy)

/-- A trait that every step of an evaluation without calls and assignments has. -/
structure Evaluation.QuietSteps (trait : Eval.Trait) : Prop extends
    Evaluation.ValueSteps trait where
  readName (name : String) : trait Copy (Eval.readName name)

/-- A trait that every step of an evaluation has. -/
structure Evaluation.Steps (trait : Eval.Trait) : Prop extends Evaluation.QuietSteps trait where
  print (copy : Copy) : trait Copy (Eval.print copy)
  writeName (name : String) (value : Copy) : trait Unit (Eval.writeName name value)
  writeElement (target : Value) (index : Index) (value : Copy) :
    trait Unit (Evaluation.writeElement target index value)
  writeField (stem : Value) (name : String) (value : Copy) :
    trait Unit (Evaluation.writeField stem name value)

/-- Traits that every step of an evaluation and of an execution has: what statements promise is
promised as an inner trait by the block or the call around them. -/
structure Execution.Steps (inner outer : Eval.Trait) : Prop where
  evaluation : Evaluation.Steps inner
  composes : Eval.Composes outer
  unfinished {α : Type} : inner α Eval.unfinished
  lift {α : Type} {computation : Eval α} (promised : inner α computation) : outer α computation
  declare (name : String) (value : Copy) : outer Unit (Eval.declare name value)
  block {α : Type} {computation : Eval α} (promised : outer α computation) :
    inner α (Eval.inBlock computation)
  call {α : Type} {computation : Eval α} (promised : outer α computation) :
    inner α (Eval.inCall computation)

/-! ### Computations without state -/

namespace Eval.Composes

variable {trait : Eval.Trait} (composes : Composes trait)

include composes

/-- `trait α (Eval.ofExcept result)`: a result is given or fails. -/
theorem ofExcept {α : Type} (result : Except Failure α) : trait α (Eval.ofExcept result) := by
  cases result with
  | ok value => exact composes.pure value
  | error failure => exact composes.fail failure

/-- `trait α (Eval.raise error)`: raising an error is failing. -/
theorem raise {α : Type} (error : RuntimeError) : trait α (Eval.raise error) :=
  composes.fail _

/-- Asking for the type of a node is a computation without state. -/
theorem typeOf (annotations : Annotations) (node : Node) :
    trait StaticType (Evaluation.typeOf annotations node) :=
  composes.ofExcept _

/-- The length of an array is found by a look at the heap. -/
theorem extent (value : Value) : trait Nat (Evaluation.extent value) := by
  unfold Evaluation.extent
  split
  · exact composes.raise _
  · refine composes.bind (composes.look fun heap => heap.items? value) fun items => ?_
    split
    · exact composes.pure _
    · exact composes.fail _

/-- A loop has a trait that its condition and its body have. -/
theorem repeatWhile {condition : Eval Bool} {body : Eval Control}
    (unfinished : trait Control Eval.unfinished) (tested : trait Bool condition)
    (repeated : trait Control body) (limit : Nat) :
    trait Control (Execution.repeatWhile condition body limit) := by
  -- The induction is on the rounds that are left.
  induction limit with
  | zero => exact unfinished
  | succ limit inductionHypothesis =>
      refine composes.bind tested fun holds => ?_
      cases holds with
      | false => exact composes.pure _
      | true =>
          refine composes.bind repeated fun control => ?_
          cases control with
          | normal => exact inductionHypothesis
          | returned value => exact composes.pure _

end Eval.Composes

/-! ### Two traits at once -/

/-- Two traits of computations as one. -/
abbrev Eval.Trait.and (first second : Eval.Trait) : Eval.Trait :=
  fun α computation => first α computation ∧ second α computation

/-- Sequencing keeps two traits at once. -/
theorem Eval.Composes.and {first second : Eval.Trait} (left : Composes first)
    (right : Composes second) : Composes (first.and second) where
  pure value := ⟨left.pure value, right.pure value⟩
  bind start rest :=
    ⟨left.bind start.1 fun value => (rest value).1, right.bind start.2 fun value => (rest value).2⟩
  fail failure := ⟨left.fail failure, right.fail failure⟩
  look view := ⟨left.look view, right.look view⟩

/-- Steps on values that have two traits have both at once. -/
theorem Evaluation.ValueSteps.and {first second : Eval.Trait} (left : ValueSteps first)
    (right : ValueSteps second) : ValueSteps (first.and second) where
  toComposes := left.toComposes.and right.toComposes
  locate node _ both := ⟨left.locate node both.1, right.locate node both.2⟩
  make object := ⟨left.make object, right.make object⟩
  keep copy := ⟨left.keep copy, right.keep copy⟩

/-- Quiet steps that have two traits have both at once. -/
theorem Evaluation.QuietSteps.and {first second : Eval.Trait} (left : QuietSteps first)
    (right : QuietSteps second) : QuietSteps (first.and second) where
  toValueSteps := left.toValueSteps.and right.toValueSteps
  readName name := ⟨left.readName name, right.readName name⟩

/-- Steps that have two traits have both at once. -/
theorem Evaluation.Steps.and {first second : Eval.Trait} (left : Steps first)
    (right : Steps second) : Steps (first.and second) where
  toQuietSteps := left.toQuietSteps.and right.toQuietSteps
  print copy := ⟨left.print copy, right.print copy⟩
  writeName name value := ⟨left.writeName name value, right.writeName name value⟩
  writeElement target index value :=
    ⟨left.writeElement target index value, right.writeElement target index value⟩
  writeField stem name value :=
    ⟨left.writeField stem name value, right.writeField stem name value⟩

/-! ### Pure trees -/

mutual

/-- Whether a tree contains neither a call nor an assignment. -/
def Node.isPure : Node → Bool
  | .call _ _ _ | .assign _ _ _ => false
  | .constructor _ of => of.isPure
  | .array _ items => allPure items
  | .paren _ inner => inner.isPure
  | .field _ stem _ => stem.isPure
  | .index _ stem position => stem.isPure && position.isPure
  | .diadic _ left _ right => left.isPure && right.isPure
  | .monadic _ _ operand => operand.isPure
  | .monadicFork _ _ operand => operand.isPure
  | .diadicFork _ left _ right => left.isPure && right.isPure
  | .block _ body => allPure body
  | .variable _ _ initial => initial.isPure
  | .expression _ inner => inner.isPure
  | .branch _ condition accepted none => condition.isPure && accepted.isPure
  | .branch _ condition accepted (some rejected) =>
      condition.isPure && accepted.isPure && rejected.isPure
  | .loop _ condition body => condition.isPure && body.isPure
  | .return _ none => true
  | .return _ (some result) => result.isPure
  | .function _ _ _ body => allPure body
  | .root _ body => allPure body
  | .int _ _ | .float _ _ | .string _ _ | .null _ | .reference _ _ | .struct _ _ _
  | .parameter _ _ | .fieldDeclaration _ _ => true

/-- Whether trees contain neither a call nor an assignment. -/
def Node.allPure : List Node → Bool
  | [] => true
  | node :: nodes => node.isPure && allPure nodes

end

/-! ### Expressions -/

namespace Evaluation.ValueSteps

variable {trait : Eval.Trait} (steps : Evaluation.ValueSteps trait)

include steps

mutual

/-- Making a value of an operand is made of steps that make and keep, by induction on its layout. -/
theorem settle : (operand : Operand) → trait Copy (Eval.settle operand)
  | .item copy => steps.keep copy
  | .row parts => steps.bind (settleAll parts) fun _ => steps.make _

/-- Making values of several operands is made of such steps, by the same induction. -/
theorem settleAll : (parts : List Operand) → trait (List Copy) (Eval.settleAll parts)
  | [] => steps.pure _
  | part :: parts =>
      steps.bind (settle part) fun _ => steps.bind (settleAll parts) fun _ => steps.pure _

end

/-- Applying an operator is a look at the heap, a result, and making a value of it. -/
theorem operate (operator : Heap → Except Failure Operand) :
    trait Copy (Eval.operate operator) :=
  steps.bind (steps.look fun heap => heap) fun _ =>
    steps.bind (steps.ofExcept _) fun _ => steps.settle _

/-- Reading an element is a look at the heap and keeping the copy. -/
theorem readElement (value : Value) (index : Index) :
    trait Copy (Evaluation.readElement value index) :=
  steps.bind (steps.look fun heap => heap) fun _ =>
    steps.bind (steps.ofExcept _) fun _ => steps.keep _

/-- Reading a field is a look at the heap, and perhaps keeping the number of elements. -/
theorem readField (stem : Value) (name : String) :
    trait Copy (Evaluation.readField stem name) := by
  unfold Evaluation.readField
  split
  · exact steps.raise _
  · refine steps.bind (steps.look fun heap => heap) fun heap => ?_
    split
    · split
      · exact steps.pure _
      · exact steps.fail _
    · split
      · exact steps.keep _
      · exact steps.fail _

/-- Making an object of a declared type is one step, or it fails. -/
theorem construct (annotations : Annotations) (of : Value) (arguments : List Copy) :
    trait Copy (Evaluation.construct annotations of arguments) := by
  unfold Evaluation.construct
  split
  · split
    · split
      · exact steps.make _
      · exact steps.fail _
    · exact steps.fail _
  · exact steps.fail _

/-- Calling what is no function looks at the heap for its text, and fails. -/
theorem notCallable (callee : Value) : trait Copy (Evaluation.notCallable callee) :=
  steps.bind (steps.look fun heap => (heap.unfold callee).text) fun _ => steps.fail _

end Evaluation.ValueSteps

/-- Resolving a reference gives a declaration, or reads a name. -/
theorem Evaluation.QuietSteps.resolve {trait : Eval.Trait} (steps : Evaluation.QuietSteps trait)
    (annotations : Annotations) (reference : NodeId) (name : String) :
    trait Copy (Evaluation.resolve annotations reference name) := by
  unfold Evaluation.resolve
  split
  · exact steps.pure _
  · exact steps.readName name

/-- Calls have a trait that the steps of an evaluation and the calls of bodies have. -/
theorem Evaluation.Steps.apply {trait : Eval.Trait} (steps : Evaluation.Steps trait)
    (annotations : Annotations) {calls : Calls} (called : calls.Have trait) (callee : Value)
    (arguments : List Copy) :
    trait Copy (Evaluation.apply annotations calls callee arguments) := by
  refine steps.bind (steps.look fun heap => heap.object? callee) fun object => ?_
  split
  · exact steps.raise _
  · split
    · exact steps.print _
    · exact steps.fail _
  · split
    · exact called ..
    · exact steps.notCallable _
  · exact steps.construct annotations _ arguments
  · exact steps.notCallable _

variable [NumericLibrary]

namespace Evaluation.QuietSteps

variable {trait : Eval.Trait} (steps : Evaluation.QuietSteps trait) (annotations : Annotations)
  {calls : Calls}

include steps

mutual

/-- Every evaluation has a trait that its steps have, where the trait is asked of writing and of
calls only if the tree is not pure. -/
theorem evaluate :
    (node : Node) → (effects : node.isPure = true ∨ Evaluation.Steps trait ∧ calls.Have trait) →
      trait Copy (Evaluation.evaluate annotations calls node)
  | .int _ _, _ => steps.keep _
  | .float _ _, _ => steps.pure _
  | .string _ _, _ => steps.pure _
  | .null _, _ => steps.pure _
  | .reference id name, _ => steps.resolve annotations id name
  | .constructor _ of, effects =>
      steps.locate _ (steps.bind (evaluate of effects) fun _ => steps.make _)
  | .array _ items, effects =>
      steps.locate _ (steps.bind (steps.typeOf annotations _) fun _ =>
        steps.bind (evaluateAll items effects) fun _ => steps.settle _)
  | .paren _ inner, effects => steps.locate _ (evaluate inner effects)
  | .field _ stem name, effects =>
      steps.locate _ (steps.bind (evaluate stem effects) fun _ => steps.readField _ name)
  | .index _ stem position, effects =>
      have ofStem := effects.imp_left fun pure => (Bool.and_eq_true_iff.mp pure).1
      have ofPosition := effects.imp_left fun pure => (Bool.and_eq_true_iff.mp pure).2
      steps.locate _ (steps.bind (evaluate stem ofStem) fun _ =>
        steps.bind (steps.extent _) fun _ =>
        steps.bind (evaluate position ofPosition) fun _ =>
        steps.bind (steps.ofExcept _) fun _ => steps.readElement _ _)
  | .diadic _ left op right, effects =>
      have ofLeft := effects.imp_left fun pure => (Bool.and_eq_true_iff.mp pure).1
      have ofRight := effects.imp_left fun pure => (Bool.and_eq_true_iff.mp pure).2
      steps.locate _ (steps.bind (steps.typeOf annotations left) fun leftType =>
        steps.bind (steps.typeOf annotations right) fun rightType =>
        steps.bind (evaluate left ofLeft) fun leftValue => by
          -- A connective that its left operand decides does not evaluate the right one.
          split
          · exact steps.keep _
          · exact steps.bind (evaluate right ofRight) fun _ => steps.operate _)
  | .monadic _ _ operand, effects =>
      steps.locate _ (steps.bind (evaluate operand effects) fun _ =>
        steps.bind (steps.typeOf annotations operand) fun _ => steps.operate _)
  | .monadicFork _ _ operand, effects =>
      steps.locate _ (steps.bind (evaluate operand effects) fun _ =>
        steps.bind (steps.typeOf annotations operand) fun _ => steps.operate _)
  | .diadicFork _ left _ right, effects =>
      have ofLeft := effects.imp_left fun pure => (Bool.and_eq_true_iff.mp pure).1
      have ofRight := effects.imp_left fun pure => (Bool.and_eq_true_iff.mp pure).2
      steps.locate _ (steps.bind (evaluate left ofLeft) fun _ =>
        steps.bind (evaluate right ofRight) fun _ =>
        steps.bind (steps.typeOf annotations left) fun _ =>
        steps.bind (steps.typeOf annotations right) fun _ => steps.operate _)
  | .call _ callee arguments, effects =>
      have ⟨all, called⟩ := effects.resolve_left Bool.false_ne_true
      steps.locate _ (steps.bind (evaluate callee (.inr ⟨all, called⟩)) fun _ =>
        steps.bind (evaluateAll arguments (.inr ⟨all, called⟩)) fun _ =>
        all.apply annotations called _ _)
  | .assign _ target source, effects => by
      obtain ⟨all, called⟩ := effects.resolve_left Bool.false_ne_true
      unfold Evaluation.evaluate
      refine steps.locate _ (steps.bind (steps.typeOf annotations _) fun type => ?_)
      -- The kind of the target decides what is evaluated before the value, and what is written.
      cases target with
      | reference _ name =>
          exact steps.bind (evaluate source (.inr ⟨all, called⟩)) fun _ =>
            steps.bind (steps.keep _) fun _ =>
            steps.bind (all.writeName name _) fun _ => steps.pure _
      | index _ stem position =>
          exact steps.bind (evaluate stem (.inr ⟨all, called⟩)) fun _ =>
            steps.bind (steps.extent _) fun _ =>
            steps.bind (evaluate position (.inr ⟨all, called⟩)) fun _ =>
            steps.bind (steps.ofExcept _) fun _ =>
            steps.bind (evaluate source (.inr ⟨all, called⟩)) fun _ =>
            steps.bind (steps.keep _) fun _ =>
            steps.bind (all.writeElement _ _ _) fun _ => steps.pure _
      | field _ stem name =>
          refine steps.bind (evaluate stem (.inr ⟨all, called⟩)) fun object => ?_
          split
          · exact steps.raise _
          · exact steps.bind (evaluate source (.inr ⟨all, called⟩)) fun _ =>
              steps.bind (steps.keep _) fun _ =>
              steps.bind (all.writeField _ name _) fun _ => steps.pure _
      | _ => exact steps.fail _
  | .block _ _, _ | .variable _ _ _, _ | .expression _ _, _ | .branch _ _ _ _, _
  | .loop _ _ _, _ | .return _ _, _ | .function _ _ _ _, _ | .struct _ _ _, _
  | .parameter _ _, _ | .fieldDeclaration _ _, _ | .root _ _, _ => steps.fail _

/-- Several evaluations have the trait if each of them has it. -/
theorem evaluateAll :
    (nodes : List Node) →
      (effects : Node.allPure nodes = true ∨ Evaluation.Steps trait ∧ calls.Have trait) →
      trait (List Copy) (Evaluation.evaluateAll annotations calls nodes)
  | [], _ => steps.pure _
  | node :: nodes, effects =>
      have ofNode := effects.imp_left fun pure => (Bool.and_eq_true_iff.mp pure).1
      have ofNodes := effects.imp_left fun pure => (Bool.and_eq_true_iff.mp pure).2
      steps.bind (evaluate node ofNode) fun _ =>
        steps.bind (evaluateAll nodes ofNodes) fun _ => steps.pure _

end

end Evaluation.QuietSteps

/-- Every evaluation has a trait that its steps and the calls in it have. -/
theorem Evaluation.Steps.evaluate {trait : Eval.Trait} (steps : Evaluation.Steps trait)
    (annotations : Annotations) {calls : Calls} (called : calls.Have trait) (node : Node) :
    trait Copy (Evaluation.evaluate annotations calls node) :=
  steps.toQuietSteps.evaluate annotations node (.inr ⟨steps, called⟩)

/-! ### Statements -/

namespace Execution.Steps

variable {inner outer : Eval.Trait} (steps : Execution.Steps inner outer)

include steps

/-- A condition has the inner trait, being an evaluation and a test of its value. -/
theorem condition (annotations : Annotations) {calls : Calls} (called : calls.Have inner)
    (node : Node) : inner Bool (Execution.condition annotations calls node) :=
  steps.evaluation.bind (steps.evaluation.evaluate annotations called node) fun _ =>
    steps.evaluation.bind (steps.evaluation.typeOf annotations node) fun _ =>
    steps.evaluation.bind (steps.evaluation.look fun heap => heap) fun _ =>
    steps.evaluation.ofExcept _

omit [NumericLibrary] in
/-- A loop has a trait that its condition and its body have. -/
theorem repeatWhile {condition : Eval Bool} {body : Eval Control}
    (tested : inner Bool condition) (repeated : outer Control body) (limit : Nat) :
    outer Control (Execution.repeatWhile condition body limit) :=
  steps.composes.repeatWhile (steps.lift steps.unfinished) (steps.lift tested) repeated limit

omit [NumericLibrary] in
/-- Declaring several names has the outer trait, by induction on the names. -/
theorem declareAll : (entries : List (String × Copy)) → outer Unit (Eval.declareAll entries)
  | [] => steps.composes.pure _
  | (name, value) :: entries =>
      steps.composes.bind (steps.declare name value) fun _ => declareAll entries

section

variable (annotations : Annotations) {calls : Calls}

mutual

/-- Every execution has the outer trait if the calls in it have the inner one. -/
theorem execute (called : calls.Have inner) (limit : Nat) :
    (node : Node) → outer Control (Execution.execute annotations calls limit node)
  | .block _ body => steps.lift (steps.block (executeAll called limit body))
  | .variable _ name initial =>
      steps.composes.bind (steps.lift (steps.evaluation.evaluate annotations called initial))
        fun _ => steps.composes.bind (steps.composes.typeOf annotations _) fun _ =>
        steps.composes.bind (steps.lift (steps.evaluation.keep _)) fun _ =>
        steps.composes.bind (steps.declare name _) fun _ => steps.composes.pure _
  | .expression _ inner =>
      steps.composes.bind (steps.lift (steps.evaluation.evaluate annotations called inner))
        fun _ => steps.composes.pure _
  | .branch _ test accepted rejected => by
      unfold Execution.execute
      refine steps.composes.bind (steps.lift (steps.condition annotations called test))
        fun holds => ?_
      cases holds with
      | true => exact execute called limit accepted
      | false =>
          cases rejected with
          | some rejected => exact execute called limit rejected
          | none => exact steps.composes.pure _
  | .loop _ test body =>
      steps.repeatWhile (steps.condition annotations called test) (execute called limit body) limit
  | .return _ none => steps.composes.pure _
  | .return _ (some result) =>
      steps.composes.bind (steps.lift (steps.evaluation.evaluate annotations called result))
        fun _ => steps.composes.pure _
  | .function _ name _ _ => steps.composes.bind (steps.declare name _) fun _ => steps.composes.pure _
  | .struct _ name _ => steps.composes.bind (steps.declare name _) fun _ => steps.composes.pure _
  | .int _ _ | .float _ _ | .string _ _ | .null _ | .reference _ _ | .constructor _ _ | .array _ _
  | .paren _ _ | .field _ _ _ | .index _ _ _ | .call _ _ _ | .diadic _ _ _ _ | .monadic _ _ _
  | .monadicFork _ _ _ | .diadicFork _ _ _ _ | .assign _ _ _ | .parameter _ _
  | .fieldDeclaration _ _ | .root _ _ => steps.composes.fail _

/-- Several executions have the outer trait, by the same induction. -/
theorem executeAll (called : calls.Have inner) (limit : Nat) :
    (nodes : List Node) → outer Control (Execution.executeAll annotations calls limit nodes)
  | [] => steps.composes.pure _
  | node :: nodes => by
      refine steps.composes.bind (execute called limit node) fun control => ?_
      cases control with
      | normal => exact executeAll called limit nodes
      | returned value => exact steps.composes.pure _

end

/-- The body of a call has the outer trait if the calls in it have the inner one. -/
theorem callBody (called : calls.Have inner) (limit : Nat) (parameters : List String)
    (body : List Node) (arguments : List Copy) :
    outer Copy (Execution.callBody annotations calls limit parameters body arguments) := by
  refine steps.composes.bind (steps.declareAll _) fun _ => ?_
  split
  · have promised := steps.executeAll annotations called limit body
    exact steps.composes.bind (steps.lift (steps.block promised)) fun _ => steps.composes.pure _
  · exact steps.composes.fail _

/-- Every call has the inner trait, within any limit: the calls in its body are one level down. -/
theorem callsTo (limit : Nat) : (Execution.callsTo annotations limit).Have inner := by
  -- The induction is on the depth: the calls in a body may go one level less deep.
  induction limit with
  | zero => exact fun _ _ _ => steps.unfinished
  | succ limit inductionHypothesis =>
      intro parameters body arguments
      exact steps.call
        (steps.callBody annotations inductionHypothesis limit parameters body arguments)

/-- Every program has the outer trait. -/
theorem program (limit : Nat) (root : Node) :
    outer Copy (Execution.program annotations limit root) := by
  unfold Execution.program
  split
  · next body _ =>
      have called := steps.callsTo annotations limit
      exact steps.composes.bind (steps.executeAll annotations called limit body) fun _ =>
        steps.composes.pure _
  · exact steps.composes.fail _

end

end Execution.Steps

end ArrayForks
