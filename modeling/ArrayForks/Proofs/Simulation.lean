import ArrayForks.Proofs.Versions

/-! # Running two versions of a program

The runs of two versions of a program go in step. What the one version comes to, the other one comes
to as well, in a machine that differs at most in the bindings of hidden names: the names of the
declarations that stand in different places. This takes that the first run does not ask for these
bindings. A reference to a hidden name has to be bound to a declaration, and no hidden name may be
assigned. The functions and types that are called have to be among the declarations that both
versions share.

* **`Eval.InStep hidden machine first second`**: from machines that are the `SameBut` for what is
  hidden both computations `Agree`.
* **`goesInStep`** is the induction over pieces and their versions. -/

namespace ArrayForks

open FrameTree (sameBut)
open Evaluation (evaluate evaluateAll)
open Execution (condition execute executeAll repeatWhile callsTo)

/-! ### Computations in step -/

/-- From a machine, and from any machine that differs from it in hidden names only, two computations
end alike. -/
def Eval.InStep {α : Type} (hidden : String → Bool) (machine : Machine) (first second : Eval α) :
    Prop :=
  ∀ other, machine.SameBut hidden other →
    (first.run machine).Agree (Machine.SameBut hidden) (second.run other)

namespace Eval.InStep

variable {α β : Type} {hidden : String → Bool} {machine : Machine}

/-- A computation that agrees with itself on what is not hidden goes in step with itself. -/
theorem of_agrees {computation : Eval α}
    (agrees : Eval.Agrees (sameBut hidden) α computation) :
    InStep hidden machine computation computation :=
  fun other same => agrees machine other same

/-- A value is the same in both. -/
theorem pure (value : α) :
    InStep hidden machine (Pure.pure value : Eval α) (Pure.pure value) :=
  of_agrees (Eval.composes_agrees.pure value)

/-- A failure is the same in both. -/
theorem fail (failure : Failure) :
    InStep hidden machine (Eval.fail failure : Eval α) (Eval.fail failure) :=
  of_agrees (Eval.composes_agrees.fail failure)

/-- What does not end is the same in both. -/
theorem unfinished : InStep hidden machine (Eval.unfinished : Eval α) Eval.unfinished :=
  fun _ _ => .unfinished

/-- What follows goes in step from where the first computation ended. -/
theorem bind {first second : Eval α} {next other : α → Eval β}
    (start : InStep hidden machine first second)
    (rest : ∀ value middle, first.run machine = .done value middle →
      InStep hidden middle (next value) (other value)) :
    InStep hidden machine (first >>= next) (second >>= other) :=
  fun otherMachine same => (start otherMachine same).bind
    fun value middle _ ran middles => rest value middle ran _ middles

/-- What goes on from a result has to go in step only if there is a value. -/
theorem bind_ofExcept {result : Except Failure α} {next other : α → Eval β}
    (rest : ∀ value, result = .ok value → InStep hidden machine (next value) (other value)) :
    InStep hidden machine (Eval.ofExcept result >>= next) (Eval.ofExcept result >>= other) := by
  refine bind (of_agrees (Eval.composes_agrees.ofExcept result)) fun value middle ran => ?_
  obtain ⟨isResult, rfl⟩ := Eval.run_ofExcept_eq_done.mp ran
  exact rest value isResult

/-- Both computations see the same heap. -/
theorem bind_look (view : Heap → α) {next other : α → Eval β}
    (rest : InStep hidden machine (next (view machine.heap)) (other (view machine.heap))) :
    InStep hidden machine (Eval.look (fun machine => view machine.heap) >>= next)
      (Eval.look (fun machine => view machine.heap) >>= other) := by
  refine bind (of_agrees (Eval.composes_agrees.look view)) fun value middle ran => ?_
  cases ran
  exact rest

/-- The place of a failure is the same in both. -/
theorem locate (node : Unit → String) {first second : Eval α}
    (located : InStep hidden machine first second) :
    InStep hidden machine (Eval.locate node first) (Eval.locate node second) :=
  fun other same => (located other same).locate node

/-- The length of a value is read off the heap, which is not hidden. -/
theorem extent (value : Value) :
    InStep hidden machine (Evaluation.extent value) (Evaluation.extent value) :=
  of_agrees (Eval.composes_agrees.extent value)

/-- The result of statements is the value they return, or `null`, in both. -/
theorem result {first second : Eval Control} (inStep : InStep hidden machine first second) :
    InStep hidden machine
      (do
        let control ← first
        Pure.pure control.result)
      (do
        let control ← second
        Pure.pure control.result) :=
  .bind inStep fun _ _ _ => .pure _

/-- A name is bound on both sides. -/
theorem declare (name : String) (value : Copy) :
    InStep hidden machine (Eval.declare name value) (Eval.declare name value) := by
  intro other same
  have here : machine.here = other.here := same.here
  have trees : FrameTree.SameBut hidden (machine.frames.insert machine.here name value)
      (other.frames.insert other.here name value) := by
    rw [← here]
    exact same.trees.insert machine.here name value
  exact .done () { same with trees }

/-- Names are bound in the current frame of both, hidden ones among them. -/
theorem declareAll (entries : List (String × Copy)) {machine : Machine} :
    InStep hidden machine (Eval.declareAll entries) (Eval.declareAll entries) := by
  induction entries generalizing machine with
  | nil => exact .pure ()
  | cons entry entries inductionHypothesis =>
      exact .bind (.declare entry.1 entry.2) fun _ _ _ => inductionHypothesis

/-- A name that is not hidden has one value on both sides. -/
theorem readName {name : String} (isShown : hidden name = false) :
    InStep hidden machine (Eval.readName name) (Eval.readName name) := by
  intro other same
  have here : machine.here = other.here := same.here
  have value := same.trees.lookup_eq isShown machine.here
  unfold Eval.readName
  rw [Eval.run_bind, Eval.run_bind, Eval.run_look, Eval.run_look, value, here]
  exact Eval.composes_agrees.ofExcept _ machine other same

/-- A name that is not hidden is written in one frame on both sides. -/
theorem writeName {name : String} (isShown : hidden name = false) (value : Copy) :
    InStep hidden machine (Eval.writeName name value) (Eval.writeName name value) := by
  intro other same
  have here : machine.here = other.here := same.here
  have owner : machine.frames.owner? machine.here name = other.frames.owner? other.here name := by
    rw [same.trees.owner?_eq isShown, here]
  simp only [Eval.run, Eval.writeName, owner]
  split
  · next frame _ => exact .done () { same with trees := same.trees.insert frame name value }
  · exact .failed _ same

/-- Blocks go in step if their statements do in a new frame within the current one. -/
theorem inBlock {first second : Eval α}
    (inStep : InStep hidden (machine.enter FrameTree.child) first second) :
    InStep hidden machine (Eval.inBlock first) (Eval.inBlock second) := by
  intro other same
  have opened := (FrameTree.sameBut_opens hidden).child same.trees same.here
  have ends := inStep (other.enter FrameTree.child)
    ⟨opened.2, opened.1, same.heap_eq, same.made_eq, same.output_eq⟩
  exact Eval.agree_within ends (fun _ _ trees => trees) same.here

/-- Calls go in step if their statements do in a new frame at the root. -/
theorem inCall {first second : Eval α}
    (inStep : InStep hidden (machine.enter FrameTree.callFrame) first second) :
    InStep hidden machine (Eval.inCall first) (Eval.inCall second) := by
  intro other same
  have opened := (FrameTree.sameBut_opens hidden).callFrame same.trees same.here
  have ends := inStep (other.enter FrameTree.callFrame)
    ⟨opened.2, opened.1, same.heap_eq, same.made_eq, same.output_eq⟩
  exact Eval.agree_within ends (fun _ _ trees => trees) same.here

end Eval.InStep

namespace Versions

variable {versions : Versions} {hidden : String → Bool} {piece part : Piece}
  {machine start : Machine}

/-! ### What a run may ask for -/

variable [NumericLibrary]

/-- Run in the first version, a piece does not ask for the bindings of hidden names, and calls only
what both versions share. -/
structure Allows (versions : Versions) (hidden : String → Bool) (piece : Piece)
    (machine : Machine) : Prop where
  reads {depth : Nat} {id : NodeId} {name : String} {start : Machine}
    (reaches : piece.Reaches versions.before machine (.expression depth (.reference id name)) start)
    (isHidden : hidden name = true) :
    ((versions.before.bindingOf? id).bind versions.before.valueOf?).isSome = true
  writes {depth : Nat} {id reference : NodeId} {name : String} {source : Node} {start : Machine}
    (reaches : piece.Reaches versions.before machine
      (.expression depth (.assign id (.reference reference name) source)) start) :
    hidden name = false
  calls {depth : Nat} {id : NodeId} {callee : Node} {arguments : List Node}
    {function : Copy} {values : List Copy} {start middle last : Machine}
    (reaches : piece.Reaches versions.before machine
      (.expression depth (.call id callee arguments)) start)
    (ranCallee : (evaluate versions.before (callsTo versions.before depth) callee).run start =
      .done function middle)
    (ranArguments : (evaluateAll versions.before (callsTo versions.before depth) arguments).run
      middle = .done values last) :
    versions.Shares function.value ∧
      ∀ of, last.heap.object? function.value = some (.constructor of) → versions.Shares of

/-- What a piece runs does not ask for more than the piece. -/
theorem Allows.of_runs (allows : versions.Allows hidden piece machine)
    (runs : piece.Runs versions.before machine part start) : versions.Allows hidden part start where
  reads reaches isHidden := allows.reads (.head runs reaches) isHidden
  writes reaches := allows.writes (.head runs reaches)
  calls reaches ranCallee ranArguments := allows.calls (.head runs reaches) ranCallee ranArguments

/-! ### Pieces in step -/

/-- From a machine, a piece of the first version goes in step with every version of it. -/
def GoesInStep (versions : Versions) (hidden : String → Bool) : Piece → Machine → Prop
  | .expression depth node, machine =>
      versions.Expression node →
        Eval.InStep hidden machine (evaluate versions.before (callsTo versions.before depth) node)
          (evaluate versions.after (callsTo versions.after depth) node)
  | .row depth nodes, machine =>
      (∀ node ∈ nodes, versions.Expression node) →
        Eval.InStep hidden machine
          (evaluateAll versions.before (callsTo versions.before depth) nodes)
          (evaluateAll versions.after (callsTo versions.after depth) nodes)
  | .statement depth limit node, machine =>
      ∀ other, versions.Statement node other →
        Eval.InStep hidden machine
          (execute versions.before (callsTo versions.before depth) limit node)
          (execute versions.after (callsTo versions.after depth) limit other)
  | .sequence depth limit nodes, machine =>
      ∀ others, versions.Statements nodes others →
        Eval.InStep hidden machine
          (executeAll versions.before (callsTo versions.before depth) limit nodes)
          (executeAll versions.after (callsTo versions.after depth) limit others)
  | .rounds depth limit test body left, machine =>
      ∀ other, versions.Expression test → versions.Statement body other →
        Eval.InStep hidden machine
          (repeatWhile (condition versions.before (callsTo versions.before depth) test)
            (execute versions.before (callsTo versions.before depth) limit body) left)
          (repeatWhile (condition versions.after (callsTo versions.after depth) test)
            (execute versions.after (callsTo versions.after depth) limit other) left)
  | .program limit root, machine =>
      ∀ other, versions.Statement root other →
        Eval.InStep hidden machine (Execution.program versions.before limit root)
          (Execution.program versions.after limit other)

section

variable {depth limit : Nat}

omit [NumericLibrary] in
/-- The type of a node is found on both sides or on neither. -/
theorem Knows.bind_typeOf {β : Type} {node : Node} {next other : StaticType → Eval β}
    (known : versions.Knows node.id)
    (rest : ∀ type, versions.before.typeOf node = .ok type →
      Eval.InStep hidden machine (next type) (other type)) :
    Eval.InStep hidden machine (Evaluation.typeOf versions.before node >>= next)
      (Evaluation.typeOf versions.after node >>= other) := by
  rw [Evaluation.typeOf, Evaluation.typeOf, known.typeOf_eq]
  exact .bind_ofExcept rest

/-- A condition goes in step if its expression does. -/
theorem condition_inStep {test : Node} (known : versions.Expression test)
    (inStep : versions.GoesInStep hidden (.expression depth test) machine) :
    Eval.InStep hidden machine (condition versions.before (callsTo versions.before depth) test)
      (condition versions.after (callsTo versions.after depth) test) :=
  .bind (inStep known) fun _ _ _ => known.here.bind_typeOf fun _ _ =>
    .bind_look (fun heap => heap) (.of_agrees (Eval.composes_agrees.ofExcept _))

omit [NumericLibrary] in
/-- A reference goes in step unless it asks for the binding of a hidden name. -/
theorem resolve_inStep (alike : versions.DeclaredAlike) {id : NodeId} {name : String}
    (known : versions.Knows id)
    (reads : hidden name = true →
      ((versions.before.bindingOf? id).bind versions.before.valueOf?).isSome = true) :
    Eval.InStep hidden machine (Evaluation.resolve versions.before id name)
      (Evaluation.resolve versions.after id name) := by
  unfold Evaluation.resolve
  rw [alike.bound_eq known]
  split
  · exact .pure _
  · next unbound =>
      rw [unbound] at reads
      have isShown : hidden name = false := by
        rw [← Bool.not_eq_true]
        exact fun isHidden => Bool.false_ne_true (reads isHidden)
      exact .readName isShown

/-- A call goes in step if the body of the function does. -/
theorem apply_inStep (alike : versions.DeclaredAlike) {id : NodeId} {callee : Node}
    {arguments : List Node} {middle last : Machine} {function : Copy} {values : List Copy}
    (allows : versions.Allows hidden (.expression depth (.call id callee arguments)) machine)
    (parts : ∀ part start, Piece.Runs versions.before
      (.expression depth (.call id callee arguments)) machine part start →
      versions.GoesInStep hidden part start)
    (ranCallee : (evaluate versions.before (callsTo versions.before depth) callee).run machine =
      .done function middle)
    (ranArguments : (evaluateAll versions.before (callsTo versions.before depth) arguments).run
      middle = .done values last) :
    Eval.InStep hidden last
      (Evaluation.apply versions.before (callsTo versions.before depth) function.value values)
      (Evaluation.apply versions.after (callsTo versions.after depth) function.value values) := by
  have steps := Eval.valueSteps_agrees (sameBut hidden)
  obtain ⟨shares, ofShares⟩ := allows.calls .refl ranCallee ranArguments
  refine .bind_look (fun heap => heap.object? function.value) ?_
  -- Only a declared function comes to run statements, and only those may differ between the versions.
  generalize isFunction : function.value = value at shares ofShares
  cases value with
  | null => exact .fail _
  | builtin name identity =>
      cases values with
      | nil => exact .fail _
      | cons first others =>
          cases others with
          | nil => exact .of_agrees (Eval.agrees_print first)
          | cons _ _ => exact .fail _
  | function name declaration =>
      have declared := alike declaration (shares declaration rfl)
      dsimp only
      generalize found : versions.before.declaration? declaration = first at declared ⊢
      generalize versions.after.declaration? declaration = second at declared ⊢
      cases declared with
      | none => exact .of_agrees (steps.notCallable _)
      | some declared =>
          cases declared with
          | struct => exact .of_agrees (steps.notCallable _)
          | @function declaredName parameters body other bodies =>
              cases depth with
              | zero => exact .unfinished
              | succ depth =>
                  refine .inCall (.bind (.declareAll _) fun _ bound ranParameters => ?_)
                  split
                  · next fit =>
                    refine .result (.inBlock ?_)
                    exact parts _ _ (.called ranCallee ranArguments isFunction found ranParameters
                      fit) other bodies
                  · exact .fail _
  | _ =>
      generalize last.heap.object? _ = object at ofShares ⊢
      cases object with
      | none => exact .of_agrees (steps.notCallable _)
      | some object =>
          cases object with
          | constructor of =>
              dsimp only
              rw [alike.construct_eq (ofShares of rfl)]
              exact .of_agrees (steps.construct versions.before of values)
          | _ => exact .of_agrees (steps.notCallable _)

/-- The value of an assignment is kept, and then it is written on both sides. -/
theorem written_inStep {source : Node} {type : StaticType} {write : Copy → Eval Unit}
    (ofSource : Eval.InStep hidden machine
      (evaluate versions.before (callsTo versions.before depth) source)
      (evaluate versions.after (callsTo versions.after depth) source))
    (writes : ∀ {value last}, Eval.InStep hidden last (write value) (write value)) :
    Eval.InStep hidden machine
      (do
        let value ← evaluate versions.before (callsTo versions.before depth) source
        let value ← Eval.keep (Evaluation.widen type value)
        write value
        pure value)
      (do
        let value ← evaluate versions.after (callsTo versions.after depth) source
        let value ← Eval.keep (Evaluation.widen type value)
        write value
        pure value) :=
  .bind ofSource fun _ _ _ => .bind (.of_agrees (Eval.agrees_keep _)) fun _ _ _ =>
    .bind writes fun _ _ _ => .pure _

/-- An assignment goes in step unless its target is a hidden name. -/
theorem assignment_inStep {id : NodeId} {target source : Node}
    (known : versions.Expression (.assign id target source))
    (allows : versions.Allows hidden (.expression depth (.assign id target source)) machine)
    (parts : ∀ part start, Piece.Runs versions.before
      (.expression depth (.assign id target source)) machine part start →
      versions.GoesInStep hidden part start) :
    Eval.InStep hidden machine
      (evaluate versions.before (callsTo versions.before depth) (.assign id target source))
      (evaluate versions.after (callsTo versions.after depth) (.assign id target source)) := by
  have ofTarget : versions.Expression target := known.first rfl
  have ofSource : versions.Expression source := known.second rfl
  unfold evaluate
  refine .locate _ (known.here.bind_typeOf fun type typed => ?_)
  cases target with
  | reference reference name =>
      exact written_inStep (parts _ _ (.toName typed) ofSource) (.writeName (allows.writes .refl) _)
  | index target stem position =>
      have ofStem : versions.Expression stem := ofTarget.first rfl
      have ofPosition : versions.Expression position := ofTarget.second rfl
      refine .bind (parts _ _ (.targetArray typed) ofStem) fun array _ ranStem =>
        .bind (.extent _) fun length _ measured =>
        .bind (parts _ _ (.targetPosition typed ranStem measured) ofPosition)
          fun index _ ranPosition =>
        .bind_ofExcept fun place checked => ?_
      exact written_inStep
        (parts _ _ (.toElement typed ranStem measured ranPosition checked) ofSource)
        (.of_agrees (Eval.agrees_writeElement _ _ _))
  | field target stem name =>
      have ofStem : versions.Expression stem := ofTarget.first rfl
      refine .bind (parts _ _ (.targetStem typed) ofStem) fun object _ ranStem => ?_
      split
      · exact .fail _
      · next there =>
        exact written_inStep (parts _ _ (.toField typed ranStem there) ofSource)
          (.of_agrees (Eval.agrees_writeField _ _ _))
  | _ => exact .fail _

/-- An expression goes in step if what it runs does. -/
theorem expression_inStep (alike : versions.DeclaredAlike) {node : Node}
    (allows : versions.Allows hidden (.expression depth node) machine)
    (parts : ∀ part start, Piece.Runs versions.before (.expression depth node) machine part start →
      versions.GoesInStep hidden part start) :
    versions.GoesInStep hidden (.expression depth node) machine := by
  intro known
  have steps := Eval.valueSteps_agrees (sameBut hidden)
  have operate (operator : Heap → Except Failure Operand) {machine : Machine} :
      Eval.InStep hidden machine (Eval.operate operator) (Eval.operate operator) :=
    .of_agrees (steps.operate operator)
  -- Each part goes in step by hypothesis; what is read before it runs tells which part comes next.
  cases node with
  | int id value => exact .of_agrees (steps.keep _)
  | float id value => exact .pure _
  | string id value => exact .pure _
  | null id => exact .pure _
  | reference id name => exact resolve_inStep alike known.here (allows.reads .refl)
  | constructor id of =>
      have ofType : versions.Expression of := known.first rfl
      exact .locate _ (.bind (parts _ _ .ofType ofType) fun _ _ _ => .of_agrees (steps.make _))
  | array id items =>
      exact .locate _ (known.here.bind_typeOf fun type typed =>
        .bind (parts _ _ (.items typed) fun item isItem => known.inside isItem) fun _ _ _ =>
        .of_agrees (steps.settle _))
  | paren id inner =>
      have ofInner : versions.Expression inner := known.first rfl
      exact .locate _ (parts _ _ .inner ofInner)
  | field id stem name =>
      have ofStem : versions.Expression stem := known.first rfl
      exact .locate _ (.bind (parts _ _ .stem ofStem) fun _ _ _ =>
        .of_agrees (steps.readField _ name))
  | index id stem position =>
      have ofStem : versions.Expression stem := known.first rfl
      have ofPosition : versions.Expression position := known.second rfl
      exact .locate _ (.bind (parts _ _ .array ofStem) fun array _ ranStem =>
        .bind (.extent _) fun length _ measured =>
        .bind (parts _ _ (.position ranStem measured) ofPosition) fun index _ _ =>
        .bind_ofExcept fun place _ => .of_agrees (steps.readElement _ place))
  | call id callee arguments =>
      have ofCallee : versions.Expression callee := known.first rfl
      have ofArguments (argument : Node) (isArgument : argument ∈ arguments) :
          versions.Expression argument := known.inside (List.mem_cons_of_mem _ isArgument)
      exact .locate _ (.bind (parts _ _ .callee ofCallee) fun function _ ranCallee =>
        .bind (parts _ _ (.arguments ranCallee) ofArguments) fun values _ ranArguments =>
        apply_inStep alike allows parts ranCallee ranArguments)
  | diadic id left op right =>
      have ofLeft : versions.Expression left := known.first rfl
      have ofRight : versions.Expression right := known.second rfl
      refine .locate _ (ofLeft.here.bind_typeOf fun leftType leftTyped =>
        ofRight.here.bind_typeOf fun rightType rightTyped =>
        .bind (parts _ _ (.left leftTyped rightTyped) ofLeft) fun leftValue middle ranLeft => ?_)
      -- Both versions have the same left value, so they decide alike whether the right operand is
      -- run.
      split
      · exact .of_agrees (steps.keep _)
      · next undecided =>
          exact .bind (parts _ _ (.right leftTyped rightTyped ranLeft undecided) ofRight)
            fun _ _ _ => operate _
  | monadic id op operand =>
      have ofOperand : versions.Expression operand := known.first rfl
      exact .locate _ (.bind (parts _ _ .operand ofOperand) fun _ _ _ =>
        ofOperand.here.bind_typeOf fun _ _ => operate _)
  | monadicFork id fork operand =>
      have ofOperand : versions.Expression operand := known.first rfl
      exact .locate _ (.bind (parts _ _ .forked ofOperand) fun _ _ _ =>
        ofOperand.here.bind_typeOf fun _ _ => operate _)
  | diadicFork id left fork right =>
      have ofLeft : versions.Expression left := known.first rfl
      have ofRight : versions.Expression right := known.second rfl
      exact .locate _ (.bind (parts _ _ .forkedLeft ofLeft) fun _ _ ranLeft =>
        .bind (parts _ _ (.forkedRight ranLeft) ofRight) fun _ _ _ =>
        ofLeft.here.bind_typeOf fun _ _ => ofRight.here.bind_typeOf fun _ _ => operate _)
  | assign id target source => exact assignment_inStep known allows parts
  | _ => exact .fail _

/-! ### Statements -/

omit [NumericLibrary] in
/-- A function or a type is declared on both sides. -/
theorem declared_inStep (name : String) (value : Copy) :
    Eval.InStep hidden machine
      (do
        Eval.declare name value
        pure Control.normal)
      (do
        Eval.declare name value
        pure Control.normal) :=
  .bind (.declare name value) fun _ _ _ => .pure _

/-- A statement goes in step if what it runs does. -/
theorem statement_inStep {node : Node}
    (parts : ∀ part start, Piece.Runs versions.before (.statement depth limit node) machine part
      start → versions.GoesInStep hidden part start) :
    versions.GoesInStep hidden (.statement depth limit node) machine := by
  intro other same
  cases same with
  | simple isSimple known =>
      cases node with
      | «variable» id name initial =>
          have ofInitial : versions.Expression initial := known.first rfl
          exact .bind (parts _ _ .initial ofInitial) fun _ _ _ =>
            known.here.bind_typeOf fun _ _ => .bind (.of_agrees (Eval.agrees_keep _)) fun _ _ _ =>
            declared_inStep name _
      | expression id inner =>
          have ofInner : versions.Expression inner := known.first rfl
          exact .bind (parts _ _ .effect ofInner) fun _ _ _ => .pure _
      | «return» id result =>
          cases result with
          | none => exact .pure _
          | some result =>
              have ofResult : versions.Expression result := known.first rfl
              exact .bind (parts _ _ .result ofResult) fun _ _ _ => .pure _
      | block id body => cases isSimple
      | branch id test accepted rejected => cases isSimple
      | loop id test body => cases isSimple
      | function id name parameters body => cases isSimple
      | struct id name fields => cases isSimple
      | _ => exact .fail _
  | block body => exact .inBlock (parts _ _ .block _ body)
  | branch known accepts =>
      unfold execute
      refine .bind (condition_inStep known (parts _ _ .test)) fun holds middle tested => ?_
      cases holds with
      | true => exact parts _ _ (.accepted tested) _ accepts
      | false => exact .pure _
  | choice known accepts rejects =>
      unfold execute
      refine .bind (condition_inStep known (parts _ _ .test)) fun holds middle tested => ?_
      cases holds with
      | true => exact parts _ _ (.accepted tested) _ accepts
      | false => exact parts _ _ (.rejected tested) _ rejects
  | loop known repeats => exact parts _ _ .loop _ known repeats
  | function isShared body => exact declared_inStep _ _
  | struct isShared => exact declared_inStep _ _
  | root body => exact .fail _

/-- A return does not end normally. -/
theorem returned_of_return {annotations : Annotations} {calls : Calls} {id : NodeId}
    {result : Option Node} {control : Control} {final : Machine}
    (ran : (execute annotations calls limit (.return id result)).run machine =
      .done control final) : control ≠ .normal := by
  rintro rfl
  cases result with
  | none => cases ran
  | some result =>
      unfold execute at ran
      rw [Eval.run_bind] at ran
      split at ran <;> cases ran

/-- What may be moved declares a hidden name and ends normally. -/
theorem Moves.run_execute {annotations : Annotations} {calls : Calls} {node : Node}
    (moves : versions.Moves hidden node) (machine : Machine) :
    ∃ name value, hidden name = true ∧
      (execute annotations calls limit node).run machine = .done .normal
        { machine with frames := machine.frames.insert machine.here name value } := by
  cases moves with
  | function isHidden isShared => exact ⟨_, _, isHidden, rfl⟩
  | struct isHidden isShared => exact ⟨_, _, isHidden, rfl⟩

/-- A declaration that only the first version has in a place leads to the rest of the statements. -/
theorem moved_first {node : Node} {nodes others : List Node}
    (moves : versions.Moves hidden node) (same : versions.Statements nodes others)
    (parts : ∀ part start, Piece.Runs versions.before (.sequence depth limit (node :: nodes))
      machine part start → versions.GoesInStep hidden part start) :
    Eval.InStep hidden machine
      (executeAll versions.before (callsTo versions.before depth) limit (node :: nodes))
      (executeAll versions.after (callsTo versions.after depth) limit others) := by
  intro otherMachine alike
  -- The second version has not run anything yet when the first one has bound the name.
  obtain ⟨name, value, isHidden, ran⟩ := moves.run_execute machine
  have rest := parts _ _ (.otherStatements ran) others same
  rw [executeAll, Eval.run_bind_of_done ran]
  exact rest otherMachine (alike.insert_hidden isHidden machine.here value)

/-- A declaration that only the second version has in a place leads to the rest of the
statements. -/
theorem moved_second {node : Node} {nodes others : List Node}
    (moves : versions.Moves hidden node)
    (rest : Eval.InStep hidden machine
      (executeAll versions.before (callsTo versions.before depth) limit nodes)
      (executeAll versions.after (callsTo versions.after depth) limit others)) :
    Eval.InStep hidden machine
      (executeAll versions.before (callsTo versions.before depth) limit nodes)
      (executeAll versions.after (callsTo versions.after depth) limit (node :: others)) := by
  intro otherMachine alike
  obtain ⟨name, value, isHidden, ran⟩ := moves.run_execute otherMachine
  rw [executeAll, Eval.run_bind_of_done ran]
  exact rest _ (alike.insert_hidden_right isHidden otherMachine.here value)

/-- Statements go in step if what they run does. -/
theorem sequence_inStep (moves : ∀ node, versions.movable node → versions.Moves hidden node)
    {nodes : List Node}
    (parts : ∀ part start, Piece.Runs versions.before (.sequence depth limit nodes) machine part
      start → versions.GoesInStep hidden part start) :
    versions.GoesInStep hidden (.sequence depth limit nodes) machine := by
  intro others same
  -- The induction is on the second version, which may have declarations of its own before the rest.
  induction others with
  | nil =>
      cases same with
      | nil => exact .pure _
      | left isMovable rest => exact moved_first (moves _ isMovable) rest parts
  | cons other others inductionHypothesis =>
      cases same with
      | cons starts rest =>
          refine .bind (parts _ _ .firstStatement _ starts) fun control middle ranFirst => ?_
          cases control with
          | normal => exact parts _ _ (.otherStatements ranFirst) _ rest
          | returned value => exact .pure _
      | ended known =>
          have first := parts _ _ .firstStatement _ (.simple rfl known)
          refine .bind first fun control middle ranFirst => ?_
          cases control with
          | normal => exact absurd rfl (returned_of_return ranFirst)
          | returned value => exact .pure _
      | left isMovable rest => exact moved_first (moves _ isMovable) rest parts
      | right isMovable rest => exact moved_second (moves _ isMovable) (inductionHypothesis rest)

/-- The rounds of a loop go in step if what they run does. -/
theorem rounds_inStep {test body : Node} {left : Nat}
    (parts : ∀ part start, Piece.Runs versions.before (.rounds depth limit test body left) machine
      part start → versions.GoesInStep hidden part start) :
    versions.GoesInStep hidden (.rounds depth limit test body left) machine := by
  intro other known same
  cases left with
  | zero => exact .unfinished
  | succ left =>
      refine .bind (condition_inStep known (parts _ _ .roundTest)) fun holds _ tested => ?_
      cases holds with
      | false => exact .pure _
      | true =>
          refine .bind (parts _ _ (.round tested) _ same) fun control _ ranRound => ?_
          cases control with
          | normal => exact parts _ _ (.otherRounds tested ranRound) _ known same
          | returned value => exact .pure _

/-- A program goes in step if its statements do. -/
theorem program_inStep {root : Node}
    (parts : ∀ part start, Piece.Runs versions.before (.program limit root) machine part start →
      versions.GoesInStep hidden part start) :
    versions.GoesInStep hidden (.program limit root) machine := by
  intro other same
  cases same with
  | block body => exact .result (parts _ _ (.statements rfl) _ body)
  | root body => exact .result (parts _ _ (.statements rfl) _ body)
  | @simple _ isSimple _ =>
      cases root with
      | block id body => cases isSimple
      | root id body => cases isSimple
      | _ => exact .fail _
  | _ => exact .fail _

end

/-! ### Runs -/

/-- Every piece goes in step with its other version, if what the versions share is alike, what may be
moved declares hidden names, and the first version does not ask for them. -/
theorem goesInStep (alike : versions.DeclaredAlike)
    (moves : ∀ node, versions.movable node → versions.Moves hidden node) (piece : Piece)
    (machine : Machine) (allows : versions.Allows hidden piece machine) :
    versions.GoesInStep hidden piece machine := by
  -- The induction is on what the first version runs; the second one is wherever the first one is.
  induction piece, machine using Piece.induct versions.before with
  | step piece machine inductionHypothesis =>
      have parts (part : Piece) (start : Machine)
          (runs : piece.Runs versions.before machine part start) :
          versions.GoesInStep hidden part start :=
        inductionHypothesis part start runs (allows.of_runs runs)
      cases piece with
      | expression depth node => exact expression_inStep alike allows parts
      | row depth nodes =>
          intro known
          cases nodes with
          | nil => exact .pure _
          | cons node nodes =>
              have ofFirst := known node List.mem_cons_self
              exact .bind (parts _ _ .firstOf ofFirst) fun _ _ ranFirst =>
                .bind (parts _ _ (.othersOf ranFirst) fun other isIn =>
                  known other (List.mem_cons_of_mem _ isIn)) fun _ _ _ => .pure _
      | statement depth limit node => exact statement_inStep parts
      | sequence depth limit nodes => exact sequence_inStep moves parts
      | rounds depth limit test body left => exact rounds_inStep parts
      | program limit root => exact program_inStep parts

end Versions

end ArrayForks
