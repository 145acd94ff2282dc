import ArrayForks.Proofs.CallIsolation
import ArrayForks.Proofs.FrameNames
import ArrayForks.Proofs.SharedDeclarations

/-! # Nothing runs after a return

A statement that returns ends everything around it, up to the call or the program that it belongs
to: the statements after it, the rounds of loops around it and their conditions are not run any
more, and the value arrives unchanged. So what follows a return in its list of statements does not
matter at all, neither in the program nor in the functions that it calls.

* **`Piece.Controls`** leads from a call or a program to the statements in it, and
  **`Piece.EndsWith`** says what a piece returns.
* **`EndsWith.of_part`** is the step outwards around a piece that returns, and
  **`EndsWith.arrives`** the way to the whole. -/

namespace ArrayForks

open Evaluation (evaluate evaluateAll)
open Execution (condition execute executeAll repeatWhile callsTo)

variable [NumericLibrary]

namespace Piece

variable {annotations : Annotations} {whole part other : Piece} {machine start next final : Machine}
  {value : Copy}

/-- Whether a piece consists of statements that belong to one call or program. -/
def isControl : Piece → Bool
  | .statement _ _ _ | .sequence _ _ _ | .rounds _ _ _ _ _ => true
  | _ => false

/-- A piece comes to run another one that belongs to the same call or program. -/
def Controls (annotations : Annotations) (whole : Piece) (machine : Machine) (part : Piece)
    (start : Machine) : Prop :=
  Relation.ReflTransGen
    (fun before after : Piece × Machine =>
      Runs annotations before.1 before.2 after.1 after.2 ∧ after.1.isControl = true)
    (whole, machine) (part, start)

/-- A piece ends with a value: statements return it, and an expression or a program gives it. -/
def EndsWith (annotations : Annotations) (value : Copy) (final : Machine) : Piece → Machine → Prop
  | .expression depth node, machine =>
      (evaluate annotations (callsTo annotations depth) node).run machine = .done value final
  | .row _ _, _ => False
  | .statement depth limit node, machine =>
      (execute annotations (callsTo annotations depth) limit node).run machine =
        .done (.returned value) final
  | .sequence depth limit nodes, machine =>
      (executeAll annotations (callsTo annotations depth) limit nodes).run machine =
        .done (.returned value) final
  | .rounds depth limit test body left, machine =>
      (repeatWhile (condition annotations (callsTo annotations depth) test)
        (execute annotations (callsTo annotations depth) limit body) left).run machine =
        .done (.returned value) final
  | .program limit root, machine =>
      (Execution.program annotations limit root).run machine = .done value final

/-- Of two pieces that a piece runs, which one comes first. -/
inductive Precedes : (whole first second : Piece) → Prop where
  /-- What is called is evaluated before the body is run. -/
  | callee {depth id callee arguments body} :
      Precedes (.expression (depth + 1) (.call id callee arguments)) (.expression (depth + 1) callee)
        (.sequence depth depth body)
  /-- The arguments of a call are evaluated before the body is run. -/
  | arguments {depth id callee arguments body} :
      Precedes (.expression (depth + 1) (.call id callee arguments)) (.row (depth + 1) arguments)
        (.sequence depth depth body)
  /-- A condition comes before what it accepts. -/
  | accepted {depth limit id test accepted rejected} :
      Precedes (.statement depth limit (.branch id test accepted rejected)) (.expression depth test)
        (.statement depth limit accepted)
  /-- A condition comes before what it rejects. -/
  | rejected {depth limit id test accepted rejected} :
      Precedes (.statement depth limit (.branch id test accepted (some rejected)))
        (.expression depth test) (.statement depth limit rejected)
  /-- A statement comes before those that follow it. -/
  | statements {depth limit node nodes} :
      Precedes (.sequence depth limit (node :: nodes)) (.statement depth limit node)
        (.sequence depth limit nodes)
  /-- The condition of a loop comes before the first round. -/
  | round {depth limit test body left} :
      Precedes (.rounds depth limit test body (left + 1)) (.expression depth test)
        (.statement depth limit body)
  /-- The condition of a loop comes before the other rounds. -/
  | tested {depth limit test body left} :
      Precedes (.rounds depth limit test body (left + 1)) (.expression depth test)
        (.rounds depth limit test body left)
  /-- The first round comes before the other rounds. -/
  | rounds {depth limit test body left} :
      Precedes (.rounds depth limit test body (left + 1)) (.statement depth limit body)
        (.rounds depth limit test body left)

/-- A piece that ends with a value ends in the frame that it started in. -/
theorem EndsWith.here_eq (ends : part.EndsWith annotations value final start) :
    final.here = start.here := by
  have steps := Machine.steps_names
  have called (depth : Nat) := steps.callsTo annotations depth
  cases part with
  | expression depth node =>
      exact (steps.evaluation.evaluate annotations (called depth) node start final
        (congrArg Outcome.machine? ends)).here_eq
  | row depth nodes => exact ends.elim
  | statement depth limit node =>
      exact (steps.execute annotations (called depth) limit node start final
        (congrArg Outcome.machine? ends)).here_eq
  | sequence depth limit nodes =>
      exact (steps.executeAll annotations (called depth) limit nodes start final
        (congrArg Outcome.machine? ends)).here_eq
  | rounds depth limit test body left =>
      exact (steps.repeatWhile (steps.condition annotations (called depth) test)
        (steps.execute annotations (called depth) limit body) left start final
        (congrArg Outcome.machine? ends)).here_eq
  | program limit root =>
      exact (steps.program annotations limit root start final
        (congrArg Outcome.machine? ends)).here_eq

/-- The frame at the end may be given as the one at the start. -/
theorem EndsWith.in_frame (ends : part.EndsWith annotations value final start) :
    part.EndsWith annotations value { final with here := start.here } start := by
  rw [← ends.here_eq]
  exact ends

/-- A call gives what the body of the function returns. -/
theorem ends_of_called {depth : Nat} {id : NodeId} {callee : Node} {arguments : List Node}
    {middle last bound : Machine} {function : Copy} {values : List Copy} {name declaredName : String}
    {declaration : NodeId} {parameters : List String} {body : List Node}
    (ranCallee : (evaluate annotations (callsTo annotations (depth + 1)) callee).run machine =
      .done function middle)
    (ranArguments :
      (evaluateAll annotations (callsTo annotations (depth + 1)) arguments).run middle =
        .done values last)
    (isFunction : function.value = .function name declaration)
    (declared : annotations.declaration? declaration =
      some (.function declaredName parameters body))
    (ranParameters : (Eval.declareAll (parameters.zip values)).run
      (last.enter FrameTree.callFrame) = .done () bound)
    (fit : parameters.length = values.length)
    (returns : (Piece.sequence depth depth body).EndsWith annotations value final
      (bound.enter FrameTree.child)) :
    (Piece.expression (depth + 1) (.call id callee arguments)).EndsWith annotations value
      { final with here := machine.here } machine := by
  -- From the inside out: the block of the body, the body in the frame of the call, and the call.
  have block : (Eval.inBlock (executeAll annotations (callsTo annotations depth) depth body)).run
      bound = .done (.returned value) { final with here := bound.here } :=
    congrArg (Outcome.backIn bound.here) returns
  have ranBody : (Execution.callBody annotations (callsTo annotations depth) depth parameters body
      values).run (last.enter FrameTree.callFrame) =
      .done value { final with here := bound.here } := by
    rw [Execution.callBody, Eval.run_bind_of_done ranParameters, if_pos fit]
    exact Eval.run_bind_of_done block _
  have call := congrArg (Outcome.backIn last.here) ranBody
  have ends : (Piece.expression (depth + 1) (.call id callee arguments)).EndsWith annotations value
      { final with here := last.here } machine := by
    refine Eval.run_locate_of_done ?_ _
    rw [Eval.run_bind_of_done ranCallee, Eval.run_bind_of_done ranArguments, isFunction,
      Evaluation.run_apply_function, declared]
    exact call
  exact ends.in_frame

/-- What a part of a call or a program returns is handed on by the piece around it, with nothing done
in between but to come back to the frame. -/
theorem EndsWith.of_part (runs : Runs annotations whole machine part start)
    (isControl : part.isControl = true) (returns : part.EndsWith annotations value final start) :
    whole.EndsWith annotations value { final with here := machine.here } machine := by
  cases runs with
  -- A call ends with what its body returns: here a returned value becomes the value of an expression.
  | called ranCallee ranArguments isFunction declared ranParameters fit =>
      exact ends_of_called ranCallee ranArguments isFunction declared ranParameters fit returns
  | block => exact congrArg (Outcome.backIn machine.here) returns
  | accepted holds =>
      refine EndsWith.in_frame ?_
      change (execute annotations (callsTo annotations _) _ (.branch _ _ _ _)).run machine = _
      unfold execute
      rw [Eval.run_bind_of_done holds]
      exact returns
  | rejected refused =>
      refine EndsWith.in_frame ?_
      change (execute annotations (callsTo annotations _) _ (.branch _ _ _ _)).run machine = _
      unfold execute
      rw [Eval.run_bind_of_done refused]
      exact returns
  | loop => exact EndsWith.in_frame returns
  | firstStatement =>
      refine EndsWith.in_frame ?_
      rw [EndsWith, executeAll, Eval.run_bind_of_done returns]
      rfl
  | otherStatements ranFirst =>
      refine EndsWith.in_frame ?_
      rw [EndsWith, executeAll, Eval.run_bind_of_done ranFirst]
      exact returns
  | round holds =>
      refine EndsWith.in_frame ?_
      rw [EndsWith, repeatWhile, Eval.run_bind_of_done holds, if_pos rfl,
        Eval.run_bind_of_done returns]
      rfl
  | otherRounds holds ranRound =>
      refine EndsWith.in_frame ?_
      rw [EndsWith, repeatWhile, Eval.run_bind_of_done holds, if_pos rfl,
        Eval.run_bind_of_done ranRound]
      exact returns
  | statements isProgram =>
      refine EndsWith.in_frame ?_
      rw [EndsWith, Execution.program, isProgram]
      exact Eval.run_bind_of_done returns _
  | _ => cases isControl

/-- Once a part of a call or a program has returned, the piece around it runs nothing more: whatever
else it runs came before. -/
theorem EndsWith.last (runs : Runs annotations whole machine part start)
    (isControl : part.isControl = true) (returns : part.EndsWith annotations value final start)
    (runsOther : Runs annotations whole machine other next) :
    (other = part ∧ next = start) ∨ Precedes whole other part := by
  cases runs with
  | called ranCallee ranArguments isFunction declared ranParameters fit =>
      cases runsOther with
      | callee => exact .inr .callee
      | arguments _ => exact .inr .arguments
      | called ranCallee' ranArguments' isFunction' declared' ranParameters' fit' =>
          cases ranCallee.symm.trans ranCallee'
          cases ranArguments.symm.trans ranArguments'
          cases isFunction.symm.trans isFunction'
          cases declared.symm.trans declared'
          cases ranParameters.symm.trans ranParameters'
          exact .inl ⟨rfl, rfl⟩
  | block =>
      cases runsOther with
      | block => exact .inl ⟨rfl, rfl⟩
  | accepted holds =>
      cases runsOther with
      | test => exact .inr .accepted
      | accepted holds' =>
          cases holds.symm.trans holds'
          exact .inl ⟨rfl, rfl⟩
      | rejected refused => cases holds.symm.trans refused
  | rejected refused =>
      cases runsOther with
      | test => exact .inr .rejected
      | accepted holds => cases holds.symm.trans refused
      | rejected refused' =>
          cases refused.symm.trans refused'
          exact .inl ⟨rfl, rfl⟩
  | loop =>
      cases runsOther with
      | loop => exact .inl ⟨rfl, rfl⟩
  | firstStatement =>
      cases runsOther with
      | firstStatement => exact .inl ⟨rfl, rfl⟩
      -- The statements after it would take that it has not returned.
      | otherStatements ranFirst => cases returns.symm.trans ranFirst
  | otherStatements ranFirst =>
      cases runsOther with
      | firstStatement => exact .inr .statements
      | otherStatements ranFirst' =>
          cases ranFirst.symm.trans ranFirst'
          exact .inl ⟨rfl, rfl⟩
  | round holds =>
      cases runsOther with
      | roundTest => exact .inr .round
      | round holds' =>
          cases holds.symm.trans holds'
          exact .inl ⟨rfl, rfl⟩
      -- A next round, and its condition, would take that this round has not returned.
      | otherRounds holds' ranRound =>
          cases holds.symm.trans holds'
          cases returns.symm.trans ranRound
  | otherRounds holds ranRound =>
      cases runsOther with
      | roundTest => exact .inr .tested
      | round holds' => exact .inr .rounds
      | otherRounds holds' ranRound' =>
          cases holds.symm.trans holds'
          cases ranRound.symm.trans ranRound'
          exact .inl ⟨rfl, rfl⟩
  | statements isProgram =>
      cases runsOther with
      | statements isProgram' =>
          cases isProgram.symm.trans isProgram'
          exact .inl ⟨rfl, rfl⟩
  | _ => cases isControl

/-- What any part of a call or a program returns arrives unchanged at the pieces around it. -/
theorem EndsWith.arrives (controls : Controls annotations whole machine part start)
    (returns : part.EndsWith annotations value final start) :
    whole.EndsWith annotations value { final with here := machine.here } machine := by
  -- The induction goes outwards from the part, along the pieces around it.
  have arrives (first : Piece × Machine) (path : Relation.ReflTransGen
      (fun before after : Piece × Machine =>
        Runs annotations before.1 before.2 after.1 after.2 ∧ after.1.isControl = true)
      first (part, start)) :
      first.1.EndsWith annotations value { final with here := first.2.here } first.2 := by
    induction path using Relation.ReflTransGen.head_induction_on with
    | refl => exact returns.in_frame
    | head runs _ inductionHypothesis =>
        have handed := inductionHypothesis.of_part runs.1 runs.2
        exact handed
  exact arrives (whole, machine) controls

/-- A piece controls what it runs, if this belongs to its call or program. -/
theorem Controls.of_runs (runs : Runs annotations whole machine part start)
    (isControl : part.isControl = true) : Controls annotations whole machine part start :=
  .single ⟨runs, isControl⟩

/-- A piece controls what the pieces that it controls run. -/
theorem Controls.and_runs {middle : Piece} (controls : Controls annotations whole machine middle next)
    (runs : Runs annotations middle next part start) (isControl : part.isControl = true) :
    Controls annotations whole machine part start :=
  controls.tail ⟨runs, isControl⟩

/-- A part of a call or a program returns a value, and nothing is left to do around it. -/
structure ReturnsThrough (annotations : Annotations) (whole : Piece) (machine : Machine)
    (part : Piece) (start : Machine) (value : Copy) (final : Machine) : Prop where
  /-- The value arrives at the whole, with nothing done but to come back to its frame. -/
  arrives : whole.EndsWith annotations value { final with here := machine.here } machine
  /-- On the way from the whole to the part, whatever else a piece runs came before. -/
  lasts (outer inner other : Piece) (outside inside next : Machine)
    (fromWhole : Controls annotations whole machine outer outside)
    (runs : Runs annotations outer outside inner inside) (isControl : inner.isControl = true)
    (toPart : Controls annotations inner inside part start)
    (runsOther : Runs annotations outer outside other next) :
    (other = inner ∧ next = inside) ∨ Precedes outer other inner

/-- Whatever a part of a call or a program returns is returned through the pieces around it. -/
theorem Controls.returnsThrough (controls : Controls annotations whole machine part start)
    (returns : part.EndsWith annotations value final start) :
    ReturnsThrough annotations whole machine part start value final where
  arrives := returns.arrives controls
  lasts _ _ _ _ _ _ _ runs isControl toPart runsOther :=
    (returns.arrives toPart).last runs isControl runsOther

end Piece

/-! ### What follows a return -/

/-- **Nothing runs after a return.** Let the `versions` of a program differ only in what follows
returns, in the program, `versions.Statement root other`, or in the bodies that it calls,
`versions.DeclaredAlike`. Then

`(program versions.before limit root).run machine = (program versions.after limit other).run
machine`

and wherever a `part` of a call or a program ends with a returned value, the `whole` call or program
ends with the same value, `ReturnsThrough`, and runs nothing after the part. -/
theorem nothing_runs_after_return {versions : Versions} (alike : versions.DeclaredAlike)
    (fixed : ∀ node, ¬ versions.movable node) {root other : Node}
    (same : versions.Statement root other) (limit : Nat) {machine : Machine}
    (known : machine.Upholds versions.Known) :
    (Execution.program versions.before limit root).run machine =
        (Execution.program versions.after limit other).run machine ∧
      ∀ whole outside part start value final,
        Piece.Controls versions.before whole outside part start →
        part.EndsWith versions.before value final start →
        Piece.ReturnsThrough versions.before whole outside part start value final := by
  -- No name is hidden, so nothing is asked of what the first version reads and assigns.
  have inStep : Eval.InStep (fun _ => false) machine
      (Execution.program versions.before limit root)
      (Execution.program versions.after limit other) :=
    Versions.runs_in_step alike (fun node isMovable => absurd isMovable (fixed node)) same limit
      known (fun _ _ _ _ _ isHidden => absurd isHidden Bool.false_ne_true) fun _ _ _ _ _ _ _ => rfl
  have agree := inStep machine (.refl _ machine)
  refine ⟨agree.eq_of_nothing_hidden, ?_⟩
  intro whole outside part start value final controls returns
  exact controls.returnsThrough returns

omit [NumericLibrary] in
/-- A call returns from a block within a loop, and the program returns what the call gives; names that
are not bound follow both returns in the one version, and nothing in the other. -/
theorem nothing_runs_after_return_nested :
    letI : NumericLibrary := .standard
    let ends := Node.return 6 (some (.string 7 "done"))
    let body (tail : List Node) : List Node := [.loop 3 (.int 4 1) (.block 5 (ends :: tail))]
    let program (tail after : List Node) : Node := .root 0
      (.function 1 "f" [] (body tail) ::
        .return 8 (some (.call 9 (.reference 10 "f") [])) :: after)
    let unknown := Node.expression 11 (.reference 12 "x")
    let annotations (root : Node) : Annotations :=
      ((Annotations.empty.collect root).annotate 4 .int).bind 10 1
    let run (root : Node) := (Execution.program (annotations root) 2 root).run .initial
    run (program [unknown] [unknown]) = run (program [] []) ∧
      ∃ final, run (program [] []) = .done (.written 7 (.string "done")) final := by
  let : NumericLibrary := .standard
  intro ends body program unknown annotations run
  let versions : Versions :=
    { before := annotations (program [unknown] [unknown])
      after := annotations (program [] [])
      shared := (· = 1)
      movable := fun _ => False }
  have declaredBefore : versions.before.declaration? 1 =
      some (.function "f" [] (body [unknown])) :=
    (Annotations.declaration?_collect_function .empty 1 "f" [] _ 1).trans (if_pos rfl)
  have declaredAfter : versions.after.declaration? 1 = some (.function "f" [] (body [])) :=
    (Annotations.declaration?_collect_function .empty 1 "f" [] _ 1).trans (if_pos rfl)
  have bound (id : NodeId) : versions.before.bindingOf? id = if 10 = id then some 1 else none := by
    rw [← Annotations.bindingOf?_empty id]
    exact Annotations.bindingOf?_bind _ 10 1 id
  have knows (id : NodeId) : versions.Knows id := by
    refine ⟨rfl, rfl, fun declaration isBound => ?_⟩
    rw [bound] at isBound
    split at isBound
    · cases isBound
      rfl
    · cases isBound
  have known {node : Node} : versions.Expression node := .of_forall (fun part => knows part.id) node
  have bodies : versions.Statements (body [unknown]) (body []) :=
    .cons (.loop known (.block (.ended known))) .nil
  have alike : versions.DeclaredAlike := by
    intro id isShared
    obtain rfl : id = 1 := isShared
    rw [declaredBefore, declaredAfter]
    exact .some (.function bodies)
  have same : versions.Statement (program [unknown] [unknown]) (program [] []) :=
    .root (.cons (.function rfl bodies) (.ended known))
  obtain ⟨equal, returns⟩ := nothing_runs_after_return alike (fun _ isMovable => isMovable) same 2
    versions.known_initial
  refine ⟨equal, ?_⟩
  -- The call returns what is returned in the block within the loop within its body.
  have resolved (machine : Machine) :
      (evaluate versions.before (callsTo versions.before 2) (.reference 10 "f")).run machine =
        .done (.new (.function "f" 1)) machine := by
    have value : (versions.before.bindingOf? 10).bind versions.before.valueOf? =
        some (.function "f" 1) := by
      rw [bound, if_pos rfl, Option.bind_some, Annotations.valueOf?, declaredBefore]
    exact Evaluation.run_resolve value "f" machine
  have holds (machine : Machine) : ∃ middle,
      (condition versions.before (callsTo versions.before 1) (.int 4 1)).run machine =
        .done true middle := by
    have typed : versions.before.typeOf (.int 4 1) = .ok .int := by
      have annotated := (Annotations.empty.collect (program [unknown] [unknown])).types_annotate 4 4
        .int
      rw [Annotations.typeOf]
      exact annotated ▸ rfl
    have evaluated : (evaluate versions.before (callsTo versions.before 1) (.int 4 1)).run machine =
        .done ((Copy.new (.int (Word.wrap 1))).keep machine.made)
          { machine with made := machine.made + 1 } := rfl
    rw [condition, Eval.run_bind_of_done evaluated,
      Eval.run_bind_of_done (Evaluation.run_typeOf typed _)]
    exact ⟨_, rfl⟩
  have called (machine : Machine) : ∃ final,
      (evaluate versions.before (callsTo versions.before 2) (.call 9 (.reference 10 "f") [])).run
        machine = .done (.written 7 (.string "done")) final := by
    obtain ⟨middle, tested⟩ := holds ((machine.enter FrameTree.callFrame).enter FrameTree.child)
    have controls : Piece.Controls versions.before (.expression 2 (.call 9 (.reference 10 "f") []))
        machine (.statement 1 1 ends) (middle.enter FrameTree.child) :=
      (((((Piece.Controls.of_runs
        (.called (resolved machine) rfl rfl declaredBefore rfl rfl) rfl).and_runs
        .firstStatement rfl).and_runs .loop rfl).and_runs (.round tested) rfl).and_runs
        .block rfl).and_runs .firstStatement rfl
    exact ⟨_, (returns _ _ _ _ _ _ controls rfl).arrives⟩
  have declares : (execute versions.before (callsTo versions.before 2) 2
      (.function 1 "f" [] (body [unknown]))).run .initial = .done .normal
        { Machine.initial with
          frames := Machine.initial.frames.insert 0 "f" (.new (.function "f" 1)) } := rfl
  obtain ⟨final, ranCall⟩ := called { Machine.initial with
    frames := Machine.initial.frames.insert 0 "f" (.new (.function "f" 1)) }
  have controls : Piece.Controls versions.before (.program 2 (program [unknown] [unknown])) .initial
      (.statement 2 2 (.return 8 (some (.call 9 (.reference 10 "f") [])))) _ :=
    ((Piece.Controls.of_runs (.statements rfl) rfl).and_runs (.otherStatements declares)
      rfl).and_runs .firstStatement rfl
  have ended := returns _ _ _ _ _ _ controls (Eval.run_bind_of_done ranCall _)
  exact ⟨_, equal.symm.trans ended.arrives⟩

end ArrayForks
