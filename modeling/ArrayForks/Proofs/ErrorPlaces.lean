import ArrayForks.Proofs.Pieces
import ArrayForks.Proofs.Raising

/-! # The places of runtime errors

Where a runtime error arises. A piece of a run fails as soon as a piece that it runs does, with the
very same failure. So a runtime error that comes out of a run can be traced to an expression that
fails although nothing that it runs fails: the error arose in a step of its own, and the text of that
expression is the place of the error. -/

namespace ArrayForks

open Evaluation (evaluate evaluateAll extent decided? widen)
open Execution (condition execute executeAll repeatWhile callsTo program reportedProgram)

/-! ### Failures of pieces -/

variable [NumericLibrary]

namespace Piece

/-- A piece of a run fails. -/
abbrev FailsAt (annotations : Annotations) (piece : Piece) (machine : Machine)
    (failure : Failure) : Prop :=
  (piece.computation annotations).FailsAt machine failure

variable {annotations : Annotations}

/-- A piece fails with the failure of any piece that it runs. -/
theorem FailsAt.of_runs {piece part : Piece} {machine start : Machine} {failure : Failure}
    (runs : Runs annotations piece machine part start)
    (placed : ∀ error, failure ≠ .runtime error none)
    (fails : part.FailsAt annotations start failure) : piece.FailsAt annotations machine failure := by
  -- The parts that a piece runs stand in its computation behind those that ran before them: `later`
  -- passes over each of these, and `first` is the part itself.
  cases runs with
  | ofType => exact .located placed (.first fails)
  | items typed =>
      exact .located placed (.later (Evaluation.run_typeOf typed machine) (.first fails))
  | inner => exact .located placed fails
  | stem => exact .located placed (.first fails)
  | array => exact .located placed (.first fails)
  | position ranStem measured =>
      exact .located placed (.later ranStem (.later measured (.first fails)))
  | callee => exact .located placed (.first fails)
  | arguments ranCallee => exact .located placed (.later ranCallee (.first fails))
  | called ranCallee ranArguments isFunction declared ranParameters fit =>
      refine .located placed (.later ranCallee (.later ranArguments ?_))
      rw [isFunction]
      unfold Evaluation.apply
      refine .later (Eval.run_look _ _) ?_
      simp only [declared]
      refine Eval.FailsAt.within_iff.mpr (.later ranParameters ?_)
      rw [if_pos fit]
      exact .first (Eval.FailsAt.within_iff.mpr fails)
  | left leftTyped rightTyped =>
      exact .located placed (.later (Evaluation.run_typeOf leftTyped machine)
        (.later (Evaluation.run_typeOf rightTyped machine) (.first fails)))
  | right leftTyped rightTyped ranLeft undecided =>
      refine .located placed (.later (Evaluation.run_typeOf leftTyped machine)
        (.later (Evaluation.run_typeOf rightTyped machine) (.later ranLeft ?_)))
      rw [undecided]
      exact .first fails
  | operand => exact .located placed (.first fails)
  | forked => exact .located placed (.first fails)
  | forkedLeft => exact .located placed (.first fails)
  | forkedRight ranLeft => exact .located placed (.later ranLeft (.first fails))
  | toName typed =>
      exact .located placed (.later (Evaluation.run_typeOf typed machine) (.first fails))
  | targetArray typed =>
      exact .located placed (.later (Evaluation.run_typeOf typed machine) (.first fails))
  | targetPosition typed ranStem measured =>
      exact .located placed (.later (Evaluation.run_typeOf typed machine)
        (.later ranStem (.later measured (.first fails))))
  | toElement typed ranStem measured ranPosition checked =>
      refine .located placed (.later (Evaluation.run_typeOf typed machine)
        (.later ranStem (.later measured (.later ranPosition ?_))))
      rw [checked]
      exact .later (Eval.run_ofExcept_ok _ _) (.first fails)
  | targetStem typed =>
      exact .located placed (.later (Evaluation.run_typeOf typed machine) (.first fails))
  | toField typed ranStem there =>
      refine .located placed (.later (Evaluation.run_typeOf typed machine) (.later ranStem ?_))
      rw [if_neg there]
      exact .first fails
  | firstOf => exact .first fails
  | othersOf ranFirst => exact .later ranFirst (.first fails)
  | block => exact Eval.FailsAt.within_iff.mpr fails
  | initial => exact .first fails
  | effect => exact .first fails
  | test =>
      unfold FailsAt computation execute
      exact .first (.first fails)
  | accepted holds =>
      unfold FailsAt computation execute
      exact .later holds fails
  | rejected refused => exact .later refused fails
  | loop => exact fails
  | result => exact .first fails
  | firstStatement => exact .first fails
  | otherStatements ranFirst => exact .later ranFirst fails
  | roundTest => exact .first (.first fails)
  | round holds => exact .later holds (.first fails)
  | otherRounds holds ranRound => exact .later holds (.later ranRound fails)
  | statements isProgram =>
      simp only [FailsAt, computation, Execution.program, isProgram]
      exact .first fails

/-! ### Own steps -/

end Piece

/-- The kinds of runtime errors that a node can raise in a step of its own. -/
def Node.raises : Node → List ErrorKind
  | .field _ _ _ | .call _ _ _ => [.null]
  | .index _ _ _ | .assign _ _ _ => [.null, .index]
  | .diadic _ _ _ _ | .diadicFork _ _ _ _ => [.length, .arithmetic]
  | .monadic _ _ _ => [.arithmetic, .empty]
  | .monadicFork _ _ _ => [.length, .arithmetic, .empty]
  | _ => []

namespace Piece

/-- Nothing fails that a piece runs. -/
def Quiet (annotations : Annotations) (piece : Piece) (machine : Machine) : Prop :=
  ∀ part start failure, Runs annotations piece machine part start →
    ¬ part.FailsAt annotations start failure

variable {annotations : Annotations} {kinds : List ErrorKind}

/-- What a quiet piece runs does not fail, so it raises errors of whatever kinds. -/
theorem Quiet.raisesAt {piece part : Piece} {machine start : Machine}
    (quiet : piece.Quiet annotations machine) (runs : Runs annotations piece machine part start) :
    (part.computation annotations).RaisesAt kinds start :=
  .of_never fun failure => quiet part start failure runs

omit [NumericLibrary] in
/-- Binding names raises no errors. -/
theorem raisesAt_declareAll (entries : List (String × Copy)) (machine : Machine) :
    (Eval.declareAll entries).RaisesAt kinds machine := by
  induction entries generalizing machine with
  | nil => exact .pure ()
  | cons entry entries inductionHypothesis =>
      exact .bind (.of_done rfl) fun _ middle _ => inductionHypothesis middle

/-- A call raises nothing but that there is no function, unless the body of the function fails. -/
theorem raisesAt_apply {depth : Nat} {id : NodeId} {callee : Node} {arguments : List Node}
    {machine middle last : Machine} {function : Copy} {values : List Copy}
    (quiet : Quiet annotations (.expression depth (.call id callee arguments)) machine)
    (ranCallee : (evaluate annotations (callsTo annotations depth) callee).run machine =
      .done function middle)
    (ranArguments : (evaluateAll annotations (callsTo annotations depth) arguments).run middle =
      .done values last) :
    (Evaluation.apply annotations (callsTo annotations depth) function.value values).RaisesAt
      [.null] last := by
  unfold Evaluation.apply
  refine .bind (.look _) fun object machine ran => ?_
  cases ran
  -- What is called is `null`, the printer, a function, a constructor, or nothing of these.
  generalize isFunction : function.value = value
  split
  · exact .raise (by decide)
  · split
    · exact Evaluation.raisesAt_print _
    · exact .fail rfl
  · next name declaration _ =>
    split
    · next declaredName parameters body declared =>
      cases depth with
      | zero => exact .unfinished
      | succ depth =>
          intro failure fails
          have inCall : (Eval.inCall (Execution.callBody annotations (callsTo annotations depth)
            depth parameters body values)).FailsAt last failure := fails
          refine Eval.RaisesAt.bind (raisesAt_declareAll _ _) (fun _ bound ranParameters => ?_)
            failure (Eval.FailsAt.within_iff.mp inCall)
          split
          · next fit =>
            refine .bind (fun failure fails => ?_) fun _ _ _ => .pure _
            exact quiet.raisesAt (.called ranCallee ranArguments isFunction declared ranParameters
              fit) failure (Eval.FailsAt.within_iff.mp fails)
          · exact .fail rfl
    · exact Evaluation.raisesAt_notCallable _
  · exact Evaluation.raisesAt_construct annotations _ values
  · exact Evaluation.raisesAt_notCallable _

/-- The error of an assignment in which nothing fails that it runs: the array or the structure that it
writes to is not there, or the array has no such place. -/
theorem own_of_assignment {depth : Nat} {id : NodeId} {target source : Node} {machine : Machine}
    {error : RuntimeError} {place : Option String}
    (quiet : Quiet annotations (.expression depth (.assign id target source)) machine)
    (fails : (Piece.expression depth (.assign id target source)).FailsAt annotations machine
      (.runtime error place)) :
    place = some (Node.assign id target source).contents ∧
      error.kind ∈ (Node.assign id target source).raises := by
  have missing : .null ∈ (Node.assign id target source).raises := by simp [Node.raises]
  have outside : .index ∈ (Node.assign id target source).raises := by simp [Node.raises]
  unfold FailsAt computation evaluate at fails
  refine Eval.RaisesAt.place_of_located (.bind (Evaluation.raisesAt_typeOf _ _)
    fun type middle ranType => ?_) fails
  obtain ⟨typed, rfl⟩ := Eval.run_ofExcept_eq_done.mp ranType
  cases target with
  | reference _ name =>
      exact .bind (quiet.raisesAt (.toName typed)) fun _ _ _ => .bind (.keep _) fun _ _ _ =>
        .bind (Evaluation.raisesAt_writeName name _) fun _ _ _ => .pure _
  | index _ stem position =>
      refine .bind (quiet.raisesAt (.targetArray typed)) fun array _ ranStem =>
        .bind (Evaluation.raisesAt_extent missing _) fun length _ measured =>
        .bind (quiet.raisesAt (.targetPosition typed ranStem measured))
          fun index next ranPosition =>
        .bind (.ofExcept (raisesOnly_check outside _ _)) fun place last ranCheck => ?_
      obtain ⟨checked, rfl⟩ := Eval.run_ofExcept_eq_done.mp ranCheck
      exact .bind (quiet.raisesAt (.toElement typed ranStem measured ranPosition checked))
          fun _ _ _ => .bind (.keep _) fun _ _ _ =>
        .bind (Evaluation.raisesAt_writeElement _ _ _) fun _ _ _ => .pure _
  | field _ stem name =>
      refine .bind (quiet.raisesAt (.targetStem typed)) fun object _ ranStem => ?_
      split
      · exact .raise missing
      · next there =>
        exact .bind (quiet.raisesAt (.toField typed ranStem there)) fun _ _ _ =>
          .bind (.keep _) fun _ _ _ =>
          .bind (Evaluation.raisesAt_writeField _ name _) fun _ _ _ => .pure _
  | _ => exact .fail rfl

/-- An expression that fails although nothing fails that it runs has failed in a step of its own,
and its text is the place of the error. -/
theorem own_of_expression {depth : Nat} {node : Node} {machine : Machine} {error : RuntimeError}
    {place : Option String} (quiet : Quiet annotations (.expression depth node) machine)
    (fails : (Piece.expression depth node).FailsAt annotations machine (.runtime error place)) :
    place = some node.contents ∧ error.kind ∈ node.raises := by
  -- Literals, names and statements raise nothing, so that there is no error to begin with.
  have without (raisesNothing : (evaluate annotations (callsTo annotations depth) node).RaisesAt []
      machine) : place = some node.contents ∧ error.kind ∈ node.raises :=
    absurd (raisesNothing _ fails error place rfl).2 List.not_mem_nil
  cases node with
  | int => exact without (.keep _)
  | float => exact without (.pure _)
  | string => exact without (.pure _)
  | null => exact without (.pure _)
  | reference id name => exact without (Evaluation.raisesAt_resolve annotations id name)
  | constructor id of =>
      refine Eval.RaisesAt.place_of_located ?_ fails
      exact .bind (quiet.raisesAt .ofType) fun _ _ _ => .make _
  | array id items =>
      refine Eval.RaisesAt.place_of_located (.bind (Evaluation.raisesAt_typeOf _ _)
        fun type middle ranType => ?_) fails
      obtain ⟨typed, rfl⟩ := Eval.run_ofExcept_eq_done.mp ranType
      exact .bind (quiet.raisesAt (.items typed)) fun _ last _ => Evaluation.raisesAt_settle last _
  | paren id inner => exact Eval.RaisesAt.place_of_located (quiet.raisesAt .inner) fails
  | field id stem name =>
      have missing : .null ∈ (Node.field id stem name).raises := by simp [Node.raises]
      refine Eval.RaisesAt.place_of_located ?_ fails
      exact .bind (quiet.raisesAt .stem) fun _ _ _ => Evaluation.raisesAt_readField missing _ name
  | index id stem position =>
      have missing : .null ∈ (Node.index id stem position).raises := by simp [Node.raises]
      have outside : .index ∈ (Node.index id stem position).raises := by simp [Node.raises]
      refine Eval.RaisesAt.place_of_located ?_ fails
      exact .bind (quiet.raisesAt .array) fun array _ ranStem =>
        .bind (Evaluation.raisesAt_extent missing _) fun length _ measured =>
        .bind (quiet.raisesAt (.position ranStem measured)) fun index _ _ =>
        .bind (.ofExcept (raisesOnly_check outside _ _)) fun place _ _ =>
        Evaluation.raisesAt_readElement _ _
  | call id callee arguments =>
      refine Eval.RaisesAt.place_of_located ?_ fails
      exact .bind (quiet.raisesAt .callee) fun function _ ranCallee =>
        .bind (quiet.raisesAt (.arguments ranCallee)) fun values _ ranArguments =>
        raisesAt_apply quiet ranCallee ranArguments
  | diadic id left op right =>
      have mismatches : .length ∈ (Node.diadic id left op right).raises := by simp [Node.raises]
      have divides : .arithmetic ∈ (Node.diadic id left op right).raises := by simp [Node.raises]
      refine Eval.RaisesAt.place_of_located (.bind (Evaluation.raisesAt_typeOf _ _)
        fun leftType middle ranType => ?_) fails
      obtain ⟨leftTyped, rfl⟩ := Eval.run_ofExcept_eq_done.mp ranType
      refine .bind (Evaluation.raisesAt_typeOf _ _) fun rightType middle ranType => ?_
      obtain ⟨rightTyped, rfl⟩ := Eval.run_ofExcept_eq_done.mp ranType
      refine .bind (quiet.raisesAt (.left leftTyped rightTyped)) fun leftValue middle ranLeft => ?_
      split
      · exact .keep _
      · next undecided =>
        exact .bind (quiet.raisesAt (.right leftTyped rightTyped ranLeft undecided)) fun _ _ _ =>
          Evaluation.raisesAt_operate fun heap =>
            Operation.raisesOnly_diadic divides mismatches heap op leftType rightType _ _
  | monadic id op operand =>
      have divides : .arithmetic ∈ (Node.monadic id op operand).raises := by simp [Node.raises]
      have empties : .empty ∈ (Node.monadic id op operand).raises := by simp [Node.raises]
      refine Eval.RaisesAt.place_of_located ?_ fails
      exact .bind (quiet.raisesAt .operand) fun _ _ _ =>
        .bind (Evaluation.raisesAt_typeOf _ _) fun type _ _ =>
        Evaluation.raisesAt_operate fun heap =>
          Operation.raisesOnly_monadic divides empties heap op type _
  | monadicFork id fork operand =>
      have mismatches : .length ∈ (Node.monadicFork id fork operand).raises := by
        simp [Node.raises]
      have divides : .arithmetic ∈ (Node.monadicFork id fork operand).raises := by
        simp [Node.raises]
      have empties : .empty ∈ (Node.monadicFork id fork operand).raises := by simp [Node.raises]
      refine Eval.RaisesAt.place_of_located ?_ fails
      exact .bind (quiet.raisesAt .forked) fun _ _ _ =>
        .bind (Evaluation.raisesAt_typeOf _ _) fun type _ _ =>
        Evaluation.raisesAt_operate fun heap =>
          Operation.raisesOnly_monadicFork divides empties mismatches heap fork type _
  | diadicFork id left fork right =>
      have mismatches : .length ∈ (Node.diadicFork id left fork right).raises := by
        simp [Node.raises]
      have divides : .arithmetic ∈ (Node.diadicFork id left fork right).raises := by
        simp [Node.raises]
      refine Eval.RaisesAt.place_of_located ?_ fails
      exact .bind (quiet.raisesAt .forkedLeft) fun _ _ ranLeft =>
        .bind (quiet.raisesAt (.forkedRight ranLeft)) fun _ _ _ =>
        .bind (Evaluation.raisesAt_typeOf _ _) fun leftType _ _ =>
        .bind (Evaluation.raisesAt_typeOf _ _) fun rightType _ _ =>
        Evaluation.raisesAt_operate fun heap =>
          Operation.raisesOnly_diadicFork divides mismatches heap fork leftType rightType _ _
  | assign id target source => exact own_of_assignment quiet fails
  | _ => exact without (.fail rfl)

/-- A condition raises the errors of its test. -/
theorem raisesAt_condition {depth : Nat} {test : Node} {machine : Machine}
    (tested : (evaluate annotations (callsTo annotations depth) test).RaisesAt kinds machine) :
    (condition annotations (callsTo annotations depth) test).RaisesAt kinds machine :=
  .bind tested fun _ _ _ => .bind (Evaluation.raisesAt_typeOf _ _) fun type _ _ =>
    .bind (.look _) fun heap _ _ => .ofExcept (raisesOnly_holds heap type _)

omit [NumericLibrary] in
/-- Binding a name raises no errors. -/
theorem raisesAt_declare (name : String) (value : Copy) (machine : Machine) :
    (Eval.declare name value).RaisesAt kinds machine :=
  .of_done rfl

/-- A statement raises nothing unless something fails that it runs. -/
theorem raisesAt_statement {depth limit : Nat} {node : Node} {machine : Machine}
    (quiet : Quiet annotations (.statement depth limit node) machine) :
    (execute annotations (callsTo annotations depth) limit node).RaisesAt kinds machine := by
  cases node with
  | block id body =>
      intro failure fails
      exact quiet.raisesAt .block failure (Eval.FailsAt.within_iff.mp fails)
  | «variable» id name initial =>
      exact .bind (quiet.raisesAt .initial) fun _ _ _ =>
        .bind (Evaluation.raisesAt_typeOf _ _) fun _ _ _ => .bind (.keep _) fun _ _ _ =>
        .bind (raisesAt_declare name _ _) fun _ _ _ => .pure _
  | expression id inner => exact .bind (quiet.raisesAt .effect) fun _ _ _ => .pure _
  | branch id test accepted rejected =>
      unfold execute
      refine .bind (raisesAt_condition (quiet.raisesAt .test)) fun holds middle tested => ?_
      cases holds with
      | true => exact quiet.raisesAt (.accepted tested)
      | false =>
          cases rejected with
          | none => exact .pure _
          | some rejected => exact quiet.raisesAt (.rejected tested)
  | loop id test body => exact quiet.raisesAt .loop
  | «return» id result =>
      cases result with
      | none => exact .pure _
      | some result => exact .bind (quiet.raisesAt .result) fun _ _ _ => .pure _
  | function id name parameters body =>
      exact .bind (raisesAt_declare name _ _) fun _ _ _ => .pure _
  | struct id name fields => exact .bind (raisesAt_declare name _ _) fun _ _ _ => .pure _
  | _ => exact .fail rfl

/-- A runtime error in a piece in which nothing fails that it runs arose in a step of an expression
itself. -/
theorem own {piece : Piece} {machine : Machine} {error : RuntimeError} {place : Option String}
    (quiet : piece.Quiet annotations machine)
    (fails : piece.FailsAt annotations machine (.runtime error place)) :
    ∃ depth culprit, piece = .expression depth culprit ∧ place = some culprit.contents ∧
      error.kind ∈ culprit.raises := by
  -- Only expressions take steps that raise anything.
  have without (raisesNothing : (piece.computation annotations).RaisesAt [] machine) :
      ∃ depth culprit, piece = .expression depth culprit ∧ place = some culprit.contents ∧
        error.kind ∈ culprit.raises :=
    absurd (raisesNothing _ fails error place rfl).2 List.not_mem_nil
  cases piece with
  | expression depth node => exact ⟨depth, node, rfl, own_of_expression quiet fails⟩
  | row depth nodes =>
      cases nodes with
      | nil => exact without (.pure _)
      | cons node nodes =>
          exact without (.bind (quiet.raisesAt .firstOf) fun _ _ ranFirst =>
            .bind (quiet.raisesAt (.othersOf ranFirst)) fun _ _ _ => .pure _)
  | statement depth limit node => exact without (raisesAt_statement quiet)
  | sequence depth limit nodes =>
      cases nodes with
      | nil => exact without (.pure _)
      | cons node nodes =>
          refine without (.bind (quiet.raisesAt .firstStatement) fun control _ ranFirst => ?_)
          cases control with
          | normal => exact quiet.raisesAt (.otherStatements ranFirst)
          | returned value => exact .pure _
  | rounds depth limit test body left =>
      cases left with
      | zero => exact without .unfinished
      | succ left =>
          refine without (.bind (raisesAt_condition (quiet.raisesAt .roundTest))
            fun holds _ tested => ?_)
          cases holds with
          | false => exact .pure _
          | true =>
              refine .bind (quiet.raisesAt (.round tested)) fun control _ ranRound => ?_
              cases control with
              | normal => exact quiet.raisesAt (.otherRounds tested ranRound)
              | returned value => exact .pure _
  | program limit root =>
      refine without ?_
      change (Execution.program annotations limit root).RaisesAt [] machine
      unfold Execution.program
      split
      · next body isProgram =>
        exact .bind (quiet.raisesAt (.statements isProgram)) fun _ _ _ => .pure _
      · exact .fail rfl

/-! ### Where errors arise -/

/-- A runtime error that comes out of a piece arose in a step of an expression that the piece
reaches, and its place is the text of that expression. -/
theorem arises (piece : Piece) (machine : Machine) (error : RuntimeError) (place : Option String)
    (fails : piece.FailsAt annotations machine (.runtime error place)) :
    ∃ depth culprit start,
      Reaches annotations piece machine (.expression depth culprit) start ∧
      FailsAt annotations (.expression depth culprit) start (.runtime error place) ∧
      Quiet annotations (.expression depth culprit) start ∧
      place = some culprit.contents ∧ error.kind ∈ culprit.raises := by
  -- The induction is on the size of the piece, and the pieces that it runs are smaller.
  by_cases inPart : ∃ part start failure, Runs annotations piece machine part start ∧
      part.FailsAt annotations start failure
  · obtain ⟨part, start, failure, runs, partFails⟩ := inPart
    have placed (error : RuntimeError) : failure ≠ .runtime error none := by
      rintro rfl
      obtain ⟨_, culprit, _, -, -, -, atCulprit, -⟩ := arises part start error none partFails
      cases atCulprit
    -- The piece fails with whatever the part fails with, so this is the error that was seen.
    obtain rfl := (FailsAt.of_runs runs placed partFails).unique fails
    obtain ⟨depth, culprit, origin, reached, rest⟩ := arises part start error place partFails
    exact ⟨depth, culprit, origin, .head runs reached, rest⟩
  · have quiet : piece.Quiet annotations machine :=
      fun part start failure runs partFails => inPart ⟨part, start, failure, runs, partFails⟩
    obtain ⟨depth, culprit, rfl, atCulprit, raises⟩ := own quiet fails
    exact ⟨depth, culprit, machine, .refl, fails, quiet, atCulprit, raises⟩
termination_by (piece.depth, piece.size, piece.roundsLeft)
decreasing_by all_goals exact runs.smaller

/-- A runtime error that comes out of a piece has a place. -/
theorem FailsAt.placed {piece : Piece} {machine : Machine} {failure : Failure}
    (fails : piece.FailsAt annotations machine failure) (error : RuntimeError) :
    failure ≠ .runtime error none := by
  rintro rfl
  obtain ⟨_, culprit, _, -, -, -, atCulprit, -⟩ := arises piece machine error none fails
  cases atCulprit

end Piece

/-! ### Reports -/

/-- How a program ends when its runtime errors are reported. -/
def Outcome.reported : Outcome Copy → Outcome Execution.Reported
  | .done value machine => .done (.value value) machine
  | .failed (.runtime error place) machine =>
      .done (.report ⟨error.kind.label, error.message, place⟩) machine
  | .failed failure machine => .failed failure machine
  | .unfinished => .unfinished

/-- A program that is stopped by a runtime error ends with a report of it, and with anything else it
ends as it does without reports. -/
theorem run_reportedProgram (annotations : Annotations) (limit : Nat) (root : Node)
    (machine : Machine) :
    (reportedProgram annotations limit root).run machine =
      ((program annotations limit root).run machine).reported := by
  simp only [Eval.run, reportedProgram]
  cases program annotations limit root machine with
  | failed failure final => cases failure <;> rfl
  | done value final => rfl
  | unfinished => rfl

/-- **Runtime errors are placed where they arise.**

* If a piece of a run `FailsAt` a machine with `.runtime error place`, then it `Reaches` an
  expression `culprit` that fails with the same error in a step of its own (`Quiet`: nothing that
  the expression ran had failed, the statements of a function it called included),
  `place = some culprit.contents`, and `error.kind ∈ culprit.raises`.
* If a piece `Runs` a part that fails, then it fails with the failure of the part.
* `reportedProgram` gives `⟨error.kind.label, error.message, some place⟩` exactly where `program`
  fails with `.runtime error (some place)`. Otherwise both end alike. -/
theorem runtime_errors_placed (annotations : Annotations) :
    (∀ piece machine error place,
      Piece.FailsAt annotations piece machine (.runtime error place) →
      ∃ depth culprit start,
        Piece.Reaches annotations piece machine (.expression depth culprit) start ∧
        Piece.FailsAt annotations (.expression depth culprit) start (.runtime error place) ∧
        Piece.Quiet annotations (.expression depth culprit) start ∧
        place = some culprit.contents ∧ error.kind ∈ culprit.raises) ∧
    (∀ piece machine part start failure, Piece.Runs annotations piece machine part start →
      Piece.FailsAt annotations part start failure →
      Piece.FailsAt annotations piece machine failure) ∧
    ∀ limit root machine final,
      (∀ report, (reportedProgram annotations limit root).run machine =
          .done (.report report) final ↔
        ∃ error place, (program annotations limit root).run machine =
            .failed (.runtime error (some place)) final ∧
          report = ⟨error.kind.label, error.message, some place⟩) ∧
      (∀ value, (reportedProgram annotations limit root).run machine =
          .done (.value value) final ↔
        (program annotations limit root).run machine = .done value final) ∧
      ∀ failure, (reportedProgram annotations limit root).run machine = .failed failure final ↔
        (program annotations limit root).run machine = .failed failure final ∧
          failure.report? = none := by
  refine ⟨Piece.arises, fun piece machine part start failure runs fails =>
    Piece.FailsAt.of_runs runs fails.placed fails, fun limit root machine final => ?_⟩
  rw [run_reportedProgram]
  cases ran : (program annotations limit root).run machine with
  | done value last => simp [Outcome.reported]
  | unfinished => simp [Outcome.reported]
  | failed failure last =>
      cases failure with
      | runtime error place =>
          have fails : (Piece.program limit root).FailsAt annotations machine
            (.runtime error place) := ⟨last, ran⟩
          cases place with
          -- Every runtime error that leaves a piece has its place already.
          | none => exact absurd rfl (fails.placed error)
          | some place =>
              refine ⟨fun report => ⟨fun ended => ?_, ?_⟩, by simp [Outcome.reported],
                fun failure => ⟨fun ended => ?_, ?_⟩⟩
              · cases ended
                exact ⟨error, place, rfl, rfl⟩
              · rintro ⟨error', place', same, rfl⟩
                cases same
                rfl
              · cases ended
              · rintro ⟨same, unreported⟩
                cases same
                cases unreported
      | _ => simp [Outcome.reported, Failure.report?]

omit [NumericLibrary] in
/-- The field of a field of `null`: the inner one fails, in whatever blocks it stands. -/
theorem runtime_errors_placed_null :
    letI : NumericLibrary := .standard
    let inner := Node.field 2 (.null 1) "x"
    let outer := Node.field 4 (.paren 3 inner) "y"
    let root := Node.root 7 [.block 6 [.expression 5 outer]]
    let failure := Failure.runtime (.nullDereference .field) (some inner.contents)
    Piece.FailsAt .empty (.program 1 root) .initial failure ∧
      (∃ depth culprit start,
        Piece.Reaches .empty (.program 1 root) .initial (.expression depth culprit) start ∧
        some inner.contents = some culprit.contents ∧ ErrorKind.null ∈ culprit.raises) ∧
      ∃ final, (reportedProgram .empty 1 root).run .initial =
        .done (.report ⟨"null", "accessing field of null object", some inner.contents⟩) final := by
  let : NumericLibrary := .standard
  intro inner outer root failure
  obtain ⟨arises, -, reported⟩ := runtime_errors_placed .empty
  have fails : Piece.FailsAt .empty (.program 1 root) .initial failure := ⟨_, rfl⟩
  obtain ⟨depth, culprit, start, reached, -, -, atCulprit, raises⟩ := arises _ _ _ _ fails
  obtain ⟨final, ran⟩ := fails
  have report := ((reported 1 root .initial final).1 _).mpr ⟨_, _, ran, rfl⟩
  exact ⟨⟨final, ran⟩, ⟨depth, culprit, start, reached, atCulprit, raises⟩, final, report⟩

end ArrayForks
