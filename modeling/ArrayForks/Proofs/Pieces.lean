import Mathlib.Logic.Relation
import ArrayForks.Execution

/-! # Pieces of a run

A run is made of pieces: an expression evaluates the expressions in it and runs the statements of the
function that it calls, a statement executes the statements in it, and so on, each in turn and each
from the machine that the ones before it left. Which pieces a run comes to, and from which machines,
is a relation between pieces with their machines. -/

namespace ArrayForks

open Evaluation (evaluate evaluateAll extent decided?)
open Execution (condition execute executeAll repeatWhile callsTo)

/-- What a run is made of. Calls may go `depth` levels deep within each other, and loops may go on
for `limit` rounds. -/
inductive Piece where
  /-- An expression. -/
  | expression (depth : Nat) (node : Node)
  /-- Expressions from left to right. -/
  | row (depth : Nat) (nodes : List Node)
  /-- A statement. -/
  | statement (depth limit : Nat) (node : Node)
  /-- Statements one after the other. -/
  | sequence (depth limit : Nat) (nodes : List Node)
  /-- The rounds of a loop that are left. -/
  | rounds (depth limit : Nat) (test body : Node) (left : Nat)
  /-- A program. -/
  | program (limit : Nat) (root : Node)

namespace Piece

/-- What a piece results in. -/
def Result : Piece → Type
  | .expression _ _ | .program _ _ => Copy
  | .row _ _ => List Copy
  | .statement _ _ _ | .sequence _ _ _ | .rounds _ _ _ _ _ => Control

variable [NumericLibrary]

/-- The computation of a piece. -/
def computation (annotations : Annotations) : (piece : Piece) → Eval piece.Result
  | .expression depth node => evaluate annotations (callsTo annotations depth) node
  | .row depth nodes => evaluateAll annotations (callsTo annotations depth) nodes
  | .statement depth limit node => execute annotations (callsTo annotations depth) limit node
  | .sequence depth limit nodes => executeAll annotations (callsTo annotations depth) limit nodes
  | .rounds depth limit test body left =>
      repeatWhile (condition annotations (callsTo annotations depth) test)
        (execute annotations (callsTo annotations depth) limit body) left
  | .program limit root => Execution.program annotations limit root

/-- A piece comes to run another one, given the machines from which both are run. The pieces before
it have ended then, and nothing has gone wrong between them. -/
inductive Runs (annotations : Annotations) : Piece → Machine → Piece → Machine → Prop where
  /-- The type of a constructor. -/
  | ofType {depth id of machine} :
      Runs annotations (.expression depth (.constructor id of)) machine (.expression depth of)
        machine
  /-- The elements of an array. -/
  | items {depth id items type machine} (typed : annotations.typeOf (.array id items) = .ok type) :
      Runs annotations (.expression depth (.array id items)) machine (.row depth items) machine
  /-- The expression in parentheses. -/
  | inner {depth id inner machine} :
      Runs annotations (.expression depth (.paren id inner)) machine (.expression depth inner)
        machine
  /-- What a field is read of. -/
  | stem {depth id stem name machine} :
      Runs annotations (.expression depth (.field id stem name)) machine (.expression depth stem)
        machine
  /-- What an element is read of. -/
  | array {depth id stem position machine} :
      Runs annotations (.expression depth (.index id stem position)) machine
        (.expression depth stem) machine
  /-- The index of an element that is read. -/
  | position {depth id stem position machine array middle length last}
      (ranStem : (evaluate annotations (callsTo annotations depth) stem).run machine =
        .done array middle)
      (measured : (extent array.value).run middle = .done length last) :
      Runs annotations (.expression depth (.index id stem position)) machine
        (.expression depth position) last
  /-- What is called. -/
  | callee {depth id callee arguments machine} :
      Runs annotations (.expression depth (.call id callee arguments)) machine
        (.expression depth callee) machine
  /-- The arguments of a call. -/
  | arguments {depth id callee arguments machine function middle}
      (ranCallee : (evaluate annotations (callsTo annotations depth) callee).run machine =
        .done function middle) :
      Runs annotations (.expression depth (.call id callee arguments)) machine
        (.row depth arguments) middle
  /-- The body of a function that is called, in a frame with its parameters. -/
  | called {depth id callee arguments machine function middle values last name declaration
        declaredName parameters body bound}
      (ranCallee : (evaluate annotations (callsTo annotations (depth + 1)) callee).run machine =
        .done function middle)
      (ranArguments :
        (evaluateAll annotations (callsTo annotations (depth + 1)) arguments).run middle =
          .done values last)
      (isFunction : function.value = .function name declaration)
      (declared : annotations.declaration? declaration =
        some (.function declaredName parameters body))
      (ranParameters : (Eval.declareAll (parameters.zip values)).run
        (last.enter FrameTree.callFrame) = .done () bound)
      (fit : parameters.length = values.length) :
      Runs annotations (.expression (depth + 1) (.call id callee arguments)) machine
        (.sequence depth depth body) (bound.enter FrameTree.child)
  /-- The left operand of a diadic operator. -/
  | left {depth id left op right leftType rightType machine}
      (leftTyped : annotations.typeOf left = .ok leftType)
      (rightTyped : annotations.typeOf right = .ok rightType) :
      Runs annotations (.expression depth (.diadic id left op right)) machine
        (.expression depth left) machine
  /-- The right operand of a diadic operator, unless the left one has decided. -/
  | right {depth id left op right leftType rightType machine leftValue middle}
      (leftTyped : annotations.typeOf left = .ok leftType)
      (rightTyped : annotations.typeOf right = .ok rightType)
      (ranLeft : (evaluate annotations (callsTo annotations depth) left).run machine =
        .done leftValue middle)
      (undecided : decided? op leftType rightType leftValue.value = none) :
      Runs annotations (.expression depth (.diadic id left op right)) machine
        (.expression depth right) middle
  /-- The operand of a monadic operator. -/
  | operand {depth id op operand machine} :
      Runs annotations (.expression depth (.monadic id op operand)) machine
        (.expression depth operand) machine
  /-- The operand of a monadic fork. -/
  | forked {depth id fork operand machine} :
      Runs annotations (.expression depth (.monadicFork id fork operand)) machine
        (.expression depth operand) machine
  /-- The left operand of a diadic fork. -/
  | forkedLeft {depth id left fork right machine} :
      Runs annotations (.expression depth (.diadicFork id left fork right)) machine
        (.expression depth left) machine
  /-- The right operand of a diadic fork. -/
  | forkedRight {depth id left fork right machine leftValue middle}
      (ranLeft : (evaluate annotations (callsTo annotations depth) left).run machine =
        .done leftValue middle) :
      Runs annotations (.expression depth (.diadicFork id left fork right)) machine
        (.expression depth right) middle
  /-- The value that is assigned to a variable. -/
  | toName {depth id reference name source type machine}
      (typed : annotations.typeOf (.assign id (.reference reference name) source) = .ok type) :
      Runs annotations (.expression depth (.assign id (.reference reference name) source)) machine
        (.expression depth source) machine
  /-- The array whose element is assigned. -/
  | targetArray {depth id target stem position source type machine}
      (typed : annotations.typeOf (.assign id (.index target stem position) source) = .ok type) :
      Runs annotations (.expression depth (.assign id (.index target stem position) source)) machine
        (.expression depth stem) machine
  /-- The index of the element that is assigned. -/
  | targetPosition {depth id target stem position source type machine array middle length last}
      (typed : annotations.typeOf (.assign id (.index target stem position) source) = .ok type)
      (ranStem : (evaluate annotations (callsTo annotations depth) stem).run machine =
        .done array middle)
      (measured : (extent array.value).run middle = .done length last) :
      Runs annotations (.expression depth (.assign id (.index target stem position) source)) machine
        (.expression depth position) last
  /-- The value that is assigned to an element. -/
  | toElement {depth id target stem position source type machine array middle length last index
        next place}
      (typed : annotations.typeOf (.assign id (.index target stem position) source) = .ok type)
      (ranStem : (evaluate annotations (callsTo annotations depth) stem).run machine =
        .done array middle)
      (measured : (extent array.value).run middle = .done length last)
      (ranPosition : (evaluate annotations (callsTo annotations depth) position).run last =
        .done index next)
      (checked : Index.check index.value length = .ok place) :
      Runs annotations (.expression depth (.assign id (.index target stem position) source)) machine
        (.expression depth source) next
  /-- The structure whose field is assigned. -/
  | targetStem {depth id target stem name source type machine}
      (typed : annotations.typeOf (.assign id (.field target stem name) source) = .ok type) :
      Runs annotations (.expression depth (.assign id (.field target stem name) source)) machine
        (.expression depth stem) machine
  /-- The value that is assigned to a field. -/
  | toField {depth id target stem name source type machine object middle}
      (typed : annotations.typeOf (.assign id (.field target stem name) source) = .ok type)
      (ranStem : (evaluate annotations (callsTo annotations depth) stem).run machine =
        .done object middle)
      (there : object.value ≠ .null) :
      Runs annotations (.expression depth (.assign id (.field target stem name) source)) machine
        (.expression depth source) middle
  /-- The first of several expressions. -/
  | firstOf {depth node nodes machine} :
      Runs annotations (.row depth (node :: nodes)) machine (.expression depth node) machine
  /-- The expressions after the first. -/
  | othersOf {depth node nodes machine value middle}
      (ranFirst : (evaluate annotations (callsTo annotations depth) node).run machine =
        .done value middle) :
      Runs annotations (.row depth (node :: nodes)) machine (.row depth nodes) middle
  /-- The statements of a block, in a frame of their own. -/
  | block {depth limit id body machine} :
      Runs annotations (.statement depth limit (.block id body)) machine
        (.sequence depth limit body) (machine.enter FrameTree.child)
  /-- The first value of a variable. -/
  | initial {depth limit id name initial machine} :
      Runs annotations (.statement depth limit (.variable id name initial)) machine
        (.expression depth initial) machine
  /-- An expression as a statement. -/
  | effect {depth limit id inner machine} :
      Runs annotations (.statement depth limit (.expression id inner)) machine
        (.expression depth inner) machine
  /-- The condition of a choice. -/
  | test {depth limit id test accepted rejected machine} :
      Runs annotations (.statement depth limit (.branch id test accepted rejected)) machine
        (.expression depth test) machine
  /-- What is executed if a condition holds. -/
  | accepted {depth limit id test accepted rejected machine middle}
      (holds : (condition annotations (callsTo annotations depth) test).run machine =
        .done true middle) :
      Runs annotations (.statement depth limit (.branch id test accepted rejected)) machine
        (.statement depth limit accepted) middle
  /-- What is executed otherwise. -/
  | rejected {depth limit id test accepted rejected machine middle}
      (refused : (condition annotations (callsTo annotations depth) test).run machine =
        .done false middle) :
      Runs annotations (.statement depth limit (.branch id test accepted (some rejected))) machine
        (.statement depth limit rejected) middle
  /-- The rounds of a loop. -/
  | loop {depth limit id test body machine} :
      Runs annotations (.statement depth limit (.loop id test body)) machine
        (.rounds depth limit test body limit) machine
  /-- The value that is returned. -/
  | result {depth limit id result machine} :
      Runs annotations (.statement depth limit (.return id (some result))) machine
        (.expression depth result) machine
  /-- The first of several statements. -/
  | firstStatement {depth limit node nodes machine} :
      Runs annotations (.sequence depth limit (node :: nodes)) machine (.statement depth limit node)
        machine
  /-- The statements after the first. -/
  | otherStatements {depth limit node nodes machine middle}
      (ranFirst : (execute annotations (callsTo annotations depth) limit node).run machine =
        .done .normal middle) :
      Runs annotations (.sequence depth limit (node :: nodes)) machine
        (.sequence depth limit nodes) middle
  /-- The condition of a loop before its first round. -/
  | roundTest {depth limit test body left machine} :
      Runs annotations (.rounds depth limit test body (left + 1)) machine (.expression depth test)
        machine
  /-- The first round of a loop. -/
  | round {depth limit test body left machine middle}
      (holds : (condition annotations (callsTo annotations depth) test).run machine =
        .done true middle) :
      Runs annotations (.rounds depth limit test body (left + 1)) machine
        (.statement depth limit body) middle
  /-- The rounds of a loop after the first. -/
  | otherRounds {depth limit test body left machine middle last}
      (holds : (condition annotations (callsTo annotations depth) test).run machine =
        .done true middle)
      (ranRound : (execute annotations (callsTo annotations depth) limit body).run middle =
        .done .normal last) :
      Runs annotations (.rounds depth limit test body (left + 1)) machine
        (.rounds depth limit test body left) last
  /-- The statements of a program. -/
  | statements {limit root body machine} (isProgram : Execution.statements? root = some body) :
      Runs annotations (.program limit root) machine (.sequence limit limit body) machine

/-- A piece comes to run another one, or a piece that it runs does, and so on. -/
def Reaches (annotations : Annotations) (piece : Piece) (machine : Machine) (part : Piece)
    (start : Machine) : Prop :=
  Relation.ReflTransGen
    (fun before after : Piece × Machine => Runs annotations before.1 before.2 after.1 after.2)
    (piece, machine) (part, start)

/-! ### The size of a piece -/

/-- How deep calls may still go in a piece. -/
def depth : Piece → Nat
  | .expression depth _ | .row depth _ | .statement depth _ _ | .sequence depth _ _
  | .rounds depth _ _ _ _ | .program depth _ => depth

/-- The size of the program text of a piece. -/
noncomputable def size : Piece → Nat
  | .expression _ node | .statement _ _ node => sizeOf node
  | .row _ nodes | .sequence _ _ nodes => sizeOf nodes
  | .rounds _ _ test body _ => sizeOf test + sizeOf body
  | .program _ root => sizeOf root

/-- How many rounds are left of a loop. -/
def roundsLeft : Piece → Nat
  | .rounds _ _ _ _ left => left
  | _ => 0

omit [NumericLibrary] in
/-- The statements of a program are smaller than the program. -/
theorem sizeOf_statements {root : Node} {body : List Node}
    (isProgram : Execution.statements? root = some body) : sizeOf body < sizeOf root := by
  cases root with
  | block id statements =>
      cases isProgram
      simp only [Node.block.sizeOf_spec]
      omega
  | root id statements =>
      cases isProgram
      simp only [Node.root.sizeOf_spec]
      omega
  | _ => cases isProgram

variable {annotations : Annotations}

/-- What every piece passes on to the pieces that it runs holds of all that a piece reaches. -/
theorem Reaches.along {piece part : Piece} {machine start : Machine}
    (reaches : Reaches annotations piece machine part start) (holds : Piece → Machine → Prop)
    (atStart : holds piece machine)
    (step : ∀ piece machine part start, Runs annotations piece machine part start →
      holds piece machine → holds part start) : holds part start := by
  have along (last : Piece × Machine) (path : Relation.ReflTransGen
      (fun before after : Piece × Machine => Runs annotations before.1 before.2 after.1 after.2)
      (piece, machine) last) : holds last.1 last.2 := by
    induction path with
    | refl => exact atStart
    | tail _ runs inductionHypothesis => exact step _ _ _ _ runs inductionHypothesis
  exact along (part, start) reaches

/-- A piece that is run goes less deep, or else it is of less text, or else it has fewer rounds
left. -/
theorem Runs.smaller {piece part : Piece} {machine start : Machine}
    (runs : Runs annotations piece machine part start) :
    Prod.Lex (· < ·) (Prod.Lex (· < ·) (· < ·)) (part.depth, part.size, part.roundsLeft)
      (piece.depth, piece.size, piece.roundsLeft) := by
  simp only [Prod.lex_def]
  cases runs with
  | statements isProgram => exact .inr ⟨rfl, .inl (sizeOf_statements isProgram)⟩
  | _ => simp [depth, size, roundsLeft] <;> omega

/-- What holds of a piece as soon as it holds of the pieces that it runs holds of every piece. -/
theorem induct (annotations : Annotations) {holds : Piece → Machine → Prop}
    (step : ∀ piece machine, (∀ part start, Runs annotations piece machine part start →
      holds part start) → holds piece machine) (piece : Piece) (machine : Machine) :
    holds piece machine :=
  step piece machine fun part start _ => induct annotations step part start
termination_by (piece.depth, piece.size, piece.roundsLeft)
decreasing_by exact Runs.smaller ‹_›

end Piece

end ArrayForks
