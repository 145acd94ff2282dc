import ArrayForks.Evaluation

/-! # Statements and programs

How the nodes that are statements execute. A statement ends normally or returns a value, and a
returned value passes through every statement around it up to the call or the program. Loops and
calls are limited, a loop in its rounds and calls in their depth; within a limit that is large
enough a program ends as it would without one.

* **`execute annotations calls limit node : Eval Control`** is the execution of a node, with a
  limit on the rounds of each loop.
* **`callsTo annotations limit : Calls`** runs the bodies of functions to a limited depth.
* **`program annotations limit root : Eval Copy`** is the run of a whole program, and
  **`reportedProgram`** the same with its runtime error as a report. -/

namespace ArrayForks

/-- How a statement ends. -/
inductive Control where
  /-- The next statement follows. -/
  | normal
  /-- The call or the program ends with a value. -/
  | returned (value : Copy)
  deriving DecidableEq

/-- The value of a call or a program that ends like this. -/
def Control.result : Control → Copy
  | .normal => .new .null
  | .returned value => value

namespace Execution

open Evaluation (evaluate typeOf widen)

variable [NumericLibrary]

/-- Evaluate a condition. -/
def condition (annotations : Annotations) (calls : Calls) (node : Node) : Eval Bool := do
  let result ← evaluate annotations calls node
  let type ← typeOf annotations node
  let heap ← Eval.look Machine.heap
  Eval.ofExcept (Operation.holds heap type result.value)

/-- Repeat a body while a condition holds, for at most `limit` rounds. -/
def repeatWhile (condition : Eval Bool) (body : Eval Control) : (limit : Nat) → Eval Control
  | 0 => Eval.unfinished
  | limit + 1 => do
      if ← condition then
        match ← body with
        | .normal => repeatWhile condition body limit
        | .returned value => pure (.returned value)
      else pure .normal

mutual

/-- Execute a node. -/
def execute (annotations : Annotations) (calls : Calls) (limit : Nat) (node : Node) :
    Eval Control :=
  match node with
  | .block _ body => Eval.inBlock (executeAll annotations calls limit body)
  | .variable _ name initial => do
      let value ← evaluate annotations calls initial
      let type ← typeOf annotations node
      let value ← Eval.keep (widen type value)
      Eval.declare name value
      pure .normal
  | .expression _ inner => do
      let _ ← evaluate annotations calls inner
      pure .normal
  | .branch _ test accepted rejected => do
      if ← condition annotations calls test then execute annotations calls limit accepted
      else
        match rejected with
        | some rejected => execute annotations calls limit rejected
        | none => pure .normal
  | .loop _ test body =>
      repeatWhile (condition annotations calls test) (execute annotations calls limit body) limit
  | .return _ none => pure (.returned (.new .null))
  | .return _ (some result) => do
      let value ← evaluate annotations calls result
      pure (.returned value)
  | .function id name _ _ => do
      Eval.declare name (.new (.function name id))
      pure .normal
  | .struct id name _ => do
      Eval.declare name (.new (.type name id))
      pure .normal
  | node => Eval.fail (.violation (.notStatement node.kind))
termination_by structural node

/-- Execute nodes one after the other until one returns. -/
def executeAll (annotations : Annotations) (calls : Calls) (limit : Nat) :
    List Node → Eval Control
  | [] => pure .normal
  | node :: nodes => do
      match ← execute annotations calls limit node with
      | .normal => executeAll annotations calls limit nodes
      | .returned value => pure (.returned value)
termination_by structural nodes => nodes

end

/-- Bind the parameters of a function, and run its body as a block. -/
def callBody (annotations : Annotations) (calls : Calls) (limit : Nat)
    (parameters : List String) (body : List Node) (arguments : List Copy) : Eval Copy := do
  Eval.declareAll (parameters.zip arguments)
  if parameters.length = arguments.length then do
    let control ← Eval.inBlock (executeAll annotations calls limit body)
    pure control.result
  else Eval.fail .argumentCount

/-- Run the body of a function in a frame of its own, with at most `limit` calls within each
other. -/
def callsTo (annotations : Annotations) : (limit : Nat) → Calls
  | 0 => fun _ _ _ => Eval.unfinished
  | limit + 1 => fun parameters body arguments =>
      Eval.inCall (callBody annotations (callsTo annotations limit) limit parameters body arguments)

/-- The statements of a program, which may also be given as a block. -/
def statements? : Node → Option (List Node)
  | .root _ body => some body
  | .block _ body => some body
  | _ => none

/-- Run a program: execute its statements in the global frame until one returns. -/
def program (annotations : Annotations) (limit : Nat) (root : Node) : Eval Copy :=
  match statements? root with
  | some body => do
      let control ← executeAll annotations (callsTo annotations limit) limit body
      pure control.result
  | none => Eval.fail .notAProgram

/-- The end of a run with its runtime errors reported: a value or a report, or another failure. -/
inductive Reported where
  /-- The program ended with a value. -/
  | value (value : Copy)
  /-- The program was stopped by a runtime error. -/
  | report (report : Report)

/-- Run a program and report a runtime error instead of failing with it. -/
def reportedProgram (annotations : Annotations) (limit : Nat) (root : Node) : Eval Reported :=
  fun machine =>
    match program annotations limit root machine with
    | .done value machine => .done (.value value) machine
    | .failed failure machine =>
        match failure.report? with
        | some report => .done (.report report) machine
        | none => .failed failure machine
    | .unfinished => .unfinished

end Execution

end ArrayForks
