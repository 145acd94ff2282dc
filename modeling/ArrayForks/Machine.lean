import ArrayForks.FrameTree
import ArrayForks.Heap
import ArrayForks.Operand

/-! # The machine

The state of a running program: the frames with the variables, the heap, the number of copies kept,
and what has been printed. Frames stay in the tree when they are left, and so does every change to
them. A computation over the machine ends with a value or with a failure, and with the state in
either case, so that what happened before a failure stays; or it does not end within its limit.

* **`Eval α`** is a computation, and `computation.run machine : Outcome α` is `.done value final`,
  `.failed failure final` or `.unfinished`.
* **`Eval.within`** runs a computation in a frame that is opened for it, and comes back.
* **`Eval.keep`**, **`Eval.make`**, **`Eval.settle`** number copies, put objects into the heap,
  and turn operands into values. -/

namespace ArrayForks

/-- The state of a running program. -/
structure Machine where
  /-- The frames with the variables. -/
  frames : FrameTree Copy
  /-- The frame from which names are looked up, and in which they are declared. -/
  here : FrameId
  /-- The objects. -/
  heap : Heap
  /-- How many copies have been kept so far. -/
  made : Nat
  /-- What has been printed. -/
  output : String

namespace Machine

/-- The function that prints a value. -/
def printer : Copy :=
  .new (.builtin "print" 0)

/-- The machine before a program, in the root frame, which binds the printing function. -/
def initial : Machine where
  frames := .ofRoot (Bindings.ofList [("print", printer)])
  here := 0
  heap := .empty
  made := 0
  output := ""

/-- The machine in a new frame. -/
def enter (machine : Machine)
    (opening : FrameTree Copy → FrameId → FrameId × FrameTree Copy) : Machine :=
  { machine with
    frames := (opening machine.frames machine.here).2
    here := (opening machine.frames machine.here).1 }

end Machine

/-- How a computation ends. -/
inductive Outcome (α : Type) where
  /-- With a value. -/
  | done (value : α) (machine : Machine)
  /-- With a failure. -/
  | failed (failure : Failure) (machine : Machine)
  /-- Not within its limit. -/
  | unfinished

/-- The state at the end of a computation. -/
def Outcome.machine? {α : Type} : Outcome α → Option Machine
  | .done _ machine => some machine
  | .failed _ machine => some machine
  | .unfinished => none

/-- The same end in another frame. -/
def Outcome.backIn {α : Type} (here : FrameId) : Outcome α → Outcome α
  | .done value machine => .done value { machine with here }
  | .failed failure machine => .failed failure { machine with here }
  | .unfinished => .unfinished

/-- A computation over the machine. -/
def Eval (α : Type) := Machine → Outcome α

namespace Eval

variable {α β : Type}

/-- Run a computation. -/
def run (computation : Eval α) (machine : Machine) : Outcome α :=
  computation machine

instance : Monad Eval where
  pure value := fun machine => .done value machine
  bind computation next := fun machine =>
    match computation machine with
    | .done value machine => next value machine
    | .failed failure machine => .failed failure machine
    | .unfinished => .unfinished

/-- Giving a value leaves the machine as it is. -/
@[simp] theorem run_pure (value : α) (machine : Machine) :
    (pure value : Eval α).run machine = .done value machine :=
  rfl

/-- A sequence runs the first computation, and what follows only from a value. -/
theorem run_bind (computation : Eval α) (next : α → Eval β) (machine : Machine) :
    (computation >>= next).run machine =
      match computation.run machine with
      | .done value machine => (next value).run machine
      | .failed failure machine => .failed failure machine
      | .unfinished => .unfinished :=
  rfl

/-- What follows a computation starts where that one ended. -/
theorem run_bind_of_done {computation : Eval α} {machine middle : Machine} {value : α}
    (ran : computation.run machine = .done value middle) (next : α → Eval β) :
    (computation >>= next).run machine = (next value).run middle := by
  rw [run_bind, ran]

/-- A sequence fails in the first computation or in what follows it. -/
theorem failed_of_bind {computation : Eval α} {next : α → Eval β} {machine final : Machine}
    {failure : Failure} (ran : (computation >>= next).run machine = .failed failure final) :
    computation.run machine = .failed failure final ∨
      ∃ value middle, computation.run machine = .done value middle ∧
        (next value).run middle = .failed failure final := by
  rw [run_bind] at ran
  split at ran
  · next value middle first => exact .inr ⟨value, middle, first, ran⟩
  · next first =>
      cases ran
      exact .inl first
  · cases ran

/-- Fail. -/
def fail (failure : Failure) : Eval α :=
  fun machine => .failed failure machine

/-- Fail with a runtime error whose place is not known yet. -/
def raise (error : RuntimeError) : Eval α :=
  fail (.runtime error none)

/-- Do not end. -/
def unfinished : Eval α :=
  fun _ => .unfinished

/-- A computation without state. -/
def ofExcept : Except Failure α → Eval α
  | .ok value => pure value
  | .error failure => fail failure

/-- Look at the machine. -/
def look (view : Machine → α) : Eval α :=
  fun machine => .done (view machine) machine

/-- Change the machine. -/
def change (step : Machine → Machine) : Eval Unit :=
  fun machine => .done () (step machine)

/-- Failing leaves the machine as it is. -/
@[simp] theorem run_fail (failure : Failure) (machine : Machine) :
    (fail failure : Eval α).run machine = .failed failure machine :=
  rfl

/-- A result is given as it is. -/
@[simp] theorem run_ofExcept_ok (value : α) (machine : Machine) :
    (ofExcept (.ok value)).run machine = .done value machine :=
  rfl

/-- An error becomes a failure. -/
@[simp] theorem run_ofExcept_error (failure : Failure) (machine : Machine) :
    (ofExcept (.error failure) : Eval α).run machine = .failed failure machine :=
  rfl

/-- A computation without state ends with a value if that is its result, on the same machine. -/
theorem run_ofExcept_eq_done {result : Except Failure α} {value : α} {machine final : Machine} :
    (ofExcept result).run machine = .done value final ↔ result = .ok value ∧ machine = final := by
  cases result <;> simp

/-- A computation without state fails if its result is an error, on the same machine. -/
theorem run_ofExcept_eq_failed {result : Except Failure α} {failure : Failure}
    {machine final : Machine} :
    (ofExcept result).run machine = .failed failure final ↔
      result = .error failure ∧ machine = final := by
  cases result <;> simp

/-- A look gives what it sees and changes nothing. -/
@[simp] theorem run_look (view : Machine → α) (machine : Machine) :
    (look view).run machine = .done (view machine) machine :=
  rfl

/-- A change has no value. -/
@[simp] theorem run_change (step : Machine → Machine) (machine : Machine) :
    (change step).run machine = .done () (step machine) :=
  rfl

/-- Give a runtime error of a computation its place, unless it has one. -/
def locate (node : Unit → String) (computation : Eval α) : Eval α :=
  fun machine =>
    match computation machine with
    | .failed failure machine => .failed (failure.locate node) machine
    | outcome => outcome

/-- A value needs no place. -/
theorem run_locate_of_done {computation : Eval α} {machine final : Machine} {value : α}
    (ran : computation.run machine = .done value final) (node : Unit → String) :
    (locate node computation).run machine = .done value final := by
  simp only [run, locate] at ran ⊢
  rw [ran]

/-- A failure was there before it got its place. -/
theorem failed_of_locate {computation : Eval α} {machine final : Machine} {failure : Failure}
    {node : Unit → String} (ran : (locate node computation).run machine = .failed failure final) :
    ∃ inner, failure = inner.locate node ∧ computation.run machine = .failed inner final := by
  simp only [run, locate] at ran ⊢
  split at ran
  · next inner middle first =>
      cases ran
      exact ⟨inner, rfl, first⟩
  · next outcome ended =>
      exact absurd ran (ended failure final)

/-- Run a computation in a new frame, and come back to the frame before it however it ends. -/
def within (opening : FrameTree Copy → FrameId → FrameId × FrameTree Copy) (computation : Eval α) :
    Eval α :=
  fun machine =>
    let (here, frames) := opening machine.frames machine.here
    (computation { machine with frames, here }).backIn machine.here

/-- Run a computation in a new frame of a block. -/
def inBlock (computation : Eval α) : Eval α :=
  within FrameTree.child computation

/-- Run a computation in a new frame of a call, which lies within the root alone. -/
def inCall (computation : Eval α) : Eval α :=
  within FrameTree.callFrame computation

/-! ### Steps of a program -/

/-- Make an object. -/
def make (object : Object) : Eval Copy :=
  fun machine =>
    let (ref, heap) := machine.heap.alloc object
    .done (.new (.object ref)) { machine with heap }

/-- Making an object gives its place, `(machine.heap.alloc object).1`. -/
@[simp] theorem run_make (object : Object) (machine : Machine) :
    (make object).run machine =
      .done (.new (.object (machine.heap.alloc object).1))
        { machine with heap := (machine.heap.alloc object).2 } :=
  rfl

/-- Put another object at a place. -/
def replace (ref : Ref) (object : Object) : Eval Unit :=
  change fun machine => { machine with heap := machine.heap.replace ref object }

/-- Replacing an object changes the heap alone. -/
@[simp] theorem run_replace (ref : Ref) (object : Object) (machine : Machine) :
    (replace ref object).run machine =
      .done () { machine with heap := machine.heap.replace ref object } :=
  rfl

/-- Keep a copy that has been made. -/
def keep (copy : Copy) : Eval Copy :=
  fun machine =>
    .done (copy.keep machine.made) { machine with made := machine.made + 1 }

/-- Keeping a copy gives it the next number, `copy.keep machine.made`. -/
@[simp] theorem run_keep (copy : Copy) (machine : Machine) :
    (keep copy).run machine =
      .done (copy.keep machine.made) { machine with made := machine.made + 1 } :=
  rfl

mutual

/-- Keep an operand: an array that is no object yet becomes one, after those within it. -/
def settle : Operand → Eval Copy
  | .item copy => keep copy
  | .row parts => do
      let items ← settleAll parts
      make (.array items)

/-- Keep operands. -/
def settleAll : List Operand → Eval (List Copy)
  | [] => pure []
  | part :: parts => do
      let item ← settle part
      let items ← settleAll parts
      pure (item :: items)

end

/-- Copies are kept one after the other. -/
theorem run_settleAll_map_item (copies : List Copy) (machine : Machine) :
    (settleAll (copies.map .item)).run machine =
      .done (Copy.keepAll copies machine.made)
        { machine with made := machine.made + copies.length } := by
  induction copies generalizing machine with
  | nil => rfl
  | cons copy copies inductionHypothesis =>
      have rest := inductionHypothesis { machine with made := machine.made + 1 }
      have count : machine.made + 1 + copies.length = machine.made + (copies.length + 1) := by omega
      simp only [List.map_cons, settleAll, run_bind, settle, run_keep, rest, run_pure,
        Copy.keepAll, List.length_cons, count]

/-- A row of copies becomes one array of them, each kept. -/
theorem run_settle_ofList (copies : List Copy) (machine : Machine) :
    (settle (Nested.ofList copies)).run machine =
      (make (.array (Copy.keepAll copies machine.made))).run
        { machine with made := machine.made + copies.length } := by
  simp only [Nested.ofList, settle, run_bind, run_settleAll_map_item]

/-- Apply an operator, which sees the heap, and keep its result. -/
def operate (operator : Heap → Except Failure Operand) : Eval Copy := do
  let heap ← look Machine.heap
  let result ← ofExcept (operator heap)
  settle result

/-- Read a variable. -/
def readName (name : String) : Eval Copy := do
  let found ← look fun machine => machine.frames.lookup machine.here name
  ofExcept found

/-- Declare a variable in the frame itself. -/
def declare (name : String) (value : Copy) : Eval Unit :=
  change fun machine =>
    { machine with frames := machine.frames.insert machine.here name value }

/-- Declare variables one after the other. -/
def declareAll : List (String × Copy) → Eval Unit
  | [] => pure ()
  | (name, value) :: entries => do
      declare name value
      declareAll entries

/-- Write to a variable in the nearest frame that binds it. -/
def writeName (name : String) (value : Copy) : Eval Unit :=
  fun machine =>
    match machine.frames.owner? machine.here name with
    | some frame =>
        .done () { machine with frames := machine.frames.insert frame name value }
    | none => .failed (.undefinedTarget name) machine

/-- Print a line with the text of a value, which is the result as well. -/
def print (copy : Copy) : Eval Copy := do
  let heap ← look Machine.heap
  let text := (heap.unfold copy.value).text
  change fun machine => { machine with output := machine.output ++ text ++ "\n" }
  keep (copy.shown heap)

end Eval

end ArrayForks
