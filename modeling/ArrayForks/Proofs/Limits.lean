import ArrayForks.Execution

/-! # Limits

Runs are limited: loops in their rounds and calls in their depth. A limit decides whether a run ends,
and nothing else: a run that ends within its limits ends in the same way within any larger ones. So
what a program does is what it does within all limits that are large enough.

* **`Eval.EndsAs`**: where the one computation ends, the other one ends alike.
* **`Execution.execute_endsAs`**, **`Execution.callsTo_endAs`**: for `depth ≤ deeper` and
  `limit ≤ larger`, what ends within the lower limits ends alike within the higher ones. -/

namespace ArrayForks

open Evaluation (evaluate evaluateAll)
open Execution (condition execute executeAll repeatWhile callBody callsTo program)

/-- Two computations of which the first one ends as the second one does, if it ends at all. -/
def Eval.EndsAs {α : Type} (computation other : Eval α) : Prop :=
  ∀ machine, computation.run machine = .unfinished ∨ computation.run machine = other.run machine

/-- Two ways of running calls of which the first one ends as the second one does. -/
def Calls.EndAs (calls others : Calls) : Prop :=
  ∀ parameters body arguments,
    (calls parameters body arguments).EndsAs (others parameters body arguments)

/-! ### Sequences and frames -/

namespace Eval.EndsAs

variable {α β : Type} {computation other : Eval α}

/-- Every computation ends as it does itself. -/
theorem refl (computation : Eval α) : computation.EndsAs computation :=
  fun _ => .inr rfl

/-- What does not end at all ends as anything does. -/
theorem unfinished (other : Eval α) : Eval.unfinished.EndsAs other :=
  fun _ => .inl rfl

/-- A sequence ends as another one if its first computation does, and what follows each value. -/
theorem bind {next nextOther : α → Eval β} (first : computation.EndsAs other)
    (rest : ∀ value, (next value).EndsAs (nextOther value)) :
    (computation >>= next).EndsAs (other >>= nextOther) := by
  intro machine
  rw [run_bind, run_bind]
  rcases first machine with unended | same
  · exact .inl (by rw [unended])
  · rw [← same]
    cases computation.run machine with
    | done value middle => exact rest value middle
    | failed failure middle => exact .inr rfl
    | unfinished => exact .inl rfl

/-- Giving a failure its place does not change how a computation ends. -/
theorem locate (node : Unit → String) (located : computation.EndsAs other) :
    (Eval.locate node computation).EndsAs (Eval.locate node other) := by
  intro machine
  simp only [run, Eval.locate]
  rcases located machine with unended | same
  · simp only [run] at unended
    exact .inl (by rw [unended])
  · simp only [run] at same
    exact .inr (by rw [same])

/-- A computation in a new frame ends as another one if it does so in the frame. -/
theorem within (opening : FrameTree Copy → FrameId → FrameId × FrameTree Copy)
    (inside : computation.EndsAs other) :
    (Eval.within opening computation).EndsAs (Eval.within opening other) := by
  intro machine
  have ran (computation : Eval α) : (Eval.within opening computation).run machine =
      (computation.run (machine.enter opening)).backIn machine.here := rfl
  rw [ran, ran]
  rcases inside (machine.enter opening) with unended | same
  · exact .inl (by rw [unended]; rfl)
  · exact .inr (by rw [same])

/-- A run that ends does so in the same way as the other one. -/
theorem run_eq (endsAs : computation.EndsAs other) {machine : Machine}
    (ends : computation.run machine ≠ .unfinished) :
    other.run machine = computation.run machine :=
  ((endsAs machine).resolve_left ends).symm

end Eval.EndsAs

/-! ### Expressions -/

section

variable (annotations : Annotations) {calls others : Calls}

/-- A call ends as it does with calls that end in more cases. -/
theorem Evaluation.apply_endsAs (called : calls.EndAs others) (callee : Value) (arguments : List Copy) :
    (apply annotations calls callee arguments).EndsAs
      (apply annotations others callee arguments) := by
  refine .bind (.refl _) fun object => ?_
  split
  · exact .refl _
  · exact .refl _
  · split
    · exact called _ _ _
    · exact .refl _
  · exact .refl _
  · exact .refl _

variable [NumericLibrary]

mutual

/-- An evaluation ends as it does with calls that end in more cases. -/
theorem Evaluation.evaluate_endsAs (called : calls.EndAs others) :
    (node : Node) → (evaluate annotations calls node).EndsAs (evaluate annotations others node)
  | .int _ _ | .float _ _ | .string _ _ | .null _ | .reference _ _ => .refl _
  | .constructor _ of => .locate _ (.bind (Evaluation.evaluate_endsAs called of) fun _ => .refl _)
  | .array _ items =>
      .locate _ (.bind (.refl _) fun _ => .bind (Evaluation.evaluateAll_endsAs called items) fun _ =>
        .refl _)
  | .paren _ inner => .locate _ (Evaluation.evaluate_endsAs called inner)
  | .field _ stem _ => .locate _ (.bind (Evaluation.evaluate_endsAs called stem) fun _ => .refl _)
  | .index _ stem position =>
      .locate _ (.bind (Evaluation.evaluate_endsAs called stem) fun _ => .bind (.refl _) fun _ =>
        .bind (Evaluation.evaluate_endsAs called position) fun _ => .refl _)
  | .call _ callee arguments =>
      .locate _ (.bind (Evaluation.evaluate_endsAs called callee) fun _ =>
        .bind (Evaluation.evaluateAll_endsAs called arguments) fun _ =>
        Evaluation.apply_endsAs annotations called _ _)
  | .diadic _ left _ right =>
      .locate _ (.bind (.refl _) fun _ => .bind (.refl _) fun _ =>
        .bind (Evaluation.evaluate_endsAs called left) fun _ => by
          split
          · exact .refl _
          · exact .bind (Evaluation.evaluate_endsAs called right) fun _ => .refl _)
  | .monadic _ _ operand =>
      .locate _ (.bind (Evaluation.evaluate_endsAs called operand) fun _ => .refl _)
  | .monadicFork _ _ operand =>
      .locate _ (.bind (Evaluation.evaluate_endsAs called operand) fun _ => .refl _)
  | .diadicFork _ left _ right =>
      .locate _ (.bind (Evaluation.evaluate_endsAs called left) fun _ =>
        .bind (Evaluation.evaluate_endsAs called right) fun _ => .refl _)
  | .assign _ target source => by
      unfold evaluate
      refine .locate _ (.bind (.refl _) fun _ => ?_)
      cases target with
      | reference _ name => exact .bind (Evaluation.evaluate_endsAs called source) fun _ => .refl _
      | index _ stem position =>
          exact .bind (Evaluation.evaluate_endsAs called stem) fun _ => .bind (.refl _) fun _ =>
            .bind (Evaluation.evaluate_endsAs called position) fun _ => .bind (.refl _) fun _ =>
            .bind (Evaluation.evaluate_endsAs called source) fun _ => .refl _
      | field _ stem name =>
          refine .bind (Evaluation.evaluate_endsAs called stem) fun object => ?_
          split
          · exact .refl _
          · exact .bind (Evaluation.evaluate_endsAs called source) fun _ => .refl _
      | _ => exact .refl _
  | .block _ _ | .variable _ _ _ | .expression _ _ | .branch _ _ _ _ | .loop _ _ _ | .return _ _
  | .function _ _ _ _ | .struct _ _ _ | .parameter _ _ | .fieldDeclaration _ _ | .root _ _ =>
      .refl _

/-- Several evaluations end as they do with calls that end in more cases. -/
theorem Evaluation.evaluateAll_endsAs (called : calls.EndAs others) : (nodes : List Node) →
    (evaluateAll annotations calls nodes).EndsAs (evaluateAll annotations others nodes)
  | [] => .refl _
  | node :: nodes =>
      .bind (Evaluation.evaluate_endsAs called node) fun _ =>
        .bind (Evaluation.evaluateAll_endsAs called nodes) fun _ => .refl _

end

end

/-! ### Statements -/

namespace Execution

/-- A loop ends as it does with more rounds, and with a condition and a body that end in more
cases. -/
theorem repeatWhile_endsAs {test otherTest : Eval Bool} {body otherBody : Eval Control}
    (tested : test.EndsAs otherTest) (repeated : body.EndsAs otherBody) {limit larger : Nat}
    (le : limit ≤ larger) :
    (repeatWhile test body limit).EndsAs (repeatWhile otherTest otherBody larger) := by
  -- The induction is on the rounds of the shorter run.
  induction limit generalizing larger with
  | zero => exact .unfinished _
  | succ limit inductionHypothesis =>
      obtain ⟨larger, rfl⟩ := Nat.exists_eq_add_one_of_ne_zero (Nat.ne_zero_of_lt le)
      refine .bind tested fun holds => ?_
      split
      · refine .bind repeated fun control => ?_
        cases control with
        | normal => exact inductionHypothesis (Nat.le_of_succ_le_succ le)
        | returned value => exact .refl _
      · exact .refl _

variable [NumericLibrary]

section

variable (annotations : Annotations) {calls others : Calls} {limit larger : Nat}

/-- A condition ends as it does with calls that end in more cases. -/
theorem condition_endsAs (called : calls.EndAs others) (node : Node) :
    (condition annotations calls node).EndsAs (condition annotations others node) :=
  .bind (Evaluation.evaluate_endsAs annotations called node) fun _ => .refl _

mutual

/-- An execution ends as it does within a larger limit and with calls that end in more cases. -/
theorem execute_endsAs (called : calls.EndAs others) (le : limit ≤ larger) : (node : Node) →
    (execute annotations calls limit node).EndsAs (execute annotations others larger node)
  | .block _ body => .within FrameTree.child (executeAll_endsAs called le body)
  | .variable _ _ initial =>
      .bind (Evaluation.evaluate_endsAs annotations called initial) fun _ => .refl _
  | .expression _ inner =>
      .bind (Evaluation.evaluate_endsAs annotations called inner) fun _ => .refl _
  | .branch _ test accepted rejected => by
      unfold execute
      refine .bind (condition_endsAs annotations called test) fun holds => ?_
      cases holds with
      | true => exact execute_endsAs called le accepted
      | false =>
          cases rejected with
          | some rejected => exact execute_endsAs called le rejected
          | none => exact .refl _
  | .loop _ test body =>
      repeatWhile_endsAs (condition_endsAs annotations called test) (execute_endsAs called le body) le
  | .return _ none => .refl _
  | .return _ (some result) =>
      .bind (Evaluation.evaluate_endsAs annotations called result) fun _ => .refl _
  | .function _ _ _ _ | .struct _ _ _ => .refl _
  | .int _ _ | .float _ _ | .string _ _ | .null _ | .reference _ _ | .constructor _ _ | .array _ _
  | .paren _ _ | .field _ _ _ | .index _ _ _ | .call _ _ _ | .diadic _ _ _ _ | .monadic _ _ _
  | .monadicFork _ _ _ | .diadicFork _ _ _ _ | .assign _ _ _ | .parameter _ _
  | .fieldDeclaration _ _ | .root _ _ => .refl _

/-- Several executions end as they do within a larger limit and with calls that end in more cases.
-/
theorem executeAll_endsAs (called : calls.EndAs others) (le : limit ≤ larger) : (nodes : List Node) →
    (executeAll annotations calls limit nodes).EndsAs (executeAll annotations others larger nodes)
  | [] => .refl _
  | node :: nodes => by
      refine .bind (execute_endsAs called le node) fun control => ?_
      cases control with
      | normal => exact executeAll_endsAs called le nodes
      | returned value => exact .refl _

end

end

/-- A call ends as it does when calls may go deeper. -/
theorem callsTo_endAs (annotations : Annotations) {limit larger : Nat} (le : limit ≤ larger) :
    (callsTo annotations limit).EndAs (callsTo annotations larger) := by
  -- The induction is on the depth of the shorter run.
  induction limit generalizing larger with
  | zero => exact fun _ _ _ => .unfinished _
  | succ limit inductionHypothesis =>
      obtain ⟨larger, rfl⟩ := Nat.exists_eq_add_one_of_ne_zero (Nat.ne_zero_of_lt le)
      have deeper := inductionHypothesis (Nat.le_of_succ_le_succ le)
      intro parameters body arguments
      refine .within FrameTree.callFrame (.bind (.refl _) fun _ => ?_)
      split
      · exact .bind (.within FrameTree.child (executeAll_endsAs annotations deeper
          (Nat.le_of_succ_le_succ le) body)) fun _ => .refl _
      · exact .refl _

/-- A program ends as it does within a larger limit. -/
theorem program_endsAs (annotations : Annotations) {limit larger : Nat} (le : limit ≤ larger)
    (root : Node) :
    (program annotations limit root).EndsAs (program annotations larger root) := by
  unfold program
  split
  · exact .bind (executeAll_endsAs annotations (callsTo_endAs annotations le) le _) fun _ =>
      .refl _
  · exact .refl _

end Execution

end ArrayForks
