import ArrayForks.Proofs.Agreement
import ArrayForks.Proofs.FrameNames
import ArrayForks.Proofs.Limits

/-! # Inserted frames

An empty frame around an expression cannot be observed: the expression ends in it as it does without
it, and leaves the same in every frame that was there before. The frame shifts the numbers of all
frames that are made later, and it lies in the chains of the frames made within it, but nothing is
ever found in it. A block is such a frame until something is declared in it, so a loop whose body is
a block is as good as its body in a further block, followed by the loop itself.

* **`FrameTree.Inserted`** relates a tree to the same with a frame inserted, and
  **`insertedTwins`** the frames of both.
* **`Machine.steps_overlooks`**: every evaluation and every execution `Overlooks` the inserted
  frame.
* **`Execution.agree_unrolled`**: so a loop of one more round, `longer`, agrees with its
  unrolling. -/

namespace ArrayForks

open Evaluation (evaluate)
open Execution (condition execute repeatWhile callsTo)

namespace FrameTree

variable {α : Type}

/-! ### Shifted frames -/

/-- The number of a frame in a tree in which a further frame has got the number `new`. -/
def shifted (new id : Nat) : Nat :=
  if id < new then id else id + 1

/-- No frame of the first tree becomes the inserted one. -/
theorem shifted_ne (new id : Nat) : shifted new id ≠ new := by
  unfold shifted
  split <;> omega

/-- Frames of the first tree stay apart. -/
theorem shifted_inj {new id other : Nat} : shifted new id = shifted new other ↔ id = other := by
  unfold shifted
  split <;> split <;> omega

/-- Frames before the inserted one keep their places. -/
theorem shifted_of_lt {new id : Nat} (before : id < new) : shifted new id = id :=
  if_pos before

/-- Frames from the inserted one on are one place farther. -/
theorem shifted_of_le {new id : Nat} (after : new ≤ id) : shifted new id = id + 1 :=
  if_neg (Nat.not_lt.mpr after)

/-- Two chains that run through the same frames but for an inserted one, which never comes last. -/
inductive ChainAround (new : Nat) : List Nat → List Nat → Prop where
  | nil : ChainAround new [] []
  /-- A frame on both sides. -/
  | twin (id : Nat) {lefts rights : List Nat} (rest : ChainAround new lefts rights) :
      ChainAround new (id :: lefts) (shifted new id :: rights)
  /-- The inserted frame. -/
  | inserted {id : Nat} {lefts rights : List Nat}
      (rest : ChainAround new (id :: lefts) rights) :
      ChainAround new (id :: lefts) (new :: rights)

namespace ChainAround

variable {new : Nat} {lefts rights : List Nat}

/-- A chain that was there before the frame was inserted stays what it was. -/
theorem refl_of_lt (before : ∀ id ∈ lefts, id < new) : ChainAround new lefts lefts := by
  induction lefts with
  | nil => exact .nil
  | cons id lefts inductionHypothesis =>
      have rest := inductionHypothesis fun other isIn => before other (List.mem_cons_of_mem _ isIn)
      have stays := shifted_of_lt (before id List.mem_cons_self)
      have step := ChainAround.twin id rest
      rwa [stays] at step

/-- A search that does not accept the inserted frame finds the same frame on both sides. -/
theorem rel_find? {acceptsLeft acceptsRight : Nat → Bool}
    (same : ∀ id, acceptsRight (shifted new id) = acceptsLeft id)
    (passes : acceptsRight new = false) (chains : ChainAround new lefts rights) :
    Option.Rel (fun left right => right = shifted new left) (lefts.find? acceptsLeft)
      (rights.find? acceptsRight) := by
  induction chains with
  | nil => exact .none
  | twin id rest inductionHypothesis =>
      rw [List.find?_cons, List.find?_cons, same]
      cases acceptsLeft id with
      | true => exact .some rfl
      | false => exact inductionHypothesis
  | @inserted id lefts rights rest inductionHypothesis =>
      have skipped : (new :: rights).find? acceptsRight = rights.find? acceptsRight := by
        rw [List.find?_cons, passes]
      rw [skipped]
      exact inductionHypothesis

/-- Both chains end in the same frame. -/
theorem rel_getLast? (chains : ChainAround new lefts rights) :
    Option.Rel (fun left right => right = shifted new left) lefts.getLast? rights.getLast? := by
  induction chains with
  | nil => exact .none
  | @twin id lefts rights rest inductionHypothesis =>
      rw [List.getLast?_cons, List.getLast?_cons]
      refine .some ?_
      generalize lefts.getLast? = leftLast at inductionHypothesis ⊢
      generalize rights.getLast? = rightLast at inductionHypothesis ⊢
      cases inductionHypothesis with
      | none => rfl
      | some same => exact same
  | @inserted id lefts rights rest inductionHypothesis =>
      have nonempty : rights ≠ [] := by
        rintro rfl
        cases rest
      rwa [List.getLast?_cons_of_ne_nil nonempty]

end ChainAround

/-- Two trees that are the same but for a frame inserted within the frame `here`, which binds nothing
and has got the number `new`. -/
structure Inserted (here new : Nat) (left right : FrameTree α) : Prop where
  here_lt : here < new
  size_le : new ≤ left.nodes.size
  size_eq : right.nodes.size = left.nodes.size + 1
  own_eq : ∀ id, right.own (shifted new id) = left.own id
  own_new : right.own new = .empty
  chains : ∀ id, ChainAround new (left.chain id) (right.chain (shifted new id))
  chain_new : ChainAround new (left.chain here) (right.chain new)

/-- The frames of such trees that are the same. -/
def shiftedTwins (here new : Nat) : Correspondence α where
  trees := Inserted here new
  frames left right := right = shifted new left

/-- The frames of such trees from which the same names are in reach: the inserted frame reads like
the one that it lies within. -/
def insertedTwins (here new : Nat) : Correspondence α where
  trees := Inserted here new
  frames left right := right = shifted new left ∨ left = here ∧ right = new

namespace Inserted

variable {here new : Nat} {left right : FrameTree α} (trees : Inserted here new left right)

include trees

/-- The chains of corresponding frames run through corresponding frames, but for the inserted one. -/
theorem chain {leftId rightId : Nat}
    (frames : (insertedTwins (α := α) here new).frames leftId rightId) :
    ChainAround new (left.chain leftId) (right.chain rightId) := by
  rcases frames with rfl | ⟨rfl, rfl⟩
  · exact trees.chains leftId
  · exact trees.chain_new

/-- The next frames on both sides are the same. -/
theorem size_eq_shifted : right.nodes.size = shifted new left.nodes.size := by
  rw [trees.size_eq, shifted_of_le trees.size_le]

/-- A frame is in the first tree if and only if the shifted one is in the second. -/
theorem lt_iff (id : Nat) : shifted new id < right.nodes.size ↔ id < left.nodes.size := by
  have sizes := trees.size_eq
  have size_le := trees.size_le
  unfold shifted
  split <;> omega

/-- Binding a name in the same frame on both sides. -/
theorem insert (id : Nat) (name : String) (value : α) :
    Inserted here new (left.insert id name value) (right.insert (shifted new id) name value) where
  here_lt := trees.here_lt
  size_le := by simpa [FrameTree.insert] using trees.size_le
  size_eq := by simpa [FrameTree.insert] using trees.size_eq
  own_eq other := by
    simp only [FrameTree.insert, own_setOwn, shifted_inj, trees.lt_iff, trees.own_eq]
  own_new := by
    rw [FrameTree.insert, own_setOwn, if_neg, trees.own_new]
    exact fun both => shifted_ne new id both.1.symm
  chains other := by simpa [FrameTree.insert] using trees.chains other
  chain_new := by simpa [FrameTree.insert] using trees.chain_new

/-- New frames on both sides are the same if their chains are. -/
theorem opened {leftAfter rightAfter : FrameTree α} {leftOuter rightOuter : List Nat}
    (leftSize : leftAfter.nodes.size = left.nodes.size + 1)
    (rightSize : rightAfter.nodes.size = right.nodes.size + 1)
    (leftOwn : ∀ id, leftAfter.own id = left.own id)
    (rightOwn : ∀ id, rightAfter.own id = right.own id)
    (leftChain : ∀ id, leftAfter.chain id =
      if id = left.nodes.size then id :: leftOuter else left.chain id)
    (rightChain : ∀ id, rightAfter.chain id =
      if id = right.nodes.size then id :: rightOuter else right.chain id)
    (outer : ChainAround new leftOuter rightOuter) : Inserted here new leftAfter rightAfter where
  here_lt := trees.here_lt
  size_le := by
    rw [leftSize]
    exact Nat.le_succ_of_le trees.size_le
  size_eq := by rw [leftSize, rightSize, trees.size_eq]
  own_eq id := by rw [leftOwn, rightOwn, trees.own_eq]
  own_new := by rw [rightOwn, trees.own_new]
  chains id := by
    rw [leftChain, rightChain]
    simp only [trees.size_eq_shifted, shifted_inj]
    -- The new frames are the last ones of both trees, and they stand for each other.
    by_cases last : id = left.nodes.size
    · rw [if_pos last, if_pos last]
      exact .twin id outer
    · rw [if_neg last, if_neg last]
      exact trees.chains id
  chain_new := by
    have left_lt : here < left.nodes.size := Nat.lt_of_lt_of_le trees.here_lt trees.size_le
    have right_lt : new < right.nodes.size := by
      rw [trees.size_eq]
      exact Nat.lt_succ_of_le trees.size_le
    rw [leftChain, rightChain, if_neg (Nat.ne_of_lt left_lt), if_neg (Nat.ne_of_lt right_lt)]
    exact trees.chain_new

end Inserted

/-- Names that are looked up in step are found in the same frames. -/
theorem insertedTwins_carries (here new : Nat) :
    (insertedTwins here new : Correspondence α).Carries (shiftedTwins here new) where
  owner trees frames name := by
    refine ChainAround.rel_find? (fun id => ?_) ?_ (trees.chain frames)
    · rw [trees.own_eq]
    · rw [trees.own_new]
      rfl
  own_eq trees frames := by rw [frames, trees.own_eq]
  insert trees frames name value := by
    rw [frames]
    exact trees.insert _ name value

/-- Frames that are opened in step are the same. -/
theorem insertedTwins_opens (here new : Nat) :
    (insertedTwins here new : Correspondence α).Opens (shiftedTwins here new) where
  child trees frames := by
    refine ⟨trees.size_eq_shifted, trees.opened (by simp [child]) (by simp [child]) ?_ ?_
      (chain_child _ _) (chain_child _ _) (trees.chain frames)⟩
    · intro id
      rw [child, own_addFrame]
    · intro id
      rw [child, own_addFrame]
  callFrame {left right leftId rightId} trees frames := by
    have roots := (trees.chain frames).rel_getLast?
    refine ⟨trees.size_eq_shifted, trees.opened (by simp [callFrame]) (by simp [callFrame]) ?_ ?_
      (chain_callFrame _ _) (chain_callFrame _ _) ?_⟩
    · intro id
      rw [callFrame, own_addFrame]
    · intro id
      rw [callFrame, own_addFrame]
    · generalize (left.chain leftId).getLast? = leftRoot at roots ⊢
      generalize (right.chain rightId).getLast? = rightRoot at roots ⊢
      cases roots with
      | none => exact .nil
      | some same =>
          subst same
          exact .twin _ .nil

/-- The same frames stay the same at every step of a program. -/
theorem shiftedTwins_last (here new : Nat) :
    (shiftedTwins here new : Correspondence α).Lasts where
  owner trees frames name := (insertedTwins_carries here new).owner trees (.inl frames) name
  own_eq trees frames := (insertedTwins_carries here new).own_eq trees frames
  insert trees frames name value :=
    (insertedTwins_carries here new).insert trees frames name value
  child trees frames := (insertedTwins_opens here new).child trees (.inl frames)
  callFrame trees frames := (insertedTwins_opens here new).callFrame trees (.inl frames)

/-- A frame opened within a frame is inserted there. -/
theorem inserted_child {tree : FrameTree α} {here : Nat} (inTree : here < tree.nodes.size) :
    Inserted here tree.nodes.size tree (tree.child here).2 where
  here_lt := inTree
  size_le := Nat.le_refl _
  size_eq := by simp [child]
  own_eq id := by
    rw [child, own_addFrame]
    rcases Nat.lt_or_ge id tree.nodes.size with before | outside
    · rw [shifted_of_lt before]
    · rw [shifted_of_le outside, own_eq_empty outside, own_eq_empty (Nat.le_succ_of_le outside)]
  own_new := by rw [child, own_addFrame, own_eq_empty (Nat.le_refl _)]
  chains id := by
    rw [chain_child, if_neg (shifted_ne _ id)]
    rcases Nat.lt_or_ge id tree.nodes.size with before | outside
    · rw [shifted_of_lt before]
      exact .refl_of_lt fun other isIn => lt_size_of_mem_chain isIn
    · rw [shifted_of_le outside, chain_eq_nil outside, chain_eq_nil (Nat.le_succ_of_le outside)]
      exact .nil
  chain_new := by
    have unchanged : ChainAround tree.nodes.size (tree.chain here) (tree.chain here) :=
      .refl_of_lt fun other isIn => lt_size_of_mem_chain isIn
    rw [chain_child, if_pos rfl]
    rw [chain_eq_cons inTree] at unchanged ⊢
    exact .inserted unchanged

end FrameTree

/-! ### Runs around the frame -/

namespace Machine

open Eval (Agrees Keeps)
open FrameTree (insertedTwins shiftedTwins shifted)

/-- The heap, the count of copies, the output and the bindings of the first `size` frames are the
same. -/
structure SameUpTo (size : Nat) (left right : Machine) : Prop where
  heap_eq : left.heap = right.heap
  made_eq : left.made = right.made
  output_eq : left.output = right.output
  own_eq : ∀ id < size, left.frames.own id = right.frames.own id

/-- A machine is the same as itself, up to whatever frame. -/
theorem SameUpTo.refl (size : Nat) (machine : Machine) : machine.SameUpTo size machine :=
  ⟨rfl, rfl, rfl, fun _ _ => rfl⟩

/-- Machines around an inserted frame have the frames before it in common. -/
theorem Alike.sameUpTo {here new size : Nat} {left right : Machine}
    (alike : Alike (insertedTwins here new) left right) (le : size ≤ new) :
    left.SameUpTo size right where
  heap_eq := alike.heap_eq
  made_eq := alike.made_eq
  output_eq := alike.output_eq
  own_eq id before := by
    have own := alike.trees.own_eq id
    rw [FrameTree.shifted_of_lt (Nat.lt_of_lt_of_le before le)] at own
    exact own.symm

/-- A new frame makes a machine that is alike. -/
theorem alike_enter_child {machine : Machine} (inTree : machine.here < machine.frames.nodes.size) :
    Alike (insertedTwins machine.here machine.frames.nodes.size) machine
      (machine.enter FrameTree.child) where
  trees := FrameTree.inserted_child inTree
  here := .inr ⟨rfl, rfl⟩
  heap_eq := rfl
  made_eq := rfl
  output_eq := rfl

/-- A computation that comes back to its frame comes back to the same frame on both sides. -/
theorem agrees_shifted {here new : Nat} {α : Type} {computation : Eval α}
    (agrees : Agrees (insertedTwins here new) α computation)
    (keeps : Keeps NamesStay α computation) : Agrees (shiftedTwins here new) α computation := by
  intro left right alike
  have around : Alike (insertedTwins here new) left right := { alike with here := .inl alike.here }
  refine (agrees left right around).imp fun leftEnd rightEnd leftEnds rightEnds ends => ?_
  have leftHere := (keeps left leftEnd leftEnds).here_eq
  have rightHere := (keeps right rightEnd rightEnds).here_eq
  have back : rightEnd.here = shifted new leftEnd.here := by
    rw [leftHere, rightHere]
    exact alike.here
  exact { ends with here := back }

/-- The computations that cannot observe an inserted frame, even if they start in it, and that come
back to the frame in which they started. -/
abbrev Overlooks (here new : Nat) : Eval.Trait :=
  (Agrees (insertedTwins here new)).and (Keeps NamesStay)

/-- Evaluations overlook an inserted frame, and so do executions that do not start in it: these may
declare names in the frame that they start in. -/
theorem steps_overlooks (here new : Nat) :
    Execution.Steps (Overlooks here new)
      ((Agrees (shiftedTwins here new)).and (Keeps NamesGrow)) where
  evaluation := (FrameTree.insertedTwins_carries here new).steps.and steps_names.evaluation
  composes := Eval.composes_agrees.and steps_names.composes
  unfinished := ⟨fun _ _ _ => .unfinished, steps_names.unfinished⟩
  lift promised := ⟨agrees_shifted promised.1 promised.2, steps_names.lift promised.2⟩
  declare name value :=
    ⟨Eval.agrees_declare (FrameTree.shiftedTwins_last here new).toCarries name value,
      steps_names.declare name value⟩
  block promised :=
    ⟨Eval.agrees_inBlock (FrameTree.insertedTwins_opens here new) (fun _ _ trees => trees)
      promised.1, steps_names.block promised.2⟩
  call promised :=
    ⟨Eval.agrees_inCall (FrameTree.insertedTwins_opens here new) (fun _ _ trees => trees)
      promised.1, steps_names.call promised.2⟩

end Machine

/-! ### Loops -/

namespace Execution

/-- One more round of a loop: the body, and then the loop unless the body returns. -/
def round (condition : Eval Bool) (body : Eval Control) (limit : Nat) : Eval Control := do
  match ← body with
  | .normal => repeatWhile condition body limit
  | .returned value => pure (.returned value)

/-- A loop of one more round. -/
theorem repeatWhile_succ (condition : Eval Bool) (body : Eval Control) (limit : Nat) :
    repeatWhile condition body (limit + 1) =
      (do if ← condition then round condition body limit else pure .normal) :=
  rfl

/-- A computation that ends normally may be followed by nothing. -/
theorem bind_pure_control (computation : Eval Control) :
    (do
      match ← computation with
      | .normal => pure .normal
      | .returned value => pure (.returned value)) = computation := by
  funext machine
  change (computation >>= _).run machine = computation.run machine
  rw [Eval.run_bind]
  cases computation.run machine with
  | done control final => cases control <;> rfl
  | failed failure final => rfl
  | unfinished => rfl

variable [NumericLibrary]

/-- The body of a loop in a further block, followed by the loop, is one round of the loop. -/
theorem execute_round (annotations : Annotations) (calls : Calls) (limit : Nat)
    (blockId loopId : NodeId) (test body : Node) :
    execute annotations calls limit (.block blockId [body, .loop loopId test body]) =
      Eval.inBlock (round (condition annotations calls test)
        (execute annotations calls limit body) limit) := by
  have rest : executeAll annotations calls limit [.loop loopId test body] =
      repeatWhile (condition annotations calls test) (execute annotations calls limit body) limit :=
    bind_pure_control _
  have next (control : Control) :
      (match control with
        | .normal => executeAll annotations calls limit [.loop loopId test body]
        | .returned value => pure (.returned value)) =
      (match control with
        | .normal => repeatWhile (condition annotations calls test)
            (execute annotations calls limit body) limit
        | .returned value => pure (.returned value)) := by
    cases control with
    | normal => exact rest
    | returned value => rfl
  exact congrArg (fun next => Eval.inBlock (execute annotations calls limit body >>= next))
    (funext next)

omit [NumericLibrary] in
/-- What overlooks inserted frames ends in a frame of its own as it does without one. -/
theorem agree_inBlock {α : Type} {computation : Eval α} {machine : Machine} {size : Nat}
    (inTree : machine.here < machine.frames.nodes.size) (le : size ≤ machine.frames.nodes.size)
    (overlooks : Machine.Overlooks machine.here machine.frames.nodes.size α computation) :
    (computation.run machine).Agree (Machine.SameUpTo size)
      ((Eval.inBlock computation).run machine) := by
  have ends := overlooks.1 machine (machine.enter FrameTree.child) (Machine.alike_enter_child inTree)
  have block : (Eval.inBlock computation).run machine =
      (computation.run (machine.enter FrameTree.child)).backIn machine.here := rfl
  rw [block]
  -- Coming back changes the current frame alone.
  generalize computation.run machine = outside at ends ⊢
  generalize computation.run (machine.enter FrameTree.child) = inside at ends ⊢
  cases ends with
  | done value alike => exact .done value { alike.sameUpTo le with }
  | failed failure alike => exact .failed failure { alike.sameUpTo le with }
  | unfinished => exact .unfinished

section

variable (annotations : Annotations) (depth limit : Nat) (test : Node) (bodyId : NodeId)
  (body : List Node)

/-- A loop with a block for its body, of one round more than the limit. -/
def longer : Eval Control :=
  repeatWhile (condition annotations (callsTo annotations depth) test)
    (execute annotations (callsTo annotations depth) limit (.block bodyId body)) (limit + 1)

/-- A loop ends as it does with one round more. -/
theorem loop_endsAs_longer (loopId : NodeId) :
    (execute annotations (callsTo annotations depth) limit
      (.loop loopId test (.block bodyId body))).EndsAs
      (longer annotations depth limit test bodyId body) :=
  repeatWhile_endsAs (.refl _) (.refl _) (Nat.le_succ limit)

/-- One round more than the limit lies within the next limit. -/
theorem longer_endsAs_loop (loopId : NodeId) :
    (longer annotations depth limit test bodyId body).EndsAs
      (execute annotations (callsTo annotations depth) (limit + 1)
        (.loop loopId test (.block bodyId body))) := by
  have larger := execute_endsAs annotations (callsTo_endAs annotations (Nat.le_refl depth))
    (Nat.le_succ limit) (.block bodyId body)
  exact repeatWhile_endsAs (.refl _) larger (Nat.le_refl _)

/-- A round of a loop whose body is a block overlooks inserted frames. -/
theorem overlooks_round (here new : Nat) :
    Machine.Overlooks here new Control
      (round (condition annotations (callsTo annotations depth) test)
        (execute annotations (callsTo annotations depth) limit (.block bodyId body)) limit) := by
  have steps := Machine.steps_overlooks here new
  have called := steps.callsTo annotations depth
  have tested := steps.condition annotations called test
  have bodyRuns := steps.block (steps.executeAll annotations called limit body)
  refine steps.evaluation.bind bodyRuns fun control => ?_
  cases control with
  | normal => exact steps.evaluation.repeatWhile steps.unfinished tested bodyRuns limit
  | returned value => exact steps.evaluation.pure _

/-- A loop of one more round ends as its unrolling does. -/
theorem agree_unrolled {machine : Machine} (inTree : machine.here < machine.frames.nodes.size)
    (loopId branchId blockId : NodeId) :
    let unrolled := Node.branch branchId test
      (.block blockId [.block bodyId body, .loop loopId test (.block bodyId body)]) none
    ((longer annotations depth limit test bodyId body).run machine).Agree
      (Machine.SameUpTo machine.frames.nodes.size)
      ((execute annotations (callsTo annotations depth) limit unrolled).run machine) := by
  intro unrolled
  let calls := callsTo annotations depth
  let repeated := Node.block bodyId body
  let rest := round (condition annotations calls test)
    (execute annotations calls limit repeated) limit
  have once : execute annotations calls limit unrolled =
      (do if ← condition annotations calls test then Eval.inBlock rest else pure .normal) := by
    rw [← execute_round annotations calls limit blockId loopId]
    rfl
  rw [once, longer, repeatWhile_succ, Eval.run_bind, Eval.run_bind]
  have keeps := (Machine.steps_names.condition annotations
    (Machine.steps_names.callsTo annotations depth) test) machine
  cases ran : (condition annotations calls test).run machine with
  | done holds middle =>
      have stay := keeps middle (by rw [ran]; rfl)
      cases holds with
      | false => exact .done _ (.refl _ middle)
      | true =>
          have middleInTree : middle.here < middle.frames.nodes.size := by
            rw [stay.here_eq]
            exact Nat.lt_of_lt_of_le inTree stay.frames.size_le
          exact agree_inBlock middleInTree stay.frames.size_le
            (overlooks_round annotations depth limit test bodyId body _ _)
  | failed failure middle => exact .failed failure (.refl _ middle)
  | unfinished => exact .unfinished

end

end Execution

/-- **Empty frames cannot be observed.**

* In `machine.enter FrameTree.child`, an empty frame within the current one, every expression ends
  as it does in `machine`: the outcomes `Agree` on the value or the failure, and on machines that
  are the `SameUpTo` the frames that were there before.
* `while (test) { … }` and its unrolling `if (test) { { … } while (test) { … } }` are either both
  `.unfinished`, whatever the limits, or there is an `enough` such that for all limits from there on
  neither is, and their outcomes `Agree` in the same way. -/
theorem empty_frame_unobservable [NumericLibrary] (annotations : Annotations) (machine : Machine)
    (inTree : machine.here < machine.frames.nodes.size) :
    (∀ (depth : Nat) (node : Node),
      let evaluation := evaluate annotations (callsTo annotations depth) node
      (evaluation.run machine).Agree (Machine.SameUpTo machine.frames.nodes.size)
        (evaluation.run (machine.enter FrameTree.child))) ∧
    ∀ (loopId branchId blockId bodyId : NodeId) (test : Node) (body : List Node),
      let loop := Node.loop loopId test (.block bodyId body)
      let unrolled := Node.branch branchId test (.block blockId [.block bodyId body, loop]) none
      let run (depth limit : Nat) (node : Node) : Outcome Control :=
        (execute annotations (callsTo annotations depth) limit node).run machine
      (∀ depth limit,
        run depth limit loop = .unfinished ∧ run depth limit unrolled = .unfinished) ∨
      ∃ enough, ∀ depth limit, enough ≤ depth → enough ≤ limit →
        run depth limit loop ≠ .unfinished ∧
          (run depth limit loop).Agree (Machine.SameUpTo machine.frames.nodes.size)
            (run depth limit unrolled) := by
  refine ⟨fun depth node => ?_, ?_⟩
  · have steps := Machine.steps_overlooks machine.here machine.frames.nodes.size
    have called := steps.callsTo annotations depth
    have overlooks := steps.evaluation.evaluate annotations called node
    have ends := overlooks.1 _ _ (Machine.alike_enter_child inTree)
    exact ends.imp fun _ _ _ _ alike => alike.sameUpTo (Nat.le_refl _)
  · intro loopId branchId blockId bodyId test body loop unrolled run
    have agree (depth limit : Nat) :=
      Execution.agree_unrolled annotations depth limit test bodyId body inTree loopId branchId blockId
    have below (depth limit : Nat) :=
      Execution.loop_endsAs_longer annotations depth limit test bodyId body loopId
    have above (depth limit : Nat) :=
      Execution.longer_endsAs_loop annotations depth limit test bodyId body loopId
    -- Once the loop ends within some limits, it ends alike within all larger ones.
    by_cases ends : ∃ depth limit, run depth limit loop ≠ .unfinished
    · obtain ⟨depth, limit, ends⟩ := ends
      refine .inr ⟨max depth limit, fun largerDepth largerLimit depthEnough limitEnough => ?_⟩
      have deeper := Execution.callsTo_endAs annotations
        (Nat.le_trans (Nat.le_max_left depth limit) depthEnough)
      have grows := Execution.execute_endsAs annotations deeper
        (Nat.le_trans (Nat.le_max_right depth limit) limitEnough) loop
      have loopEnds : run largerDepth largerLimit loop ≠ .unfinished := by
        simp only [run]
        rw [grows.run_eq ends]
        exact ends
      refine ⟨loopEnds, ?_⟩
      have both := agree largerDepth largerLimit
      rwa [(below largerDepth largerLimit).run_eq loopEnds] at both
    · have unended (depth limit : Nat) : run depth limit loop = .unfinished :=
        Classical.byContradiction fun ended => ends ⟨depth, limit, ended⟩
      refine .inl fun depth limit => ⟨unended depth limit, ?_⟩
      refine (agree depth limit).eq_unfinished ?_
      rcases above depth limit machine with unfinished | same
      · exact unfinished
      · exact same.trans (unended depth (limit + 1))

/-- A variable reads alike in a block, and a loop that sets it to zero may be unrolled. -/
theorem empty_frame_unobservable_reset :
    letI : NumericLibrary := .standard
    let machine : Machine := { Machine.initial with
      frames := Machine.initial.frames.insert 0 "x" (.new (.int 3)) }
    let annotations := Annotations.empty |>.annotate 2 .int |>.annotate 6 .int
    let test := Node.reference 2 "x"
    let reset := Node.block 4 [.expression 5 (.assign 6 (.reference 7 "x") (.int 8 0))]
    let loop := Node.loop 1 test reset
    let unrolled := Node.branch 9 test (.block 10 [reset, loop]) none
    let run (depth limit : Nat) (node : Node) : Outcome Control :=
      (execute annotations (callsTo annotations depth) limit node).run machine
    ((evaluate annotations (callsTo annotations 1) test).run machine).Agree (Machine.SameUpTo 1)
      ((evaluate annotations (callsTo annotations 1) test).run (machine.enter FrameTree.child)) ∧
    ((∀ depth limit,
      run depth limit loop = .unfinished ∧ run depth limit unrolled = .unfinished) ∨
    ∃ enough, ∀ depth limit, enough ≤ depth → enough ≤ limit →
      run depth limit loop ≠ .unfinished ∧
        (run depth limit loop).Agree (Machine.SameUpTo 1) (run depth limit unrolled)) := by
  let : NumericLibrary := .standard
  intro machine annotations test reset loop unrolled run
  have inTree : machine.here < machine.frames.nodes.size := by decide
  have both := empty_frame_unobservable annotations machine inTree
  exact ⟨both.1 1 test, both.2 1 9 10 4 test _⟩

end ArrayForks
