import Mathlib.Data.List.Forall2
import ArrayForks.Proofs.Agreement
import ArrayForks.Proofs.FrameNames

/-! # Calls and their callers

A called function sees the root frame and the frames that are made for the call, and no frame of its
caller. So a call ends alike in any two machines that differ in frames other than the root alone,
and it leaves all of these frames as they were.

* **`Footing.twins`** is the correspondence of the frames of two calls: their roots, and the
  frames that are made for them.
* **`agree_callsTo`**: calls agree in machines that are `SameAtRoot`.
* **`spares_callsTo`**: a call `Spares` the frames that were there before, but for the root. -/

namespace ArrayForks

namespace FrameTree

variable {α : Type}

/-! ### Frames that stand for each other -/

/-- The sizes of two trees when a call starts in each of them, and the roots that it sees. -/
structure Footing where
  /-- The number of frames in the left tree. -/
  leftSize : Nat
  /-- The root on the left. -/
  leftRoot : Nat
  /-- The number of frames in the right tree. -/
  rightSize : Nat
  /-- The root on the right. -/
  rightRoot : Nat
  /-- The root is in the left tree. -/
  left_lt : leftRoot < leftSize
  /-- The root is in the right tree. -/
  right_lt : rightRoot < rightSize

variable {footing : Footing}

/-- The roots stand for each other, and so do frames that are made in step later on. -/
inductive Footing.Twin (footing : Footing) : Nat → Nat → Prop where
  /-- The roots. -/
  | root : Twin footing footing.leftRoot footing.rightRoot
  /-- The frames that are made after as many others on either side. -/
  | later (made : Nat) : Twin footing (footing.leftSize + made) (footing.rightSize + made)

/-- Of twins, one is a frame if the other one is its twin. -/
theorem Footing.Twin.eq_iff {left right otherLeft otherRight : Nat}
    (twin : footing.Twin left right) (other : footing.Twin otherLeft otherRight) :
    otherLeft = left ↔ otherRight = right := by
  have leftRoot := footing.left_lt
  have rightRoot := footing.right_lt
  cases twin <;> cases other <;> omega

/-- Trees whose twins bind the same and lie within twins. -/
structure Footing.Match (footing : Footing) (left right : FrameTree α) : Prop where
  sizes : ∃ made, left.nodes.size = footing.leftSize + made ∧
    right.nodes.size = footing.rightSize + made
  own_eq {leftId rightId : Nat} (twin : footing.Twin leftId rightId) :
    left.own leftId = right.own rightId
  chains {leftId rightId : Nat} (twin : footing.Twin leftId rightId) :
    List.Forall₂ footing.Twin (left.chain leftId) (right.chain rightId)

/-- The twins of a footing as a correspondence of trees. -/
def Footing.twins (footing : Footing) : Correspondence α where
  trees := footing.Match
  frames := footing.Twin

namespace Footing.Match

variable {left right : FrameTree α} (trees : footing.Match left right)

include trees

/-- The next frames on both sides are twins. -/
theorem next : footing.Twin left.nodes.size right.nodes.size := by
  obtain ⟨made, leftSize, rightSize⟩ := trees.sizes
  rw [leftSize, rightSize]
  exact .later made

/-- Twins are both in their trees or both outside. -/
theorem lt_iff {leftId rightId : Nat} (twin : footing.Twin leftId rightId) :
    leftId < left.nodes.size ↔ rightId < right.nodes.size := by
  have leftRoot := footing.left_lt
  have rightRoot := footing.right_lt
  obtain ⟨made, leftSize, rightSize⟩ := trees.sizes
  cases twin <;> omega

/-- Binding a name in twins keeps their trees matched. -/
theorem insert {leftId rightId : Nat} (twin : footing.Twin leftId rightId) (name : String)
    (value : α) : footing.Match (left.insert leftId name value) (right.insert rightId name value) where
  sizes := by simpa [FrameTree.insert] using trees.sizes
  own_eq {otherLeft otherRight} other := by
    -- The other frame is the one that is written to on both sides or on neither.
    have same := twin.eq_iff other
    have inTree := trees.lt_iff twin
    simp only [FrameTree.insert, own_setOwn, same, inTree, trees.own_eq twin, trees.own_eq other]
  chains other := by simpa [FrameTree.insert] using trees.chains other

/-- New frames within twins, or within none, are twins. -/
theorem addFrame {leftParent? rightParent? : Option FrameId}
    (leftBefore : ∀ parent ∈ leftParent?, parent < left.nodes.size)
    (rightBefore : ∀ parent ∈ rightParent?, parent < right.nodes.size)
    (parents : Option.Rel footing.Twin leftParent? rightParent?) :
    footing.Match (left.addFrame leftParent? leftBefore).2
      (right.addFrame rightParent? rightBefore).2 where
  sizes := by
    obtain ⟨made, leftSize, rightSize⟩ := trees.sizes
    refine ⟨made + 1, ?_, ?_⟩
    · rw [size_addFrame, leftSize, Nat.add_assoc]
    · rw [size_addFrame, rightSize, Nat.add_assoc]
  own_eq twin := by rw [own_addFrame, own_addFrame, trees.own_eq twin]
  chains {leftId rightId} twin := by
    rw [chain_addFrame, chain_addFrame]
    -- Twins are both the new frames, or both were there before.
    by_cases new : leftId = left.nodes.size
    · rw [if_pos new, if_pos ((trees.next.eq_iff twin).mp new)]
      refine .cons twin ?_
      cases parents with
      | none => exact .nil
      | some parents => exact trees.chains parents
    · rw [if_neg new, if_neg fun same => new ((trees.next.eq_iff twin).mpr same)]
      exact trees.chains twin

end Footing.Match

/-- Lists whose elements are related one by one end in related elements. -/
theorem rel_getLast? {related : Nat → Nat → Prop} {left right : List Nat}
    (each : List.Forall₂ related left right) :
    Option.Rel related left.getLast? right.getLast? := by
  induction each with
  | nil => exact .none
  | @cons _ _ lefts rights first _ inductionHypothesis =>
      -- The last elements are those of the rest, or the first ones if there is no rest.
      rw [List.getLast?_cons, List.getLast?_cons]
      refine .some ?_
      generalize lefts.getLast? = leftLast at inductionHypothesis ⊢
      generalize rights.getLast? = rightLast at inductionHypothesis ⊢
      cases inductionHypothesis with
      | none => exact first
      | some last => exact last

/-- Lists whose elements are related one by one start with related elements. -/
theorem rel_head? {related : Nat → Nat → Prop} {left right : List Nat}
    (each : List.Forall₂ related left right) :
    Option.Rel related left.head? right.head? := by
  cases each with
  | nil => exact .none
  | cons first _ => exact .some first

/-- A search that accepts an element if it accepts the related one finds related elements. -/
theorem rel_find? {related : Nat → Nat → Prop} {left right : List Nat}
    {acceptsLeft acceptsRight : Nat → Bool}
    (same : ∀ leftId rightId, related leftId rightId → acceptsLeft leftId = acceptsRight rightId)
    (each : List.Forall₂ related left right) :
    Option.Rel related (left.find? acceptsLeft) (right.find? acceptsRight) := by
  induction each with
  | nil => exact .none
  | @cons leftId rightId _ _ first _ inductionHypothesis =>
      rw [List.find?_cons, List.find?_cons, same leftId rightId first]
      cases acceptsRight rightId with
      | true => exact .some first
      | false => exact inductionHypothesis

/-- Twins stay twins at every step of a program. -/
theorem Footing.twins_last (footing : Footing) :
    (footing.twins : Correspondence α).Lasts where
  owner trees frames name :=
    rel_find? (fun leftId rightId twin => by rw [trees.own_eq twin]) (trees.chains frames)
  own_eq trees frames := trees.own_eq frames
  insert trees frames name value := trees.insert frames name value
  child trees frames :=
    ⟨trees.next, trees.addFrame _ _ (rel_head? (trees.chains frames))⟩
  callFrame trees frames :=
    ⟨trees.next, trees.addFrame _ _ (rel_getLast? (trees.chains frames))⟩

/-! ### The frames of a call -/

section

variable {tree : FrameTree α} {id : FrameId}

/-- The root of a call stays a root. -/
theorem chain_callFrame_root (inTree : id < tree.nodes.size) :
    (tree.callFrame id).2.chain (tree.root id) = [tree.root id] := by
  have old : tree.root id ≠ tree.nodes.size := Nat.ne_of_lt (root_lt_size inTree)
  rw [chain_callFrame, if_neg old, chain_of_getLast? (getLast?_chain inTree)]

/-- The frame of a call lies within the root. -/
theorem chain_callFrame_new (inTree : id < tree.nodes.size) :
    (tree.callFrame id).2.chain tree.nodes.size = [tree.nodes.size, tree.root id] := by
  rw [chain_callFrame, if_pos rfl, getLast?_chain inTree, Option.toList_some]

/-- There is no further frame when a call starts. -/
theorem chain_callFrame_later (made : Nat) :
    (tree.callFrame id).2.chain (tree.nodes.size + (made + 1)) = [] := by
  refine chain_eq_nil ?_
  rw [callFrame, size_addFrame]
  omega

end

end FrameTree

/-- All frames as a correspondence of trees whose roots bind the same. -/
def FrameTree.Correspondence.ofRoots {α : Type} (leftRoot rightRoot : FrameId) :
    FrameTree.Correspondence α where
  trees left right := left.own leftRoot = right.own rightRoot
  frames _ _ := True

/-! ### Frames that a call spares -/

namespace Machine

open Eval (Keeps)

/-- The only frames in reach are a root and frames that were made after the first `size`. -/
structure Inside (size : Nat) (root : FrameId) (machine : Machine) : Prop where
  here_lt : machine.here < machine.frames.nodes.size
  size_le : size ≤ machine.frames.nodes.size
  reach : ∀ id ∈ machine.frames.chain machine.here, id = root ∨ size ≤ id

/-- The machine is in the same frame, and the first `size` frames but for a root bind what they
did. -/
structure Spares (size : Nat) (root : FrameId) (before after : Machine) : Prop where
  here_eq : after.here = before.here
  grows : before.frames.Grows after.frames
  own_eq : ∀ id < size, id ≠ root → after.frames.own id = before.frames.own id

variable {size : Nat} {root : FrameId}

/-- All frames are spared where none is changed. -/
theorem Spares.of_frames_eq {before after : Machine} (here_eq : after.here = before.here)
    (frames_eq : after.frames = before.frames) : before.Spares size root after where
  here_eq := here_eq
  grows := frames_eq ▸ .refl _
  own_eq _ _ _ := by rw [frames_eq]

/-- Frames that are spared twice are spared. -/
theorem Spares.trans {first middle last : Machine} (start : first.Spares size root middle)
    (rest : middle.Spares size root last) : first.Spares size root last where
  here_eq := rest.here_eq.trans start.here_eq
  grows := start.grows.trans rest.grows
  own_eq id before other := by rw [rest.own_eq id before other, start.own_eq id before other]

/-- What is in reach stays in reach, and nothing else comes into reach. -/
theorem Inside.after {before after : Machine} (inside : before.Inside size root)
    (spares : before.Spares size root after) : after.Inside size root where
  here_lt := by
    rw [spares.here_eq]
    exact Nat.lt_of_lt_of_le inside.here_lt spares.grows.size_le
  size_le := Nat.le_trans inside.size_le spares.grows.size_le
  reach := by
    rw [spares.here_eq, spares.grows.chain_eq _ inside.here_lt]
    exact inside.reach

/-- Binding a name in a frame in reach spares all frames that are not. -/
theorem Inside.spares_insert {machine : Machine} (inside : machine.Inside size root)
    {frame : FrameId} (inReach : frame ∈ machine.frames.chain machine.here) (name : String)
    (value : Copy) :
    machine.Spares size root
      { machine with frames := machine.frames.insert frame name value } where
  here_eq := rfl
  grows := FrameTree.grows_insert machine.frames frame name value
  own_eq id before other := by
    rw [FrameTree.insert, FrameTree.own_setOwn, if_neg]
    -- A frame in reach is the root or too new to be one of those that are spared.
    rintro ⟨rfl, -⟩
    rcases inside.reach id inReach with isRoot | later
    · exact other isRoot
    · exact Nat.not_lt.mpr later before

/-- Inside a call, frames are spared. -/
def SparesInside (size : Nat) (root : FrameId) (before after : Machine) : Prop :=
  before.Inside size root → before.Spares size root after

/-- Whatever change evaluating an expression makes itself, it spares the frames outside of the call. -/
theorem allows_sparesInside : Allows (SparesInside size root) where
  refl _ _ := .of_frames_eq rfl rfl
  trans start rest inside := (start inside).trans (rest (inside.after (start inside)))
  count _ _ _ := .of_frames_eq rfl rfl
  print _ _ _ := .of_frames_eq rfl rfl
  make _ _ _ := .of_frames_eq rfl rfl
  writeItem _ _ _ := .of_frames_eq rfl rfl
  writeEntry _ _ _ _ := .of_frames_eq rfl rfl
  writeName found value inside :=
    inside.spares_insert (FrameTree.owner?_eq_some found).1 _ value

/-- A computation that spares frames in a new frame spares them all the same when it comes back from
there. -/
theorem spares_within {α : Type} {computation : Eval α}
    {opening : FrameTree Copy → FrameId → FrameId × FrameTree Copy} {machine final : Machine}
    (opens : ∃ parent? before,
      opening machine.frames machine.here = machine.frames.addFrame parent? before)
    (inside : Inside size root { machine with
      frames := (opening machine.frames machine.here).2
      here := (opening machine.frames machine.here).1 })
    (spares : Keeps (SparesInside size root) α computation)
    (ends : ((Eval.within opening computation).run machine).machine? = some final) :
    machine.Spares size root final := by
  obtain ⟨last, rfl, ran⟩ := Eval.machine?_within ends
  have spared := spares _ last ran inside
  obtain ⟨parent?, before, made⟩ := opens
  simp only [Machine.enter, made] at spared
  refine ⟨rfl, ?_, ?_⟩
  · exact (FrameTree.grows_addFrame machine.frames parent? before).trans spared.grows
  · intro id old other
    rw [spared.own_eq id old other, FrameTree.own_addFrame]

/-- The frame of a block within a frame reaches no farther. -/
theorem Inside.child {machine : Machine} (inside : machine.Inside size root) :
    Inside size root { machine with
      frames := (machine.frames.child machine.here).2
      here := (machine.frames.child machine.here).1 } where
  here_lt := by
    rw [FrameTree.child, FrameTree.size_addFrame]
    exact Nat.lt_succ_self _
  size_le := by
    rw [FrameTree.child, FrameTree.size_addFrame]
    exact Nat.le_succ_of_le inside.size_le
  reach id inReach := by
    rw [FrameTree.chain_child] at inReach
    simp only [FrameTree.child, FrameTree.fst_addFrame, if_true, List.mem_cons] at inReach
    rcases inReach with rfl | inOuter
    · exact .inr inside.size_le
    · exact inside.reach id inOuter

/-- The frame of a call reaches the root at most. -/
theorem inside_callFrame {machine : Machine} (size_le : size ≤ machine.frames.nodes.size)
    (atRoot : ∀ last ∈ (machine.frames.chain machine.here).getLast?, last = root ∨ size ≤ last) :
    Inside size root { machine with
      frames := (machine.frames.callFrame machine.here).2
      here := (machine.frames.callFrame machine.here).1 } where
  here_lt := by
    rw [FrameTree.callFrame, FrameTree.size_addFrame]
    exact Nat.lt_succ_self _
  size_le := by
    rw [FrameTree.callFrame, FrameTree.size_addFrame]
    exact Nat.le_succ_of_le size_le
  reach id inReach := by
    rw [FrameTree.chain_callFrame] at inReach
    simp only [FrameTree.callFrame, FrameTree.fst_addFrame, if_true, List.mem_cons,
      Option.mem_toList] at inReach
    rcases inReach with rfl | isLast
    · exact .inr size_le
    · exact atRoot id isLast

/-- Every evaluation and every execution inside a call spares the frames outside. -/
theorem steps_spares : Execution.Steps (Keeps (SparesInside size root))
    (Keeps (SparesInside size root)) where
  evaluation := allows_sparesInside.steps
  composes := Eval.composes_keeps allows_sparesInside.refl allows_sparesInside.trans
  unfinished := Eval.keeps_unfinished
  lift keeps := keeps
  declare name value machine final ends inside := by
    cases ends
    -- The frame that a name is declared in is the first one in reach.
    refine inside.spares_insert ?_ name value
    rw [FrameTree.chain_eq_cons inside.here_lt]
    exact List.mem_cons_self
  block keeps _ _ ends inside := spares_within ⟨_, _, rfl⟩ inside.child keeps ends
  call keeps _ _ ends inside := by
    refine spares_within ⟨_, _, rfl⟩ (inside_callFrame inside.size_le ?_) keeps ends
    intro last isLast
    exact inside.reach last (List.mem_of_getLast? isLast)

/-! ### Calls -/

/-- The bindings of the root. -/
def rootFrame (machine : Machine) : Frame Copy :=
  machine.frames.own (machine.frames.root machine.here)

/-- Machines that are alike but for the frames other than their roots. -/
structure SameAtRoot (left right : Machine) : Prop where
  rootFrame_eq : left.rootFrame = right.rootFrame
  heap_eq : left.heap = right.heap
  made_eq : left.made = right.made
  output_eq : left.output = right.output

/-- All frames that existed before but for the root bind the same names with the same values. -/
def OthersStay (before after : Machine) : Prop :=
  ∀ id < before.frames.nodes.size, id ≠ before.frames.root before.here →
    after.frames.own id = before.frames.own id

/-- The frames that a call starts from in two machines. -/
def footing {left right : Machine} (inLeft : left.here < left.frames.nodes.size)
    (inRight : right.here < right.frames.nodes.size) : FrameTree.Footing where
  leftSize := left.frames.nodes.size
  leftRoot := left.frames.root left.here
  rightSize := right.frames.nodes.size
  rightRoot := right.frames.root right.here
  left_lt := FrameTree.root_lt_size inLeft
  right_lt := FrameTree.root_lt_size inRight

/-- The frames of calls from roots that bind the same are twins. -/
theorem match_callFrame {left right : Machine} (inLeft : left.here < left.frames.nodes.size)
    (inRight : right.here < right.frames.nodes.size) (same : left.rootFrame = right.rootFrame) :
    (footing inLeft inRight).Match (left.frames.callFrame left.here).2
      (right.frames.callFrame right.here).2 where
  sizes := ⟨1, FrameTree.size_addFrame .., FrameTree.size_addFrame ..⟩
  own_eq twin := by
    simp only [FrameTree.callFrame, FrameTree.own_addFrame]
    cases twin with
    | root => exact same
    | later made =>
        -- The new frames bind nothing, and no later ones are there yet.
        have leftEmpty := FrameTree.own_eq_empty (Nat.le_add_right left.frames.nodes.size made)
        have rightEmpty := FrameTree.own_eq_empty (Nat.le_add_right right.frames.nodes.size made)
        exact leftEmpty.trans rightEmpty.symm
  chains twin := by
    cases twin with
    | root =>
        rw [footing, FrameTree.chain_callFrame_root inLeft, FrameTree.chain_callFrame_root inRight]
        exact .cons .root .nil
    | later made =>
        cases made with
        | zero =>
            rw [footing, Nat.add_zero, Nat.add_zero, FrameTree.chain_callFrame_new inLeft,
              FrameTree.chain_callFrame_new inRight]
            exact .cons (.later 0) (.cons .root .nil)
        | succ made =>
            rw [footing, FrameTree.chain_callFrame_later, FrameTree.chain_callFrame_later]
            exact .nil

variable [NumericLibrary]

/-- A call spares the frames that existed before it but for the root. -/
theorem spares_callsTo (annotations : Annotations) (limit : Nat) (parameters : List String)
    (body : List Node) (arguments : List Copy) {machine final : Machine}
    (inTree : machine.here < machine.frames.nodes.size)
    (ends : ((Execution.callsTo annotations limit parameters body arguments).run machine).machine? =
      some final) :
    machine.Spares machine.frames.nodes.size (machine.frames.root machine.here) final := by
  cases limit with
  | zero => cases ends
  | succ limit =>
      refine spares_within ⟨_, _, rfl⟩ (inside_callFrame (Nat.le_refl _) ?_)
        (steps_spares.callBody annotations (steps_spares.callsTo annotations limit) limit
          parameters body arguments) ends
      intro last isLast
      rw [FrameTree.getLast?_chain inTree] at isLast
      exact .inl (Option.mem_some.mp isLast).symm

omit [NumericLibrary] in
/-- A machine that comes back to its frame still has the same root. -/
theorem Spares.root_eq {size : Nat} {root : FrameId} {before after : Machine}
    (spares : before.Spares size root after) (inTree : before.here < before.frames.nodes.size) :
    after.frames.root after.here = before.frames.root before.here := by
  rw [FrameTree.root, FrameTree.root, spares.here_eq, spares.grows.chain_eq _ inTree]

/-- Calls from roots that bind the same end alike. -/
theorem agree_callsTo (annotations : Annotations) (limit : Nat) (parameters : List String)
    (body : List Node) (arguments : List Copy) {left right : Machine}
    (inLeft : left.here < left.frames.nodes.size)
    (inRight : right.here < right.frames.nodes.size) (same : left.SameAtRoot right) :
    let call := Execution.callsTo annotations limit parameters body arguments
    (call.run left).Agree SameAtRoot (call.run right) := by
  intro call
  have agree : (call.run left).Agree
      (Alike (.ofRoots (left.frames.root left.here) (right.frames.root right.here)))
      (call.run right) := by
    cases limit with
    | zero => exact .unfinished
    | succ limit =>
        have steps := (footing inLeft inRight).twins_last (α := Copy) |>.steps
        have trees := match_callFrame inLeft inRight same.rootFrame_eq
        have promised := steps.callBody annotations (steps.callsTo annotations limit) limit
          parameters body arguments
        change ((Eval.within FrameTree.callFrame _).run left).Agree _
          ((Eval.within FrameTree.callFrame _).run right)
        have entered : Alike (footing inLeft inRight).twins (left.enter FrameTree.callFrame)
            (right.enter FrameTree.callFrame) :=
          ⟨trees, .later 0, same.heap_eq, same.made_eq, same.output_eq⟩
        refine Eval.agree_within (promised _ _ entered) ?_ trivial
        exact fun leftTree rightTree trees => trees.own_eq .root
  -- Both runs come back to where they were called, so their roots are the old ones.
  refine agree.imp fun leftEnd rightEnd leftEnds rightEnds alike => ?_
  have leftRoot := (spares_callsTo _ _ _ _ _ inLeft leftEnds).root_eq inLeft
  have rightRoot := (spares_callsTo _ _ _ _ _ inRight rightEnds).root_eq inRight
  refine ⟨?_, alike.heap_eq, alike.made_eq, alike.output_eq⟩
  rw [rootFrame, rootFrame, leftRoot, rightRoot]
  exact alike.trees

end Machine

/-- A call of a declared function runs its body, and a function without a declaration cannot be
called. -/
theorem Evaluation.run_apply_function (annotations : Annotations) (calls : Calls) (name : String)
    (id : NodeId) (arguments : List Copy) (machine : Machine) :
    (apply annotations calls (.function name id) arguments).run machine =
      (match annotations.declaration? id with
        | some (.function _ parameters body) => calls parameters body arguments
        | _ => notCallable (.function name id)).run machine :=
  rfl

/-- **Calls are isolated.** Let `call` apply a declared function to arguments, and let two machines
be `SameAtRoot`: the root binds the same, and the heap and the output are the same. Then
`(call.run left).Agree Machine.SameAtRoot (call.run right)`, so both calls have the same value or
the same failure and leave machines that are `SameAtRoot`; and `left.OthersStay final`, as well as
`right.OthersStay final`, says that every frame from before but the root binds what it bound. -/
theorem call_isolated [NumericLibrary] (annotations : Annotations) (limit : Nat) (name : String)
    (declaration : NodeId) (arguments : List Copy) (left right : Machine)
    (inLeft : left.here < left.frames.nodes.size)
    (inRight : right.here < right.frames.nodes.size) (same : left.SameAtRoot right) :
    let call := Evaluation.apply annotations (Execution.callsTo annotations limit)
      (.function name declaration) arguments
    (call.run left).Agree Machine.SameAtRoot (call.run right) ∧
      (∀ final, (call.run left).machine? = some final → left.OthersStay final) ∧
      ∀ final, (call.run right).machine? = some final → right.OthersStay final := by
  intro call
  simp only [call, Evaluation.run_apply_function]
  -- A value that no declared function stands behind fails with its text, which the heap decides.
  split
  · next parameters body _ =>
      refine ⟨Machine.agree_callsTo _ _ _ _ _ inLeft inRight same, ?_, ?_⟩
      · intro final ends
        exact (Machine.spares_callsTo _ _ _ _ _ inLeft ends).own_eq
      · intro final ends
        exact (Machine.spares_callsTo _ _ _ _ _ inRight ends).own_eq
  · simp only [Evaluation.notCallable, Eval.run_bind, Eval.run_look, Eval.run_fail, same.heap_eq]
    refine ⟨.failed _ same, ?_, ?_⟩
    · rintro final ⟨⟩ id - -
      rfl
    · rintro final ⟨⟩ id - -
      rfl

/-- A function that reads a name does so alike from the root and from a block that binds it. -/
theorem call_isolated_from_block :
    letI : NumericLibrary := .standard
    let block := Machine.initial.frames.child 0
    let caller : Machine := { Machine.initial with
      frames := block.2.insert block.1 "x" (.new (.int 5))
      here := block.1 }
    let annotations := Annotations.empty.collect
      (.function 1 "f" [] [.return 2 (some (.reference 3 "x"))])
    let call := Evaluation.apply annotations (Execution.callsTo annotations 1) (.function "f" 1) []
    (call.run Machine.initial).Agree Machine.SameAtRoot (call.run caller) ∧
      (∀ final, (call.run Machine.initial).machine? = some final →
        Machine.initial.OthersStay final) ∧
      ∀ final, (call.run caller).machine? = some final → caller.OthersStay final := by
  let : NumericLibrary := .standard
  intro block caller annotations call
  have rootChain : Machine.initial.frames.chain 0 = [0] := by
    rw [FrameTree.chain_eq_cons (by decide)]
    rfl
  have callerChain : caller.frames.chain 1 = [1, 0] := by
    simp only [caller, block, FrameTree.insert, FrameTree.chain_setOwn, FrameTree.chain_child,
      rootChain]
    rfl
  refine call_isolated annotations 1 "f" 1 [] Machine.initial caller (by decide) (by decide) ?_
  refine ⟨?_, rfl, rfl, rfl⟩
  have initialRoot : Machine.initial.frames.root 0 = 0 := by rw [FrameTree.root, rootChain]; rfl
  have callerRoot : caller.frames.root 1 = 0 := by rw [FrameTree.root, callerChain]; rfl
  change Machine.initial.frames.own (Machine.initial.frames.root 0) =
    caller.frames.own (caller.frames.root 1)
  rw [initialRoot, callerRoot]
  rfl

end ArrayForks
