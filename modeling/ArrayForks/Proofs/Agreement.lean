import ArrayForks.Proofs.Steps

/-! # Runs that agree

Two runs of one computation agree if they end alike: with the same value or the same failure, the
same heap and the same output, whatever their frames are. Frames are compared through a
correspondence, which says which frame of one tree stands for which frame of the other. If the
frames that stand for each other bind the same and open alike, then every evaluation and every
execution in them agree.

* **`Outcome.Agree`** relates two outcomes, and **`Eval.Agrees`** says so of a computation from
  any two machines that are `Machine.Alike`.
* **`FrameTree.Correspondence.Lasts.steps`**: a correspondence that lasts in new frames gives
  `Execution.Steps`, from which every `evaluate` and every `execute` agrees with itself. -/

namespace ArrayForks

namespace FrameTree

/-- Which frames of two trees stand for each other, and what the trees have in common for it. -/
structure Correspondence (α : Type) where
  /-- The left tree corresponds to the right tree. -/
  trees : FrameTree α → FrameTree α → Prop
  /-- The left frame stands for the right frame. -/
  frames : FrameId → FrameId → Prop

/-- A correspondence of the frames that names are looked up from goes with one of the frames that they
are found in: these bind the same, and they can be written in step. -/
structure Correspondence.Carries {α : Type} (twins found : Correspondence α) : Prop where
  owner {left right : FrameTree α} {leftId rightId : FrameId} (trees : twins.trees left right)
    (frames : twins.frames leftId rightId) (name : String) :
    Option.Rel found.frames (left.owner? leftId name) (right.owner? rightId name)
  own_eq {left right : FrameTree α} {leftId rightId : FrameId} (trees : twins.trees left right)
    (frames : found.frames leftId rightId) : left.own leftId = right.own rightId
  insert {left right : FrameTree α} {leftId rightId : FrameId} (trees : twins.trees left right)
    (frames : found.frames leftId rightId) (name : String) (value : α) :
    twins.trees (left.insert leftId name value) (right.insert rightId name value)

/-- Frames from which names are looked up open frames that stand for each other. -/
structure Correspondence.Opens {α : Type} (twins opened : Correspondence α) : Prop where
  child {left right : FrameTree α} {leftId rightId : FrameId} (trees : twins.trees left right)
    (frames : twins.frames leftId rightId) :
    opened.frames (left.child leftId).1 (right.child rightId).1 ∧
      opened.trees (left.child leftId).2 (right.child rightId).2
  callFrame {left right : FrameTree α} {leftId rightId : FrameId} (trees : twins.trees left right)
    (frames : twins.frames leftId rightId) :
    opened.frames (left.callFrame leftId).1 (right.callFrame rightId).1 ∧
      opened.trees (left.callFrame leftId).2 (right.callFrame rightId).2

/-- A correspondence that no step of a program leaves: a name is found in frames that stand for each
other, these bind the same, and they can be written and opened in step. -/
structure Correspondence.Lasts {α : Type} (twins : Correspondence α) : Prop
    extends Correspondence.Carries twins twins, Correspondence.Opens twins twins

/-- Frames that stand for each other give a name the same value. -/
theorem Correspondence.Carries.lookup_eq {α : Type} {twins found : Correspondence α}
    (carries : twins.Carries found) {left right : FrameTree α} {leftId rightId : FrameId}
    (trees : twins.trees left right) (frames : twins.frames leftId rightId) (name : String) :
    left.lookup leftId name = right.lookup rightId name := by
  have owners := carries.owner trees frames name
  unfold lookup find?
  generalize left.owner? leftId name = leftOwner at owners ⊢
  generalize right.owner? rightId name = rightOwner at owners ⊢
  cases owners with
  | none => rfl
  | some owners => rw [Option.bind_some, Option.bind_some, carries.own_eq trees owners]

end FrameTree

open FrameTree (Correspondence)

/-- Machines that are alike but for their frames, which correspond. -/
structure Machine.Alike (twins : Correspondence Copy) (left right : Machine) : Prop where
  trees : twins.trees left.frames right.frames
  here : twins.frames left.here right.here
  heap_eq : left.heap = right.heap
  made_eq : left.made = right.made
  output_eq : left.output = right.output

/-- Two computations end alike, and in related machines. -/
inductive Outcome.Agree {α : Type} (related : Machine → Machine → Prop) :
    Outcome α → Outcome α → Prop where
  /-- Both end with the same value. -/
  | done (value : α) {left right : Machine} (machines : related left right) :
      Agree related (.done value left) (.done value right)
  /-- Both end with the same failure. -/
  | failed (failure : Failure) {left right : Machine} (machines : related left right) :
      Agree related (.failed failure left) (.failed failure right)
  /-- Neither ends within its limit. -/
  | unfinished : Agree related .unfinished .unfinished

/-- What the machines at the end of runs that agree have in common may be weakened. -/
theorem Outcome.Agree.imp {α : Type} {related weaker : Machine → Machine → Prop}
    {left right : Outcome α} (agree : left.Agree related right)
    (weaken : ∀ leftEnd rightEnd, left.machine? = some leftEnd → right.machine? = some rightEnd →
      related leftEnd rightEnd → weaker leftEnd rightEnd) :
    left.Agree weaker right := by
  cases agree with
  | done value machines => exact .done value (weaken _ _ rfl rfl machines)
  | failed failure machines => exact .failed failure (weaken _ _ rfl rfl machines)
  | unfinished => exact .unfinished

/-- Of two runs that agree neither ends if the first one does not. -/
theorem Outcome.Agree.eq_unfinished {α : Type} {related : Machine → Machine → Prop}
    {left right : Outcome α} (agree : left.Agree related right) (unended : left = .unfinished) :
    right = .unfinished := by
  cases agree with
  | done value machines => cases unended
  | failed failure machines => cases unended
  | unfinished => rfl

/-- Two sequences agree if their first computations do, and if from there on what follows them
does. -/
theorem Outcome.Agree.bind {α β : Type} {related : Machine → Machine → Prop}
    {first second : Eval α} {next other : α → Eval β} {left right : Machine}
    (start : (first.run left).Agree related (second.run right))
    (rest : ∀ value leftMiddle rightMiddle, first.run left = .done value leftMiddle →
      related leftMiddle rightMiddle →
      ((next value).run leftMiddle).Agree related ((other value).run rightMiddle)) :
    ((first >>= next).run left).Agree related ((second >>= other).run right) := by
  rw [Eval.run_bind, Eval.run_bind]
  generalize ran : first.run left = leftEnd at start ⊢
  generalize second.run right = rightEnd at start ⊢
  -- Either both runs go on with the same value or both are over.
  cases start with
  | done value machines => exact rest value _ _ ran machines
  | failed failure machines => exact .failed failure machines
  | unfinished => exact .unfinished

/-- Failures of computations that agree get the same place. -/
theorem Outcome.Agree.locate {α : Type} {related : Machine → Machine → Prop}
    {first second : Eval α} {left right : Machine} (node : Unit → String)
    (ends : (first.run left).Agree related (second.run right)) :
    ((Eval.locate node first).run left).Agree related ((Eval.locate node second).run right) := by
  simp only [Eval.run, Eval.locate] at ends ⊢
  generalize first left = leftEnd at ends ⊢
  generalize second right = rightEnd at ends ⊢
  cases ends with
  | done value machines => exact .done value machines
  | failed failure machines => exact .failed (failure.locate node) machines
  | unfinished => exact .unfinished

/-- The computations whose runs agree in machines that are alike. -/
def Eval.Agrees (twins : Correspondence Copy) : Eval.Trait := fun _ computation =>
  ∀ left right, Machine.Alike twins left right →
    (computation.run left).Agree (Machine.Alike twins) (computation.run right)

namespace Eval

variable {α : Type} {twins : Correspondence Copy}

/-- Sequencing keeps runs in agreement. -/
theorem composes_agrees : Composes (Agrees twins) where
  pure value _ _ alike := .done value alike
  bind first rest left right alike :=
    (first left right alike).bind fun value leftMiddle rightMiddle _ machines =>
      rest value leftMiddle rightMiddle machines
  fail failure _ _ alike := .failed failure alike
  look view left right alike := by
    rw [run_look, run_look, alike.heap_eq]
    exact .done _ alike

/-- Copies are numbered by how many there are, which is the same in both machines. -/
theorem agrees_keep (copy : Copy) : Agrees twins Copy (keep copy) := by
  intro left right alike
  rw [run_keep, run_keep, alike.made_eq]
  exact .done _ { alike with made_eq := rfl }

/-- An object is put where the heap ends, which is the same place in both machines. -/
theorem agrees_make (object : Object) : Agrees twins Copy (make object) := by
  intro left right alike
  rw [run_make, run_make, alike.heap_eq]
  exact .done _ { alike with heap_eq := rfl }

/-- Every step on values agrees, whatever the frames are. -/
theorem valueSteps_agrees (twins : Correspondence Copy) :
    Evaluation.ValueSteps (Agrees twins) where
  toComposes := composes_agrees
  locate node _ agrees left right alike := (agrees left right alike).locate node
  make := agrees_make
  keep := agrees_keep

/-- Objects are replaced in heaps that are the same. -/
theorem agrees_replace (ref : Ref) (object : Object) :
    Agrees twins Unit (replace ref object) := by
  intro left right alike
  rw [run_replace, run_replace, alike.heap_eq]
  exact .done _ { alike with heap_eq := rfl }

/-- The same line is added to outputs that are the same. -/
theorem agrees_print (copy : Copy) : Agrees twins Copy (print copy) := by
  refine composes_agrees.bind (composes_agrees.look fun heap => heap) fun heap => ?_
  refine composes_agrees.bind ?_ fun _ => agrees_keep _
  intro left right alike
  rw [run_change, run_change, alike.output_eq]
  exact .done _ { alike with output_eq := rfl }

/-- An element is written in heaps that are the same. -/
theorem agrees_writeElement (target : Value) (index : Index) (value : Copy) :
    Agrees twins Unit (Evaluation.writeElement target index value) := by
  refine composes_agrees.bind (composes_agrees.look fun heap => heap.object? target)
    fun object => ?_
  split
  · split
    · exact agrees_replace _ _
    · exact composes_agrees.fail _
  · exact agrees_replace _ _
  · exact composes_agrees.fail _

/-- A field is written in heaps that are the same. -/
theorem agrees_writeField (stem : Value) (name : String) (value : Copy) :
    Agrees twins Unit (Evaluation.writeField stem name value) := by
  refine composes_agrees.bind (composes_agrees.look fun heap => heap.object? stem)
    fun object => ?_
  split
  · exact agrees_replace _ _
  · exact composes_agrees.fail _

section

variable {found : Correspondence Copy} (carries : twins.Carries found)

include carries

/-- A name is read alike from frames that correspond. -/
theorem agrees_readName (name : String) : Agrees twins Copy (readName name) := by
  intro left right alike
  unfold readName
  rw [run_bind, run_bind, run_look, run_look, carries.lookup_eq alike.trees alike.here]
  exact composes_agrees.ofExcept _ left right alike

/-- A name is written in frames that correspond. -/
theorem agrees_writeName (name : String) (value : Copy) :
    Agrees twins Unit (writeName name value) := by
  intro left right alike
  have owners := carries.owner alike.trees alike.here name
  simp only [run, writeName]
  generalize left.frames.owner? left.here name = leftOwner at owners ⊢
  generalize right.frames.owner? right.here name = rightOwner at owners ⊢
  -- The name is bound on both sides, in frames that stand for each other, or on neither.
  cases owners with
  | none => exact .failed _ alike
  | some owners => exact .done () { alike with trees := carries.insert alike.trees owners name value }

end

/-- A name is bound in the current frames of both, if that carries the correspondence on. -/
theorem agrees_declare (carries : twins.Carries twins) (name : String) (value : Copy) :
    Agrees twins Unit (declare name value) := by
  intro left right alike
  exact .done () { alike with trees := carries.insert alike.trees alike.here name value }

/-- Runs in new frames agree when they come back to the old ones, if these stand for each other. -/
theorem agree_within {twins around : Correspondence Copy} {first second : Eval α}
    {opening : FrameTree Copy → FrameId → FrameId × FrameTree Copy} {left right : Machine}
    (ends : (first.run (left.enter opening)).Agree (Machine.Alike twins)
      (second.run (right.enter opening)))
    (back : ∀ leftTree rightTree, twins.trees leftTree rightTree →
      around.trees leftTree rightTree) (here : around.frames left.here right.here) :
    ((within opening first).run left).Agree (Machine.Alike around)
      ((within opening second).run right) := by
  change (Outcome.backIn left.here (first.run (left.enter opening))).Agree _
    (Outcome.backIn right.here (second.run (right.enter opening)))
  generalize first.run (left.enter opening) = leftEnd at ends
  generalize second.run (right.enter opening) = rightEnd at ends
  -- Coming back changes the current frame alone, and the old frames stand for each other.
  cases ends with
  | done value machines => exact .done value { machines with trees := back _ _ machines.trees, here }
  | failed failure machines =>
      exact .failed failure { machines with trees := back _ _ machines.trees, here }
  | unfinished => exact .unfinished

section

variable {around : Correspondence Copy} {computation : Eval α} (opens : around.Opens twins)
  (back : ∀ leftTree rightTree, twins.trees leftTree rightTree → around.trees leftTree rightTree)
  (agrees : Agrees twins α computation)

include opens back agrees

/-- Blocks agree if what they open are frames in which their statements agree. -/
theorem agrees_inBlock : Agrees around α (inBlock computation) := by
  intro left right alike
  have opened := opens.child alike.trees alike.here
  have entered : Machine.Alike twins (left.enter FrameTree.child) (right.enter FrameTree.child) :=
    ⟨opened.2, opened.1, alike.heap_eq, alike.made_eq, alike.output_eq⟩
  exact agree_within (agrees _ _ entered) back alike.here

/-- Calls agree if what they open are frames in which their statements agree. -/
theorem agrees_inCall : Agrees around α (inCall computation) := by
  intro left right alike
  have opened := opens.callFrame alike.trees alike.here
  have entered : Machine.Alike twins (left.enter FrameTree.callFrame)
      (right.enter FrameTree.callFrame) :=
    ⟨opened.2, opened.1, alike.heap_eq, alike.made_eq, alike.output_eq⟩
  exact agree_within (agrees _ _ entered) back alike.here

end

end Eval

/-- Every step of an evaluation agrees in frames from which names are found in step. -/
theorem FrameTree.Correspondence.Carries.steps {twins found : Correspondence Copy}
    (carries : twins.Carries found) : Evaluation.Steps (Eval.Agrees twins) where
  toQuietSteps :=
    { Eval.valueSteps_agrees twins with readName := Eval.agrees_readName carries }
  print := Eval.agrees_print
  writeName := Eval.agrees_writeName carries
  writeElement := Eval.agrees_writeElement
  writeField := Eval.agrees_writeField

/-- Under a correspondence that lasts, all runs agree. -/
theorem FrameTree.Correspondence.Lasts.steps {twins : Correspondence Copy} (lasts : twins.Lasts) :
    Execution.Steps (Eval.Agrees twins) (Eval.Agrees twins) where
  evaluation := lasts.toCarries.steps
  composes := Eval.composes_agrees
  unfinished _ _ _ := .unfinished
  lift agrees := agrees
  declare := Eval.agrees_declare lasts.toCarries
  block := Eval.agrees_inBlock lasts.toOpens fun _ _ trees => trees
  call := Eval.agrees_inCall lasts.toOpens fun _ _ trees => trees

end ArrayForks
