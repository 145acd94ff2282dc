import ArrayForks.Proofs.FrameCondition

/-! # Which names the frames bind

Evaluating an expression changes the names of no frame: it writes only to names that are bound
already, and whatever a called function declares lies in frames that were made for the call. A
statement adds names at the end of its own frame and changes the names of no other one; a block not
even those. This holds however the expression or the statement ends.

* **`FrameTree.NamesStay`** and **`FrameTree.NamesGrowIn`** relate the trees before and after.
* **`Machine.steps_names`**: every single step of an evaluation keeps the one, and of an execution
  the other, as `Execution.Steps` asks. -/

namespace ArrayForks

namespace FrameTree

variable {α : Type}

/-- All frames of a tree are still there, within the same frames. -/
structure Grows (before after : FrameTree α) : Prop where
  size_le : before.nodes.size ≤ after.nodes.size
  chain_eq : ∀ id < before.nodes.size, after.chain id = before.chain id

/-- All frames bind the same names in the same order. -/
structure NamesStay (before after : FrameTree α) : Prop extends Grows before after where
  names_eq : ∀ id < before.nodes.size, (after.own id).names = (before.own id).names

/-- All frames but one bind the same names in the same order, and that one may bind further names
after those it bound before. -/
structure NamesGrowIn (here : FrameId) (before after : FrameTree α) : Prop
    extends Grows before after where
  names_eq : ∀ id < before.nodes.size, id ≠ here → (after.own id).names = (before.own id).names
  names_grow : here < before.nodes.size → (before.own here).names <+: (after.own here).names

/-- No frame has to be added. -/
theorem Grows.refl (tree : FrameTree α) : tree.Grows tree :=
  ⟨Nat.le_refl _, fun _ _ => rfl⟩

/-- What grows twice has grown. -/
theorem Grows.trans {first middle last : FrameTree α} (start : first.Grows middle)
    (rest : middle.Grows last) : first.Grows last where
  size_le := Nat.le_trans start.size_le rest.size_le
  chain_eq id inTree := by
    rw [rest.chain_eq id (Nat.lt_of_lt_of_le inTree start.size_le), start.chain_eq id inTree]

/-- Binding a name makes no frame and moves none. -/
theorem grows_insert (tree : FrameTree α) (id : FrameId) (name : String) (value : α) :
    tree.Grows (tree.insert id name value) where
  size_le := by simp [insert]
  chain_eq other _ := by simp [insert]

/-- A new frame moves no other one. -/
theorem grows_addFrame (tree : FrameTree α) (parent? : Option FrameId)
    (before : ∀ parent ∈ parent?, parent < tree.nodes.size) :
    tree.Grows (tree.addFrame parent? before).2 where
  size_le := by
    rw [size_addFrame]
    exact Nat.le_succ _
  chain_eq id inTree := by
    rw [chain_addFrame, if_neg (Nat.ne_of_lt inTree)]

/-- All names stay where nothing happens. -/
theorem NamesStay.refl (tree : FrameTree α) : tree.NamesStay tree :=
  ⟨Grows.refl tree, fun _ _ => rfl⟩

/-- Names that stay twice have stayed. -/
theorem NamesStay.trans {first middle last : FrameTree α} (start : first.NamesStay middle)
    (rest : middle.NamesStay last) : first.NamesStay last where
  toGrows := start.toGrows.trans rest.toGrows
  names_eq id inTree := by
    rw [rest.names_eq id (Nat.lt_of_lt_of_le inTree start.size_le), start.names_eq id inTree]

/-- Names of the current frame may be added twice. -/
theorem NamesGrowIn.trans {here : FrameId} {first middle last : FrameTree α}
    (start : first.NamesGrowIn here middle) (rest : middle.NamesGrowIn here last) :
    first.NamesGrowIn here last where
  toGrows := start.toGrows.trans rest.toGrows
  names_eq id inTree other := by
    rw [rest.names_eq id (Nat.lt_of_lt_of_le inTree start.size_le) other,
      start.names_eq id inTree other]
  names_grow inTree :=
    (start.names_grow inTree).trans
      (rest.names_grow (Nat.lt_of_lt_of_le inTree start.size_le))

/-- Names that stay also grow, by none. -/
theorem NamesStay.growIn {before after : FrameTree α} (stay : before.NamesStay after)
    (here : FrameId) : before.NamesGrowIn here after where
  toGrows := stay.toGrows
  names_eq id inTree _ := stay.names_eq id inTree
  names_grow inTree := by
    have same := stay.names_eq here inTree
    exact same ▸ List.prefix_rfl

/-! ### Changes of a tree -/

/-- Writing to a name where it is bound keeps all names. -/
theorem namesStay_insert {tree : FrameTree α} {id : FrameId} {name : String}
    (bound : (tree.own id).contains name = true) (value : α) :
    tree.NamesStay (tree.insert id name value) where
  toGrows := grows_insert tree id name value
  names_eq other _ := by
    rw [insert, own_setOwn]
    split
    · next same => rw [same.1, Bindings.names_insert_of_contains bound]
    · rfl

/-- Declaring a name adds it to the names of its frame unless it is one of them. -/
theorem namesGrowIn_insert (tree : FrameTree α) (here : FrameId) (name : String) (value : α) :
    tree.NamesGrowIn here (tree.insert here name value) where
  toGrows := grows_insert tree here name value
  names_eq other _ differ := by
    rw [insert, own_setOwn, if_neg fun same => differ same.1]
  names_grow inTree := by
    rw [insert, own_setOwn, if_pos ⟨rfl, inTree⟩]
    exact Bindings.names_grow_insert _ name value

/-- What happens in a new frame changes the names of no frame that was there before. -/
theorem NamesGrowIn.stay_of_addFrame {tree after : FrameTree α} {parent? : Option FrameId}
    {before : ∀ parent ∈ parent?, parent < tree.nodes.size}
    (grow : (tree.addFrame parent? before).2.NamesGrowIn tree.nodes.size after) :
    tree.NamesStay after where
  toGrows := (grows_addFrame tree parent? before).trans grow.toGrows
  names_eq id inTree := by
    have stillInTree := Nat.lt_of_lt_of_le inTree (grows_addFrame tree parent? before).size_le
    rw [grow.names_eq id stillInTree (Nat.ne_of_lt inTree), own_addFrame]

end FrameTree

/-! ### Runs -/

namespace Machine

/-- The machine is in the same frame, and the names of all frames are the same. -/
structure NamesStay (before after : Machine) : Prop where
  here_eq : after.here = before.here
  frames : before.frames.NamesStay after.frames

/-- The machine is in the same frame, and only this one may bind further names. -/
structure NamesGrow (before after : Machine) : Prop where
  here_eq : after.here = before.here
  frames : before.frames.NamesGrowIn before.here after.frames

/-- Where all names stay, no name has been added to the current frame. -/
theorem NamesStay.grow {before after : Machine} (stay : before.NamesStay after) :
    before.NamesGrow after :=
  ⟨stay.here_eq, stay.frames.growIn before.here⟩

/-- Names may be added to the current frame of the machine twice. -/
theorem NamesGrow.trans {first middle last : Machine} (start : first.NamesGrow middle)
    (rest : middle.NamesGrow last) : first.NamesGrow last where
  here_eq := rest.here_eq.trans start.here_eq
  frames := start.frames.trans (start.here_eq ▸ rest.frames)

/-- No elementary change of an evaluation changes a name. -/
theorem allows_namesStay : Allows NamesStay where
  refl machine := ⟨rfl, FrameTree.NamesStay.refl machine.frames⟩
  trans start rest := ⟨rest.here_eq.trans start.here_eq, start.frames.trans rest.frames⟩
  count machine _ := ⟨rfl, FrameTree.NamesStay.refl machine.frames⟩
  print machine _ := ⟨rfl, FrameTree.NamesStay.refl machine.frames⟩
  make machine _ := ⟨rfl, FrameTree.NamesStay.refl machine.frames⟩
  writeItem {machine _ _ _} _ _ := ⟨rfl, FrameTree.NamesStay.refl machine.frames⟩
  writeEntry {machine _ _} _ _ _ := ⟨rfl, FrameTree.NamesStay.refl machine.frames⟩
  writeName found value :=
    ⟨rfl, FrameTree.namesStay_insert (FrameTree.owner?_eq_some found).2 value⟩

/-- A computation that adds names to its own frame alone adds none to a frame that was there before
it was given a new one. -/
theorem keeps_names_within {α : Type} {computation : Eval α}
    {opening : FrameTree Copy → FrameId → FrameId × FrameTree Copy}
    (opens : ∀ tree here, ∃ parent? before, opening tree here = tree.addFrame parent? before)
    (keeps : Eval.Keeps NamesGrow α computation) :
    Eval.Keeps NamesStay α (Eval.within opening computation) := by
  intro machine final ends
  obtain ⟨last, rfl, ran⟩ := Eval.machine?_within ends
  obtain ⟨parent?, before, made⟩ := opens machine.frames machine.here
  have grow := (keeps _ last ran).frames
  simp only [Machine.enter, made] at grow
  exact ⟨rfl, grow.stay_of_addFrame⟩

/-- Evaluations keep all names, and executions add names to their own frame alone. -/
theorem steps_names : Execution.Steps (Eval.Keeps NamesStay) (Eval.Keeps NamesGrow) where
  evaluation := allows_namesStay.steps
  composes := Eval.composes_keeps
    (fun machine => (allows_namesStay.refl machine).grow) NamesGrow.trans
  unfinished := Eval.keeps_unfinished
  lift keeps machine final ends := (keeps machine final ends).grow
  declare name value machine final ends := by
    cases ends
    exact ⟨rfl, FrameTree.namesGrowIn_insert machine.frames machine.here name value⟩
  block := keeps_names_within fun tree here => ⟨(tree.chain here).head?, _, rfl⟩
  call := keeps_names_within fun tree here => ⟨(tree.chain here).getLast?, _, rfl⟩

end Machine

variable [NumericLibrary]

/-- **Names of frames along a run.** Let `node` end in `final`, with a value or with a failure.

* `evaluate` gives `machine.NamesStay final`: every frame that existed before it has the names it
  had, in the same order, and the frames around it are the same;
* `execute` gives `machine.NamesGrow final`: so do all frames but the current one, and this one may
  have further names after those it had;
* `execute` of a `.block` gives `machine.NamesStay final` again. -/
theorem names_after_run (annotations : Annotations) (callLimit limit : Nat) (node : Node)
    (machine final : Machine) :
    let calls := Execution.callsTo annotations callLimit
    ((((Evaluation.evaluate annotations calls node).run machine).machine? = some final →
      machine.NamesStay final) ∧
    (((Execution.execute annotations calls limit node).run machine).machine? = some final →
      machine.NamesGrow final ∧ ∀ id body, node = .block id body → machine.NamesStay final)) := by
  intro calls
  have called := Machine.steps_names.callsTo annotations callLimit
  refine ⟨?_, fun ends => ⟨?_, ?_⟩⟩
  · exact Machine.steps_names.evaluation.evaluate annotations called node machine final
  · exact Machine.steps_names.execute annotations called limit node machine final ends
  · rintro id body rfl
    have promised := Machine.steps_names.executeAll annotations called limit body
    exact Machine.steps_names.block promised machine final ends

end ArrayForks
