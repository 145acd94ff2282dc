import Mathlib.Data.List.Perm.Subperm
import ArrayForks.Proofs.FrameRequests

/-! # Frames as one map

Whatever frames are opened and whatever is bound in them and removed, the frames around a frame end
in the one root and read as one map, in which a nearer frame lies over the farther ones. All ways of
reading a name agree, and two frames read alike exactly when their maps are equal, whichever frames
bind the names and in whatever order.

* **`FrameTree.Reachable`**: trees that come about by opening frames, binding and removing.
* **`Reachable.hasOneRoot`**: their frames all lead to the root `0`.
* **`Shows.of_find?`**, **`Lacks.of_find?`**, **`readsAs_iff`**: all ways of reading follow
  `find?`. -/

namespace ArrayForks

variable {α : Type}

namespace FrameTree

/-- The trees that come from one frame by opening frames and by requests to them. -/
inductive Reachable : FrameTree α → Prop where
  /-- The tree of one frame. -/
  | ofRoot (root : Frame α) : Reachable (.ofRoot root)
  /-- A frame is opened within a frame. -/
  | child {tree : FrameTree α} (reachable : Reachable tree) {id : FrameId}
      (inTree : id < tree.nodes.size) : Reachable (tree.child id).2
  /-- A frame is opened within the root. -/
  | callFrame {tree : FrameTree α} (reachable : Reachable tree) {id : FrameId}
      (inTree : id < tree.nodes.size) : Reachable (tree.callFrame id).2
  /-- A frame is asked for something, which it may refuse. -/
  | request {tree : FrameTree α} (reachable : Reachable tree) {id : FrameId}
      (inTree : id < tree.nodes.size) (request : FrameRequest α) :
      Reachable ((request.perform id).run tree).2

/-- The frame that was made first is the only one without a frame around it. -/
structure HasOneRoot (tree : FrameTree α) : Prop where
  size_pos : 0 < tree.nodes.size
  parent?_eq_none_iff : ∀ id < tree.nodes.size, tree.parent? id = none ↔ id = 0

/-- A frame that is made within another is no root. -/
theorem HasOneRoot.addFrame {tree : FrameTree α} (oneRoot : tree.HasOneRoot) {parent : FrameId}
    {parent? : Option FrameId} (isParent : parent? = some parent)
    (before : ∀ parent ∈ parent?, parent < tree.nodes.size) :
    (tree.addFrame parent? before).2.HasOneRoot where
  size_pos := by
    rw [size_addFrame]
    exact Nat.succ_pos _
  parent?_eq_none_iff id made := by
    rw [parent?_addFrame]
    split
    · next isNew =>
        have notFirst : id ≠ 0 := isNew ▸ Nat.ne_of_gt oneRoot.size_pos
        simp [isParent, notFirst]
    · next isOld =>
        rw [size_addFrame] at made
        exact oneRoot.parent?_eq_none_iff id (Nat.lt_of_le_of_ne (Nat.le_of_lt_succ made) isOld)

/-- Requests to frames move none of them. -/
theorem DiffersOnlyIn.hasOneRoot {changed? : Option FrameId} {before after : FrameTree α}
    (differs : DiffersOnlyIn changed? before after) (oneRoot : before.HasOneRoot) :
    after.HasOneRoot where
  size_pos := differs.size_eq ▸ oneRoot.size_pos
  parent?_eq_none_iff id made := by
    rw [differs.parent_eq]
    exact oneRoot.parent?_eq_none_iff id (differs.size_eq ▸ made)

/-- There is one root, whatever happens to a tree. -/
theorem Reachable.hasOneRoot {tree : FrameTree α} (reachable : tree.Reachable) :
    tree.HasOneRoot := by
  induction reachable with
  | ofRoot root =>
      refine ⟨Nat.one_pos, fun id made => ?_⟩
      obtain rfl : id = 0 := Nat.lt_one_iff.mp made
      exact iff_of_true rfl rfl
  | @child tree reachable id inTree oneRoot =>
      have isParent : (tree.chain id).head? = some id := by
        rw [chain_eq_cons inTree, List.head?_cons]
      exact oneRoot.addFrame isParent _
  | callFrame reachable inTree oneRoot => exact oneRoot.addFrame (getLast?_chain inTree) _
  | @request tree reachable id inTree request oneRoot =>
      exact (request.isAtomic_perform tree id).differs.hasOneRoot oneRoot

section

variable {tree : FrameTree α} {id : FrameId}

/-- Each frame of a chain lies within the one after it. -/
theorem isChain_chain (tree : FrameTree α) (id : FrameId) :
    (tree.chain id).IsChain fun inner outer => tree.parent? inner = some outer := by
  induction id using Nat.strongRecOn with
  | ind id inductionHypothesis =>
      rcases Nat.lt_or_ge id tree.nodes.size with inTree | outside
      · rw [chain_eq_cons inTree]
        cases around : tree.parent? id with
        | none => exact .singleton id
        | some parent =>
            have nearer := lt_of_parent? around
            have rest := inductionHypothesis parent nearer
            rw [chain_eq_cons (Nat.lt_trans nearer inTree)] at rest
            rw [Option.elim_some, chain_eq_cons (Nat.lt_trans nearer inTree)]
            exact .cons_cons around rest
      · rw [chain_eq_nil outside]
        exact .nil

/-- The chain of each frame ends in the one root. -/
theorem HasOneRoot.getLast?_chain (oneRoot : tree.HasOneRoot) (inTree : id < tree.nodes.size) :
    (tree.chain id).getLast? = some 0 := by
  have last := FrameTree.getLast?_chain inTree
  have rootInTree := root_lt_size inTree
  have alone : tree.parent? (tree.root id) = none := by
    have chain_root := chain_of_getLast? last
    cases around : tree.parent? (tree.root id) with
    | none => rfl
    | some parent =>
        have nearer := lt_of_parent? around
        rw [chain_eq_cons rootInTree, around, Option.elim_some,
          chain_eq_cons (Nat.lt_trans nearer rootInTree)] at chain_root
        cases chain_root
  rw [last, (oneRoot.parent?_eq_none_iff _ rootInTree).mp alone]

end

/-! ### One name -/

/-- A frame shows a name with the value that the nearest frame to bind it holds, in every way of
reading. -/
structure Shows (tree : FrameTree α) (id : FrameId) (name : String) (value : α) : Prop where
  nearest : ∃ nearer frame farther, tree.chain id = nearer ++ frame :: farther ∧
    (∀ inner ∈ nearer, (tree.own inner).contains name = false) ∧
    (tree.own frame).find? name = some value ∧ tree.owner? id name = some frame
  listed : name ∈ tree.names id
  contains : tree.contains id name = true
  lookup : tree.lookup id name = .ok value
  read : (Access.read id name).run tree = (.ok value, tree)
  find? : tree.find? id name = some value
  item : ∀ other, (name, other) ∈ tree.entries id ↔ other = value

/-- A frame lacks a name that no frame around it binds, in every way of reading. -/
structure Lacks (tree : FrameTree α) (id : FrameId) (name : String) : Prop where
  unbound : ∀ frame ∈ tree.chain id, (tree.own frame).contains name = false
  owner? : tree.owner? id name = none
  unlisted : name ∉ tree.names id
  contains : tree.contains id name = false
  lookup : tree.lookup id name = .error (.undefinedName name)
  read : (Access.read id name).run tree = (.error .missing, tree)
  find? : tree.find? id name = none
  item : ∀ value, (name, value) ∉ tree.entries id

section

variable {tree : FrameTree α} {id : FrameId} {name : String}

/-- A name that the search finds is shown. -/
theorem Shows.of_find? {value : α} (found : tree.find? id name = some value) :
    tree.Shows id name value where
  nearest := by
    obtain ⟨frame, nearest, held⟩ := Option.bind_eq_some_iff.mp found
    obtain ⟨-, nearer, farther, chain, unbound⟩ := List.find?_eq_some_iff_append.mp nearest
    exact ⟨nearer, frame, farther, chain, fun inner isNearer => by simpa using unbound inner isNearer,
      held, nearest⟩
  listed := by rw [mem_names_iff, found, Option.isSome_some]
  contains := by rw [← isSome_find?_iff, found, Option.isSome_some]
  lookup := by rw [FrameTree.lookup, found]
  read := Access.run_read_of_found found
  find? := found
  item other := by rw [mem_entries_iff, found, Option.some_inj, eq_comm]

/-- A name that the search does not find is lacking. -/
theorem Lacks.of_find? (missing : tree.find? id name = none) : tree.Lacks id name := by
  have uncontained : tree.contains id name = false := by
    rw [← Bool.not_eq_true, ← isSome_find?_iff, missing]
    exact Bool.false_ne_true
  have nowhere : tree.owner? id name = none := Option.isNone_iff_eq_none.mp (by
    rw [← Option.not_isSome, ← FrameTree.contains, uncontained, Bool.not_false])
  exact {
    unbound := fun frame inChain => by
      simpa using List.find?_eq_none.mp nowhere frame inChain
    owner? := nowhere
    unlisted := by
      rw [mem_names_iff, missing]
      exact Bool.false_ne_true
    contains := uncontained
    lookup := by rw [FrameTree.lookup, missing]
    read := Access.run_read_of_missing missing
    find? := missing
    item := fun value isListed => by
      rw [mem_entries_iff, missing] at isListed
      cases isListed }

end

/-! ### All names -/

/-- Frames read alike exactly when they have the same names in reach, with equal values. -/
theorem readsAs_iff (tree : FrameTree α) (equal : α → α → Bool) (id other : FrameId) :
    tree.readsAs equal id other = true ↔
      (∀ name, name ∈ tree.names id ↔ name ∈ tree.names other) ∧
      ∀ name left right, tree.find? id name = some left → tree.find? other name = some right →
        equal left right = true := by
  rw [readsAs, Bool.and_eq_true, beq_iff_eq, List.all_eq_true]
  constructor
  · rintro ⟨sameSize, all⟩
    have found (name : String) (left : α) (isLeft : tree.find? id name = some left) :
        ∃ right, tree.find? other name = some right ∧ equal left right = true := by
      have compared := all (name, left) ((tree.mem_entries_iff id name left).mpr isLeft)
      split at compared
      · next right isRight => exact ⟨right, isRight, compared⟩
      · cases compared
    -- All names are among the other names, of which there are no more.
    have subset : tree.names id ⊆ tree.names other := fun name isListed => by
      obtain ⟨left, isLeft⟩ := Option.isSome_iff_exists.mp ((tree.mem_names_iff id name).mp isListed)
      obtain ⟨right, isRight, -⟩ := found name left isLeft
      rw [mem_names_iff, isRight, Option.isSome_some]
    have sameNames : (tree.names id).Perm (tree.names other) := by
      refine (List.subperm_of_subset (tree.names_nodup id) subset).perm_of_length_le ?_
      rw [names, names, List.length_map, List.length_map]
      exact Nat.le_of_eq sameSize.symm
    refine ⟨fun name => sameNames.mem_iff, fun name left right isLeft isRight => ?_⟩
    obtain ⟨held, isHeld, equalHeld⟩ := found name left isLeft
    rw [isHeld] at isRight
    cases isRight
    exact equalHeld
  · rintro ⟨sameNames, equalValues⟩
    constructor
    · have perm := (List.perm_ext_iff_of_nodup (tree.names_nodup id) (tree.names_nodup other)).mpr
        sameNames
      simpa only [names, FrameTree.size, List.length_map] using perm.length_eq
    · rintro ⟨name, left⟩ isListed
      have isLeft := (tree.mem_entries_iff id name left).mp isListed
      have listed : name ∈ tree.names other := by
        rw [← sameNames, mem_names_iff, isLeft, Option.isSome_some]
      obtain ⟨right, isRight⟩ :=
        Option.isSome_iff_exists.mp ((tree.mem_names_iff other name).mp listed)
      simp only [isRight]
      exact equalValues name left right isLeft isRight

end FrameTree

open FrameTree in
/-- **The frames around a frame read as one map.**

* `tree.chain id` starts at `id`, goes from each frame to its parent and ends at the root `0`, the
  only frame without one.
* `tree.names id` lists each name in reach once: the names of the frame in the order of their
  definition, and then those of each farther frame that have not come yet. `tree.size id` is its
  length.
* For every name, `tree.Shows id name value` or `tree.Lacks id name`: all ways of reading show the
  value that the nearest frame to bind the name holds, or all of them lack it.
* `tree.readsAs equal id other` holds exactly if both frames have the same names in reach, with
  equal values. -/
theorem frames_read_as_one_map (tree : FrameTree α) (reachable : tree.Reachable) (id : FrameId)
    (inTree : id < tree.nodes.size) :
    ((tree.chain id).head? = some id ∧
      (tree.chain id).IsChain (fun inner outer => tree.parent? inner = some outer) ∧
      (tree.chain id).getLast? = some 0 ∧
      ∀ frame < tree.nodes.size, tree.parent? frame = none ↔ frame = 0) ∧
    (tree.names id).Nodup ∧
    tree.names id = ((tree.frames id).flatMap Bindings.names).eraseDups ∧
    (∀ name, (∃ value, tree.Shows id name value) ∨ tree.Lacks id name) ∧
    tree.size id = (tree.names id).length ∧
    ∀ equal other, tree.readsAs equal id other = true ↔
      (∀ name, name ∈ tree.names id ↔ name ∈ tree.names other) ∧
      ∀ name left right, tree.find? id name = some left → tree.find? other name = some right →
        equal left right = true := by
  have oneRoot := reachable.hasOneRoot
  refine ⟨⟨?_, tree.isChain_chain id, oneRoot.getLast?_chain inTree, oneRoot.parent?_eq_none_iff⟩,
    tree.names_nodup id, names_visibleEntries (tree.frames id), fun name => ?_, ?_,
    fun equal other => tree.readsAs_iff equal id other⟩
  · rw [chain_eq_cons inTree, List.head?_cons]
  · cases found : tree.find? id name with
    | some value => exact .inl ⟨value, .of_find? found⟩
    | none => exact .inr (.of_find? found)
  · rw [FrameTree.size, names, List.length_map]

open FrameTree in
/-- A frame that binds one of the two names of the root again lists it first, shows its own value for
it, and does not read as the root does. -/
theorem frames_read_as_one_map_shadowed :
    let root := FrameTree.ofRoot (Bindings.ofList [("x", 1), ("y", 2)])
    let tree := (((FrameRequest.define "y" 3).perform 1).run (root.child 0).2).2
    tree.Reachable ∧ 1 < tree.nodes.size ∧ tree.names 1 = ["y", "x"] ∧ tree.Shows 1 "y" 3 ∧
      tree.Lacks 1 "z" ∧ tree.readsAs (· == ·) 1 0 = false := by
  intro root tree
  have reachable : tree.Reachable := .request (.child (.ofRoot _) (by decide)) (by decide) _
  have inTree : 1 < tree.nodes.size := by decide
  obtain ⟨-, -, isNames, each, -, alike⟩ := frames_read_as_one_map tree reachable 1 inTree
  have chain : tree.chain 1 = [1, 0] := by
    have isNew : 1 = root.nodes.size := rfl
    rw [((FrameRequest.define "y" 3).isAtomic_perform (root.child 0).2 1).differs.chain_eq,
      chain_child, if_pos isNew, chain_eq_cons (by decide)]
    rfl
  have frames : tree.frames 1 = [tree.own 1, tree.own 0] := by
    rw [FrameTree.frames, chain]
    rfl
  have names : tree.names 1 = ["y", "x"] := by
    rw [isNames, frames]
    rfl
  have shown : tree.find? 1 "y" = some 3 := by
    rw [find?_eq_own (by rfl)]
    rfl
  have hidden : tree.find? 0 "y" = some 2 := by
    rw [find?_eq_own (by rfl)]
    rfl
  refine ⟨reachable, inTree, names, ?_, ?_, ?_⟩
  · rcases each "y" with ⟨value, shows⟩ | lacks
    · cases shows.find?.symm.trans shown
      exact shows
    · cases lacks.find?.symm.trans shown
  · refine (each "z").resolve_left ?_
    rintro ⟨value, shows⟩
    have listed := shows.listed
    rw [names] at listed
    revert listed
    decide
  · refine Bool.eq_false_iff.mpr fun readsAlike => ?_
    have equalValues := ((alike (· == ·) 0).mp readsAlike).2 "y" 3 2 shown hidden
    revert equalValues
    decide

end ArrayForks
