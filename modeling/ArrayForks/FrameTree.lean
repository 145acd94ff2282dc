import ArrayForks.Bindings
import ArrayForks.Failure

/-! # Trees of frames

Variables live in frames. A block opens a frame within the frame that it stands in, and a call
opens one within the root, so that frames form a tree. They are numbered as they are made, and each
one knows the frames around it. Reading a name and assigning to it go to the nearest frame that
binds it, and so all frames around a frame read as one map in which nearer frames overlay farther
ones. Declaring a name and removing it touch one frame alone.

* **`tree.chain id`** lists the frames from `id` outwards, and **`tree.owner? id name`** is the
  first of them to bind the name.
* **`tree.find? id name`** is its value; **`entries`** and **`names`** list all that is in reach.
* **`child`**, **`callFrame`**, **`insert`**, **`erase`** are the changes. -/

namespace ArrayForks

/-- The variables of one frame. -/
abbrev Frame (α : Type) := Bindings String α

/-- The number of a frame in a tree. -/
abbrev FrameId := Nat

/-- A frame in a tree. -/
structure TreeFrame (α : Type) where
  /-- The frame's own bindings. -/
  own : Frame α
  /-- The frame around it, unless it is a root. -/
  parent? : Option FrameId

/-- Frames within frames. -/
structure FrameTree (α : Type) where
  /-- The frames in the order in which they were made. -/
  nodes : Array (TreeFrame α)
  /-- The frame around a frame was made before it. -/
  parent_lt : ∀ (id : FrameId) (made : id < nodes.size), ∀ parent ∈ nodes[id].parent?, parent < id

/-- The names in reach within frames with their values: those of the nearest frame first, then those
of the farther frames that no nearer frame hides. -/
def visibleEntries {α : Type} : List (Frame α) → List (String × α)
  | [] => []
  | frame :: frames =>
      frame.entries ++ (visibleEntries frames).filter fun entry => !frame.contains entry.1

namespace FrameTree

variable {α : Type}

/-- A tree of one frame. -/
def ofRoot (root : Frame α) : FrameTree α where
  nodes := #[⟨root, none⟩]
  parent_lt id made := by
    have first : id = 0 := by simpa using made
    simp [first]

/-- The bindings of a frame itself. -/
def own (tree : FrameTree α) (id : FrameId) : Frame α :=
  match tree.nodes[id]? with
  | some frame => frame.own
  | none => .empty

/-- The frame around a frame. -/
def parent? (tree : FrameTree α) (id : FrameId) : Option FrameId :=
  tree.nodes[id]?.bind TreeFrame.parent?

/-- A frame is made after the frame around it. -/
theorem lt_of_parent? {tree : FrameTree α} {id parent : FrameId}
    (around : tree.parent? id = some parent) : parent < id := by
  obtain ⟨frame, found, isParent⟩ := Option.bind_eq_some_iff.mp around
  obtain ⟨made, rfl⟩ := Array.getElem?_eq_some_iff.mp found
  exact tree.parent_lt id made parent isParent

/-- A frame and the frames around it, the nearest first. -/
def chain (tree : FrameTree α) (id : FrameId) : List FrameId :=
  if id < tree.nodes.size then
    match _ : tree.parent? id with
    | some parent => id :: chain tree parent
    | none => [id]
  else []
termination_by id
decreasing_by exact lt_of_parent? ‹_›

/-- The chain of a frame in the tree starts with the frame and goes on with the chain of the frame
around it. -/
theorem chain_eq_cons {tree : FrameTree α} {id : FrameId} (inTree : id < tree.nodes.size) :
    tree.chain id = id :: (tree.parent? id).elim [] tree.chain := by
  rw [chain, if_pos inTree]
  split
  · next parent around => simp [around]
  · next around => simp [around]

/-- A frame that is not in the tree has no chain. -/
theorem chain_eq_nil {tree : FrameTree α} {id : FrameId} (outside : tree.nodes.size ≤ id) :
    tree.chain id = [] := by
  rw [chain, if_neg (Nat.not_lt.mpr outside)]

/-- A chain runs through frames that were made before. -/
theorem le_of_mem_chain {tree : FrameTree α} {id outer : FrameId}
    (inChain : outer ∈ tree.chain id) : outer ≤ id ∧ id < tree.nodes.size := by
  induction id using Nat.strongRecOn with
  | ind id inductionHypothesis =>
      rcases Nat.lt_or_ge id tree.nodes.size with inTree | outside
      · refine ⟨?_, inTree⟩
        rw [chain_eq_cons inTree] at inChain
        rcases List.mem_cons.mp inChain with rfl | inOuter
        · exact Nat.le_refl _
        · cases around : tree.parent? id with
          | none => simp [around] at inOuter
          | some parent =>
              rw [around] at inOuter
              have nearer := lt_of_parent? around
              exact Nat.le_trans (inductionHypothesis parent nearer inOuter).1 (Nat.le_of_lt nearer)
      · rw [chain_eq_nil outside] at inChain
        cases inChain

/-- A chain runs through the frames of the tree. -/
theorem lt_size_of_mem_chain {tree : FrameTree α} {id outer : FrameId}
    (inChain : outer ∈ tree.chain id) : outer < tree.nodes.size :=
  Nat.lt_of_le_of_lt (le_of_mem_chain inChain).1 (le_of_mem_chain inChain).2

/-- The chain of the frame at the end of a chain is this frame alone. -/
theorem chain_of_getLast? {tree : FrameTree α} {id root : FrameId}
    (last : (tree.chain id).getLast? = some root) : tree.chain root = [root] := by
  induction id using Nat.strongRecOn with
  | ind id inductionHypothesis =>
      have inTree := (le_of_mem_chain (List.mem_of_getLast? last)).2
      cases around : tree.parent? id with
      | none =>
          have alone : tree.chain id = [id] := by rw [chain_eq_cons inTree, around]; rfl
          rw [alone] at last
          cases last
          exact alone
      | some parent =>
          have nearer := lt_of_parent? around
          have step : tree.chain id = id :: tree.chain parent := by
            rw [chain_eq_cons inTree, around]
            rfl
          -- The chain of the parent is not empty, so it ends where the whole chain ends.
          have nonempty : tree.chain parent ≠ [] := by
            rw [chain_eq_cons (Nat.lt_trans nearer inTree)]
            exact List.cons_ne_nil _ _
          rw [step, List.getLast?_cons_of_ne_nil nonempty] at last
          exact inductionHypothesis parent nearer last

/-- Trees in which the frames up to a frame lie within the same frames have the same chain for
it. -/
theorem chain_congr {left right : FrameTree α} {id : FrameId} (inLeft : id < left.nodes.size)
    (inRight : id < right.nodes.size)
    (same : ∀ inner ≤ id, right.parent? inner = left.parent? inner) :
    right.chain id = left.chain id := by
  induction id using Nat.strongRecOn with
  | ind id inductionHypothesis =>
      rw [chain_eq_cons inLeft, chain_eq_cons inRight, same id (Nat.le_refl id)]
      cases around : left.parent? id with
      | none => rfl
      | some parent =>
          have nearer := lt_of_parent? around
          have rest := inductionHypothesis parent nearer (Nat.lt_trans nearer inLeft)
            (Nat.lt_trans nearer inRight)
            fun inner inChain => same inner (Nat.le_trans inChain (Nat.le_of_lt nearer))
          rw [Option.elim_some, Option.elim_some, rest]

/-- The frame at the end of a chain. -/
def root (tree : FrameTree α) (id : FrameId) : FrameId :=
  (tree.chain id).getLast?.getD id

/-- The chain of a frame in the tree ends in its root. -/
theorem getLast?_chain {tree : FrameTree α} {id : FrameId} (inTree : id < tree.nodes.size) :
    (tree.chain id).getLast? = some (tree.root id) := by
  rw [root, chain_eq_cons inTree, List.getLast?_cons, Option.getD_some]

/-- A root is in the tree. -/
theorem root_lt_size {tree : FrameTree α} {id : FrameId} (inTree : id < tree.nodes.size) :
    tree.root id < tree.nodes.size :=
  lt_size_of_mem_chain (List.mem_of_getLast? (getLast?_chain inTree))

/-- The bindings along a chain. -/
def frames (tree : FrameTree α) (id : FrameId) : List (Frame α) :=
  (tree.chain id).map tree.own

/-- Put other bindings into a frame. -/
def setOwn (tree : FrameTree α) (id : FrameId) (own : Frame α) : FrameTree α where
  nodes := tree.nodes.modify id fun frame => { frame with own }
  parent_lt other made parent isParent := by
    have before : other < tree.nodes.size := by simpa using made
    refine tree.parent_lt other before parent ?_
    rw [Array.getElem_modify] at isParent
    split at isParent <;> exact isParent

/-- Make a frame within another, or a root. -/
def addFrame (tree : FrameTree α) (parent? : Option FrameId)
    (before : ∀ parent ∈ parent?, parent < tree.nodes.size) : FrameId × FrameTree α where
  fst := tree.nodes.size
  snd.nodes := tree.nodes.push ⟨.empty, parent?⟩
  snd.parent_lt id made parent isParent := by
    rw [Array.getElem_push] at isParent
    split at isParent
    · next old => exact tree.parent_lt id old parent isParent
    · next new =>
        rw [Array.size_push] at made
        have last : id = tree.nodes.size := Nat.eq_of_lt_succ_of_not_lt made new
        exact last ▸ before parent isParent

/-- Make a frame within a frame. -/
def child (tree : FrameTree α) (id : FrameId) : FrameId × FrameTree α :=
  tree.addFrame (tree.chain id).head? fun _ isHead =>
    lt_size_of_mem_chain (List.mem_of_head? isHead)

/-- Make a frame within the root of a frame. -/
def callFrame (tree : FrameTree α) (id : FrameId) : FrameId × FrameTree α :=
  tree.addFrame (tree.chain id).getLast? fun _ isLast =>
    lt_size_of_mem_chain (List.mem_of_getLast? isLast)

/-! ### Frames after a change -/

/-- Changing a frame makes no other. -/
@[simp] theorem size_setOwn (tree : FrameTree α) (id : FrameId) (own : Frame α) :
    (tree.setOwn id own).nodes.size = tree.nodes.size :=
  Array.size_modify ..

/-- Other bindings in a frame change no other frame. -/
theorem own_setOwn (tree : FrameTree α) (id other : FrameId) (own : Frame α) :
    (tree.setOwn id own).own other =
      if other = id ∧ id < tree.nodes.size then own else tree.own other := by
  simp only [FrameTree.own, setOwn, Array.getElem?_modify]
  by_cases same : id = other
  · subst same
    by_cases inTree : id < tree.nodes.size
    · simp [inTree]
    · simp [inTree]
  · have differ : ¬ other = id := fun equal => same equal.symm
    simp [same, differ]

/-- Other bindings in a frame move no frame. -/
@[simp] theorem parent?_setOwn (tree : FrameTree α) (id other : FrameId) (own : Frame α) :
    (tree.setOwn id own).parent? other = tree.parent? other := by
  simp only [parent?, setOwn, Array.getElem?_modify]
  by_cases same : id = other
  · subst same
    cases tree.nodes[id]? <;> simp
  · simp [same]

/-- Other bindings in a frame leave the frames around each frame as they were. -/
@[simp] theorem chain_setOwn (tree : FrameTree α) (id other : FrameId) (own : Frame α) :
    (tree.setOwn id own).chain other = tree.chain other := by
  rcases Nat.lt_or_ge other tree.nodes.size with inTree | outside
  · have stillInTree : other < (tree.setOwn id own).nodes.size := by rwa [size_setOwn]
    exact chain_congr inTree stillInTree fun inner _ => parent?_setOwn ..
  · have stillOutside : (tree.setOwn id own).nodes.size ≤ other := by rwa [size_setOwn]
    rw [chain_eq_nil outside, chain_eq_nil stillOutside]

/-- A frame that is not in the tree binds nothing. -/
theorem own_eq_empty {tree : FrameTree α} {id : FrameId} (outside : tree.nodes.size ≤ id) :
    tree.own id = .empty := by
  simp [own, Array.getElem?_eq_none outside]

/-- A frame that binds a name is in the tree. -/
theorem lt_size_of_contains {tree : FrameTree α} {id : FrameId} {name : String}
    (bound : (tree.own id).contains name = true) : id < tree.nodes.size := by
  refine Nat.lt_of_not_le fun outside => ?_
  rw [own_eq_empty outside] at bound
  cases bound

section

variable (tree : FrameTree α) (parent? : Option FrameId)
  (before : ∀ parent ∈ parent?, parent < tree.nodes.size)

/-- A new frame comes after all others. -/
@[simp] theorem fst_addFrame : (tree.addFrame parent? before).1 = tree.nodes.size :=
  rfl

/-- `addFrame` makes one frame. -/
@[simp] theorem size_addFrame :
    (tree.addFrame parent? before).2.nodes.size = tree.nodes.size + 1 :=
  Array.size_push ..

/-- A new frame binds nothing, and every other frame binds what it did. -/
@[simp] theorem own_addFrame (id : FrameId) :
    (tree.addFrame parent? before).2.own id = tree.own id := by
  simp only [own, addFrame, Array.getElem?_push]
  by_cases new : id = tree.nodes.size
  · simp [new]
  · simp [new]

/-- A new frame lies within the frame that it was made in, and every other frame stays where it
is. -/
theorem parent?_addFrame (id : FrameId) :
    (tree.addFrame parent? before).2.parent? id =
      if id = tree.nodes.size then parent? else tree.parent? id := by
  simp only [FrameTree.parent?, addFrame, Array.getElem?_push]
  split
  · rfl
  · rfl

/-- The chain of a new frame goes on with the chain of the frame that it was made in, and every
other chain stays as it is. -/
theorem chain_addFrame (id : FrameId) :
    (tree.addFrame parent? before).2.chain id =
      if id = tree.nodes.size then id :: parent?.elim [] tree.chain else tree.chain id := by
  -- A frame that was there before has only frames around it that were there before.
  have old (other : FrameId) (inTree : other < tree.nodes.size) :
      (tree.addFrame parent? before).2.chain other = tree.chain other := by
    refine chain_congr inTree (by rw [size_addFrame]; exact Nat.lt_succ_of_lt inTree) ?_
    intro inner inChain
    rw [parent?_addFrame, if_neg (Nat.ne_of_lt (Nat.lt_of_le_of_lt inChain inTree))]
  rcases Nat.lt_trichotomy id tree.nodes.size with inTree | rfl | outside
  · rw [old id inTree, if_neg (Nat.ne_of_lt inTree)]
  · rw [chain_eq_cons (by rw [size_addFrame]; exact Nat.lt_succ_self _), parent?_addFrame,
      if_pos rfl, if_pos rfl]
    cases parent? with
    | none => rfl
    | some parent => rw [Option.elim_some, Option.elim_some, old parent (before parent rfl)]
  · rw [if_neg (Nat.ne_of_gt outside), chain_eq_nil (Nat.le_of_lt outside),
      chain_eq_nil (by rw [size_addFrame]; exact outside)]

end

/-- A new child binds nothing. -/
@[simp] theorem own_child (tree : FrameTree α) (id other : FrameId) :
    (tree.child id).2.own other = tree.own other :=
  own_addFrame ..

/-- The new frame of a call binds nothing. -/
@[simp] theorem own_callFrame (tree : FrameTree α) (id other : FrameId) :
    (tree.callFrame id).2.own other = tree.own other :=
  own_addFrame ..

/-- A new child's chain goes on with the chain of the frame. -/
theorem chain_child (tree : FrameTree α) (id other : FrameId) :
    (tree.child id).2.chain other =
      if other = tree.nodes.size then other :: tree.chain id else tree.chain other := by
  rw [child, chain_addFrame]
  rcases Nat.lt_or_ge id tree.nodes.size with inTree | outside
  · have head : (tree.chain id).head? = some id := by rw [chain_eq_cons inTree]; rfl
    rw [head, Option.elim_some]
  · rw [chain_eq_nil outside]
    rfl

/-- A new call's chain goes on with the root alone. -/
theorem chain_callFrame (tree : FrameTree α) (id other : FrameId) :
    (tree.callFrame id).2.chain other =
      if other = tree.nodes.size then other :: (tree.chain id).getLast?.toList
      else tree.chain other := by
  rw [callFrame, chain_addFrame]
  cases last : (tree.chain id).getLast? with
  | none => rfl
  | some root => rw [Option.elim_some, chain_of_getLast? last]; rfl

/-! ### Reading -/

/-- The nearest frame that binds a name. -/
def owner? (tree : FrameTree α) (id : FrameId) (name : String) : Option FrameId :=
  (tree.chain id).find? fun frame => (tree.own frame).contains name

/-- The nearest frame that binds a name lies in the chain, and does bind it. -/
theorem owner?_eq_some {tree : FrameTree α} {id frame : FrameId} {name : String}
    (found : tree.owner? id name = some frame) :
    frame ∈ tree.chain id ∧ (tree.own frame).contains name = true := by
  unfold owner? at found
  have binds := List.find?_some found
  exact ⟨List.mem_of_find?_eq_some found, binds⟩

/-- A frame that binds a name is the nearest one to do so. -/
theorem owner?_eq_self {tree : FrameTree α} {id : FrameId} {name : String}
    (bound : (tree.own id).contains name = true) : tree.owner? id name = some id := by
  simp [owner?, chain_eq_cons (lt_size_of_contains bound), bound]

/-- The value of a name in the nearest frame that binds it. -/
def find? (tree : FrameTree α) (id : FrameId) (name : String) : Option α :=
  (tree.owner? id name).bind fun frame => (tree.own frame).find? name

/-- A name that a frame itself binds has the value that it has there. -/
theorem find?_eq_own {tree : FrameTree α} {id : FrameId} {name : String}
    (bound : (tree.own id).contains name = true) : tree.find? id name = (tree.own id).find? name := by
  rw [find?, owner?_eq_self bound, Option.bind_some]

/-- The value of a name that a program asks for. -/
def lookup (tree : FrameTree α) (id : FrameId) (name : String) : Except Failure α :=
  match tree.find? id name with
  | some value => .ok value
  | none => .error (.undefinedName name)

/-- A value that is read is bound in some frame. -/
theorem exists_find?_of_lookup {tree : FrameTree α} {id : FrameId} {name : String} {value : α}
    (found : tree.lookup id name = .ok value) :
    ∃ frame, (tree.own frame).find? name = some value := by
  unfold lookup at found
  split at found
  · next held read =>
      cases found
      obtain ⟨frame, _, bound⟩ := Option.bind_eq_some_iff.mp read
      exact ⟨frame, bound⟩
  · cases found

/-- Whether a name is in reach. -/
def contains (tree : FrameTree α) (id : FrameId) (name : String) : Bool :=
  (tree.owner? id name).isSome

/-- The names in reach with their values. -/
def entries (tree : FrameTree α) (id : FrameId) : List (String × α) :=
  visibleEntries (tree.frames id)

/-- The names in reach. -/
def names (tree : FrameTree α) (id : FrameId) : List String :=
  (tree.entries id).map Prod.fst

/-- The number of names in reach. -/
def size (tree : FrameTree α) (id : FrameId) : Nat :=
  (tree.entries id).length

/-- Whether two frames read alike, in whatever order: the same names are in reach, and their values
are equal. -/
def readsAs (tree : FrameTree α) (equal : α → α → Bool) (left right : FrameId) : Bool :=
  tree.size left == tree.size right &&
    (tree.entries left).all fun entry =>
      match tree.find? right entry.1 with
      | some value => equal entry.2 value
      | none => false

/-! ### Binding and removing -/

/-- Bind a name in a frame itself. -/
def insert (tree : FrameTree α) (id : FrameId) (name : String) (value : α) : FrameTree α :=
  tree.setOwn id ((tree.own id).insert name value)

/-- Remove a name from a frame itself. -/
def erase (tree : FrameTree α) (id : FrameId) (name : String) : FrameTree α :=
  tree.setOwn id ((tree.own id).erase name)

end FrameTree

end ArrayForks
