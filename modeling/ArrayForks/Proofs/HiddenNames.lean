import ArrayForks.Proofs.Agreement

/-! # Frames that differ in hidden names

Some names of a program may be hidden: nothing that the program reads or assigns goes through their
bindings. Two trees of frames are then as good as each other if they have the same frames, with the
same bindings in the same order once those of hidden names are left out. Looking up any other name,
writing it and opening frames do not tell such trees apart, and neither tree leaves the other behind
when it binds a hidden name alone. If no name is hidden, the trees are the same. -/

namespace ArrayForks

variable {α : Type}

namespace Bindings

/-- The entries of the names that are not hidden. -/
def shown (hidden : String → Bool) (bindings : Bindings String α) : List (String × α) :=
  bindings.entries.filter fun entry => !hidden entry.1

/-- A name that is not hidden is looked up among the entries that are shown. -/
theorem lookup_shown {hidden : String → Bool} (bindings : Bindings String α) {name : String}
    (isShown : hidden name = false) :
    (bindings.shown hidden).lookup name = bindings.find? name :=
  lookup_filter (fun key => !hidden key) (by rw [isShown, Bool.not_false]) bindings.entries

/-- Binding a hidden name is not seen, and binding any other name is seen as it is. -/
theorem shown_insert (hidden : String → Bool) (bindings : Bindings String α) (name : String)
    (value : α) :
    (bindings.insert name value).shown hidden =
      if hidden name = true then bindings.shown hidden
      else putEntry name value (bindings.shown hidden) := by
  obtain ⟨entries, nodup⟩ := bindings
  simp only [shown, insert]
  clear nodup
  induction entries with
  | nil => by_cases isHidden : hidden name = true <;> simp [putEntry, isHidden]
  | cons entry entries inductionHypothesis =>
      by_cases same : entry.1 = name
      · by_cases isHidden : hidden name = true
        · simp [putEntry, same, isHidden]
        · simp [putEntry, same, isHidden]
      · by_cases isHidden : hidden name = true
        · simp only [isHidden, if_true] at inductionHypothesis
          simp [putEntry, same, isHidden, List.filter_cons, inductionHypothesis]
        · simp only [isHidden] at inductionHypothesis
          by_cases entryHidden : hidden entry.1 = true
          · simp [putEntry, same, isHidden, entryHidden, inductionHypothesis]
          · simp [putEntry, same, isHidden, entryHidden, inductionHypothesis]

end Bindings

namespace FrameTree

/-- The same frames within the same frames, with the same bindings but for those of hidden names. -/
structure SameBut (hidden : String → Bool) (left right : FrameTree α) : Prop where
  size_eq : left.nodes.size = right.nodes.size
  parent_eq : ∀ id, left.parent? id = right.parent? id
  shown_eq : ∀ id, (left.own id).shown hidden = (right.own id).shown hidden

variable {hidden : String → Bool} {left right : FrameTree α}

namespace SameBut

/-- A tree is the same as itself, whatever is hidden. -/
theorem refl (hidden : String → Bool) (tree : FrameTree α) : SameBut hidden tree tree :=
  ⟨rfl, fun _ => rfl, fun _ => rfl⟩

/-- Being the same but for hidden names is symmetric. -/
theorem symm (same : SameBut hidden left right) : SameBut hidden right left :=
  ⟨same.size_eq.symm, fun id => (same.parent_eq id).symm, fun id => (same.shown_eq id).symm⟩

/-- Hidden names do not change which frames are around a frame. -/
theorem chain_eq (same : SameBut hidden left right) (id : FrameId) :
    left.chain id = right.chain id := by
  rcases Nat.lt_or_ge id left.nodes.size with inTree | outside
  · exact (chain_congr inTree (same.size_eq ▸ inTree) fun inner _ =>
      (same.parent_eq inner).symm).symm
  · rw [chain_eq_nil outside, chain_eq_nil (same.size_eq ▸ outside)]

section

variable (same : SameBut hidden left right) {name : String} (isShown : hidden name = false)

include same isShown

/-- A name that is not hidden has the same value in each frame. -/
theorem find?_own_eq (id : FrameId) : (left.own id).find? name = (right.own id).find? name := by
  rw [← Bindings.lookup_shown _ isShown, same.shown_eq, Bindings.lookup_shown _ isShown]

/-- A name that is not hidden is found in the same frame. -/
theorem owner?_eq (id : FrameId) : left.owner? id name = right.owner? id name := by
  have contains_eq (frame : FrameId) :
      (left.own frame).contains name = (right.own frame).contains name := by
    rw [Bindings.contains, Bindings.contains, same.find?_own_eq isShown]
  rw [owner?, owner?, same.chain_eq]
  simp only [contains_eq]

/-- A name that is not hidden has the same value. -/
theorem lookup_eq (id : FrameId) : left.lookup id name = right.lookup id name := by
  rw [lookup, lookup, find?, find?, same.owner?_eq isShown]
  simp only [same.find?_own_eq isShown]

end

/-- The trees stay the same when any name is bound in both of them. -/
theorem insert (same : SameBut hidden left right) (id : FrameId) (name : String) (value : α) :
    SameBut hidden (left.insert id name value) (right.insert id name value) where
  size_eq := by simp only [FrameTree.insert, size_setOwn, same.size_eq]
  parent_eq other := by simp only [FrameTree.insert, parent?_setOwn, same.parent_eq]
  shown_eq other := by
    simp only [FrameTree.insert, own_setOwn, same.size_eq]
    split
    · rw [Bindings.shown_insert, Bindings.shown_insert, same.shown_eq]
    · exact same.shown_eq other

/-- The trees stay the same when a hidden name is bound in one of them. -/
theorem insert_hidden (same : SameBut hidden left right) (id : FrameId) {name : String}
    (isHidden : hidden name = true) (value : α) :
    SameBut hidden (left.insert id name value) right where
  size_eq := by rw [FrameTree.insert, size_setOwn, same.size_eq]
  parent_eq other := by rw [FrameTree.insert, parent?_setOwn, same.parent_eq]
  shown_eq other := by
    rw [FrameTree.insert, own_setOwn]
    split
    · next here =>
        rw [Bindings.shown_insert, if_pos isHidden, same.shown_eq, here.1]
    · exact same.shown_eq other

/-- The trees stay the same when a frame is made at the same place in both of them. -/
theorem addFrame (same : SameBut hidden left right) {parent? other? : Option FrameId}
    (parent_eq : parent? = other?) (before : ∀ parent ∈ parent?, parent < left.nodes.size)
    (otherBefore : ∀ parent ∈ other?, parent < right.nodes.size) :
    SameBut hidden (left.addFrame parent? before).2 (right.addFrame other? otherBefore).2 where
  size_eq := by rw [size_addFrame, size_addFrame, same.size_eq]
  parent_eq id := by rw [parent?_addFrame, parent?_addFrame, same.size_eq, parent_eq, same.parent_eq]
  shown_eq id := by rw [own_addFrame, own_addFrame, same.shown_eq]

/-- Frames with the same bindings in the same places make the same tree. -/
theorem eq_of_nothing_hidden (same : SameBut (fun _ => false) left right) : left = right := by
  have own_eq (id : FrameId) : left.own id = right.own id := by
    have shown := same.shown_eq id
    have all (entries : List (String × α)) : entries.filter (fun _ => !false) = entries :=
      List.filter_eq_self.mpr fun _ _ => rfl
    exact Bindings.ext ((all _).symm.trans (shown.trans (all _)))
  have nodes_eq : left.nodes = right.nodes := by
    refine Array.ext same.size_eq fun id inLeft inRight => ?_
    have own := own_eq id
    have parent := same.parent_eq id
    simp only [FrameTree.own, FrameTree.parent?, Array.getElem?_eq_getElem inLeft,
      Array.getElem?_eq_getElem inRight, Option.bind_some] at own parent
    generalize left.nodes[id] = first at own parent
    generalize right.nodes[id] = second at own parent
    obtain ⟨frame, around⟩ := first
    cases own
    cases parent
    rfl
  obtain ⟨nodes, parent_lt⟩ := left
  cases nodes_eq
  rfl

end SameBut

/-- Frames stand for themselves in trees that differ in hidden names only. -/
def sameBut (hidden : String → Bool) : Correspondence α where
  trees := SameBut hidden
  frames := Eq

/-- Frames that are opened at the same place stand for each other. -/
theorem sameBut_opens (hidden : String → Bool) :
    (sameBut hidden).Opens (sameBut hidden : Correspondence α) where
  child {left right leftId rightId} trees frames := by
    cases frames
    exact ⟨trees.size_eq, trees.addFrame (by rw [trees.chain_eq]) _ _⟩
  callFrame {left right leftId rightId} trees frames := by
    cases frames
    exact ⟨trees.size_eq, trees.addFrame (by rw [trees.chain_eq]) _ _⟩

end FrameTree

namespace Machine

/-- Machines that differ in the bindings of hidden names only. -/
abbrev SameBut (hidden : String → Bool) : Machine → Machine → Prop :=
  Alike (FrameTree.sameBut hidden)

/-- A machine is the same as itself, whatever is hidden. -/
theorem SameBut.refl (hidden : String → Bool) (machine : Machine) :
    machine.SameBut hidden machine :=
  ⟨.refl hidden _, rfl, rfl, rfl, rfl⟩

/-- What is bound to a hidden name is not seen from the other machine. -/
theorem SameBut.insert_hidden {hidden : String → Bool} {machine other : Machine}
    (same : machine.SameBut hidden other) {name : String} (isHidden : hidden name = true)
    (id : FrameId) (value : Copy) :
    SameBut hidden { machine with frames := machine.frames.insert id name value } other :=
  { same with trees := same.trees.insert_hidden id isHidden value }

/-- A hidden name may be bound in one of two machines. -/
theorem SameBut.insert_hidden_right {hidden : String → Bool} {machine other : Machine}
    (same : machine.SameBut hidden other) {name : String} (isHidden : hidden name = true)
    (id : FrameId) (value : Copy) :
    SameBut hidden machine { other with frames := other.frames.insert id name value } :=
  { same with trees := (same.trees.symm.insert_hidden id isHidden value).symm }

/-- Machines with nothing hidden from each other are the same. -/
theorem SameBut.eq_of_nothing_hidden {left right : Machine}
    (same : left.SameBut (fun _ => false) right) : left = right := by
  obtain ⟨trees, here, heap_eq, made_eq, output_eq⟩ := same
  obtain ⟨frames, leftHere, heap, made, output⟩ := left
  cases trees.eq_of_nothing_hidden
  cases here
  cases heap_eq
  cases made_eq
  cases output_eq
  rfl

end Machine

/-- Runs that end alike with nothing hidden from each other are the same. -/
theorem Outcome.Agree.eq_of_nothing_hidden {left right : Outcome α}
    (agree : left.Agree (Machine.SameBut fun _ => false) right) : left = right := by
  cases agree with
  | done value same => rw [same.eq_of_nothing_hidden]
  | failed failure same => rw [same.eq_of_nothing_hidden]
  | unfinished => rfl

end ArrayForks
