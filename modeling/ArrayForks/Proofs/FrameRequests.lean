import ArrayForks.FrameRequest
import ArrayForks.Proofs.FrameReading

/-! # What requests to frames change

A request changes the bindings of one frame at most, and none at all when it is refused. This is the
frame that is asked, or for an assignment the nearest frame that binds the name. What a request binds
is read by every search that stops at this frame and by no other; what it removes is uncovered again
where a frame farther out binds it.

* **`FrameTree.DiffersOnlyIn`** and **`Access.IsAtomic`** say that an access changes one frame at
  most, and nothing if it is refused; **`isAtomic_perform`** says so of every request.
* **`FrameTree.reads_insert`**: what binding a name changes for those who read.
* **`TakesAll.spec`**: taking first names comes to its end when the frame binds nothing. -/

namespace ArrayForks

variable {α β γ : Type}

namespace FrameTree

/-- The same frames within the same frames, of which one at most binds something else. -/
structure DiffersOnlyIn (changed? : Option FrameId) (before after : FrameTree α) : Prop where
  size_eq : after.nodes.size = before.nodes.size
  parent_eq : ∀ frame, after.parent? frame = before.parent? frame
  own_eq : ∀ frame, changed? ≠ some frame → after.own frame = before.own frame

namespace DiffersOnlyIn

/-- No frame has to change. -/
theorem refl (changed? : Option FrameId) (tree : FrameTree α) : DiffersOnlyIn changed? tree tree :=
  ⟨rfl, fun _ => rfl, fun _ _ => rfl⟩

/-- Two changes of the same frame are one. -/
theorem trans {changed? : Option FrameId} {first middle last : FrameTree α}
    (start : DiffersOnlyIn changed? first middle) (rest : DiffersOnlyIn changed? middle last) :
    DiffersOnlyIn changed? first last where
  size_eq := rest.size_eq.trans start.size_eq
  parent_eq frame := (rest.parent_eq frame).trans (start.parent_eq frame)
  own_eq frame other := (rest.own_eq frame other).trans (start.own_eq frame other)

variable {before after : FrameTree α} {changed : FrameId} {name : String}

/-- The frames around each frame are the same. -/
theorem chain_eq {changed? : Option FrameId} (differs : DiffersOnlyIn changed? before after)
    (reader : FrameId) : after.chain reader = before.chain reader := by
  rcases Nat.lt_or_ge reader before.nodes.size with inTree | outside
  · exact chain_congr inTree (differs.size_eq ▸ inTree) fun inner _ => differs.parent_eq inner
  · rw [chain_eq_nil outside, chain_eq_nil (differs.size_eq ▸ outside)]

/-- What the changed frame binds as before is read as before from every frame. -/
theorem find?_eq (differs : DiffersOnlyIn (some changed) before after)
    (same : (after.own changed).find? name = (before.own changed).find? name) (reader : FrameId) :
    after.find? reader name = before.find? reader name := by
  have own_eq (frame : FrameId) : (after.own frame).find? name = (before.own frame).find? name := by
    by_cases isChanged : changed = frame
    · rw [← isChanged, same]
    · rw [differs.own_eq frame fun equal => isChanged (Option.some.inj equal)]
  rw [find?_eq_findSome?, find?_eq_findSome?, differs.chain_eq]
  simp only [own_eq]

/-- Around a frame that was made before the changed frame, all frames are as before. -/
theorem frames_eq_of_lt (differs : DiffersOnlyIn (some changed) before after) {reader : FrameId}
    (earlier : reader < changed) : after.frames reader = before.frames reader := by
  rw [frames, frames, differs.chain_eq]
  refine List.map_congr_left fun frame inChain => differs.own_eq frame fun isChanged => ?_
  cases isChanged
  exact Nat.not_le_of_lt earlier (le_of_mem_chain inChain).1

/-- Frames that were made before the changed frame read everything as before. -/
theorem find?_eq_of_lt (differs : DiffersOnlyIn (some changed) before after) {reader : FrameId}
    (earlier : reader < changed) (name : String) :
    after.find? reader name = before.find? reader name := by
  rw [← lookup_entries, ← lookup_entries, entries, entries, differs.frames_eq_of_lt earlier]

/-- A name that the changed frame binds is read as before where the search does not stop there. -/
theorem find?_eq_of_owner?_ne (differs : DiffersOnlyIn (some changed) before after)
    (bound : (after.own changed).contains name = true) {reader : FrameId}
    (elsewhere : after.owner? reader name ≠ some changed) :
    after.find? reader name = before.find? reader name := by
  rw [owner?, differs.chain_eq] at elsewhere
  rw [find?_eq_findSome?, find?_eq_findSome?, differs.chain_eq]
  generalize before.chain reader = frames at elsewhere
  induction frames with
  | nil => rfl
  | cons frame frames inductionHypothesis =>
      -- The search has not come to the changed frame yet, for it would stop there.
      have isOther : changed ≠ frame := by
        rintro rfl
        exact elsewhere (List.find?_cons_of_pos bound)
      have own_eq := differs.own_eq frame fun equal => isOther (Option.some.inj equal)
      rw [List.findSome?_cons, List.findSome?_cons, own_eq]
      cases found : (before.own frame).find? name with
      | some value => rfl
      | none =>
          rw [List.find?_cons, own_eq, Bindings.contains_of_find?_eq_none found] at elsewhere
          exact inductionHypothesis elsewhere

end DiffersOnlyIn

/-! ### One frame changed -/

/-- Other bindings in a frame are in no other one. -/
theorem setOwn_differs (tree : FrameTree α) (id : FrameId) (own : Frame α) :
    DiffersOnlyIn (some id) tree (tree.setOwn id own) where
  size_eq := size_setOwn tree id own
  parent_eq frame := parent?_setOwn tree id frame own
  own_eq frame other := by
    rw [own_setOwn, if_neg fun same => other (congrArg some same.1.symm)]

/-- `tree.insert id name value` changes the frame `id` only. -/
theorem insert_differs (tree : FrameTree α) (id : FrameId) (name : String) (value : α) :
    DiffersOnlyIn (some id) tree (tree.insert id name value) :=
  setOwn_differs tree id _

/-- `tree.erase id name` changes the frame `id` only. -/
theorem erase_differs (tree : FrameTree α) (id : FrameId) (name : String) :
    DiffersOnlyIn (some id) tree (tree.erase id name) :=
  setOwn_differs tree id _

section

variable {tree : FrameTree α} {id : FrameId}

/-- A name that is bound in a frame is looked up there. -/
theorem find?_own_insert (inTree : id < tree.nodes.size) (name other : String) (value : α) :
    ((tree.insert id name value).own id).find? other =
      if other = name then some value else (tree.own id).find? other := by
  rw [insert, own_setOwn, if_pos ⟨rfl, inTree⟩, Bindings.find?_insert]

/-- A name that is removed from a frame is not looked up there. -/
theorem find?_own_erase (inTree : id < tree.nodes.size) (name other : String) :
    ((tree.erase id name).own id).find? other =
      if other = name then none else (tree.own id).find? other := by
  rw [erase, own_setOwn, if_pos ⟨rfl, inTree⟩, Bindings.find?_erase]

/-- Binding a name changes what is read for it where the search stops at the binding, and nothing
else. -/
theorem reads_insert (inTree : id < tree.nodes.size) (name : String) (value : α) :
    ((tree.insert id name value).own id).contains name = true ∧
      (∀ other reader, other ≠ name →
        (tree.insert id name value).find? reader other = tree.find? reader other) ∧
      ∀ reader, (tree.insert id name value).owner? reader name ≠ some id →
        (tree.insert id name value).find? reader name = tree.find? reader name := by
  have differs := insert_differs tree id name value
  have bound : ((tree.insert id name value).own id).contains name = true :=
    Bindings.contains_of_find? ((find?_own_insert inTree name name value).trans (if_pos rfl))
  refine ⟨bound, fun other reader isOther => ?_, fun reader elsewhere => ?_⟩
  · exact differs.find?_eq ((find?_own_insert inTree name other value).trans (if_neg isOther)) reader
  · exact differs.find?_eq_of_owner?_ne bound elsewhere

/-- A search that stops at a binding finds its value. -/
theorem find?_insert_of_owner? {frame : FrameId} (nearest : tree.owner? id name = some frame)
    (value : α) : (tree.insert frame name value).find? id name = some value := by
  have bound := (owner?_eq_some nearest).2
  have inTree := lt_size_of_contains bound
  obtain ⟨stillBound, -, -⟩ := reads_insert inTree name value
  have contains_eq (other : FrameId) :
      ((tree.insert frame name value).own other).contains name = (tree.own other).contains name := by
    by_cases isFrame : frame = other
    · rw [← isFrame, stillBound, bound]
    · rw [(insert_differs tree frame name value).own_eq other fun same =>
        isFrame (Option.some.inj same)]
  have stillNearest : (tree.insert frame name value).owner? id name = some frame := by
    rw [owner?, (insert_differs tree frame name value).chain_eq]
    simp only [contains_eq]
    exact nearest
  rw [find?, stillNearest, Option.bind_some, find?_own_insert inTree, if_pos rfl]

end

/-- One binding of a frame is gone, and the name is read where the frames around it bind it. -/
structure Uncovers (id : FrameId) (name : String) (before after : FrameTree α) : Prop
    extends DiffersOnlyIn (some id) before after where
  entries_eq : (after.own id).entries = (before.own id).entries.filter fun entry => entry.1 ≠ name
  find?_removed :
    after.find? id name = (before.parent? id).bind fun parent => before.find? parent name
  find?_other : ∀ other reader, other ≠ name → after.find? reader other = before.find? reader other

/-- A name that a frame binds is removed and nothing else. -/
theorem erase_uncovers {tree : FrameTree α} {id : FrameId} {name : String}
    (bound : (tree.own id).contains name = true) : Uncovers id name tree (tree.erase id name) where
  toDiffersOnlyIn := erase_differs tree id name
  entries_eq := by
    rw [erase, own_setOwn, if_pos ⟨rfl, lt_size_of_contains bound⟩]
    rfl
  find?_removed := by
    have inTree := lt_size_of_contains bound
    have differs := erase_differs tree id name
    rw [find?_eq_or, differs.parent_eq, find?_own_erase inTree, if_pos rfl, Option.none_or]
    -- The frames farther out were made before.
    exact Option.bind_congr fun parent around => differs.find?_eq_of_lt (lt_of_parent? around) name
  find?_other other reader isOther := by
    refine (erase_differs tree id name).find?_eq ?_ reader
    rw [find?_own_erase (lt_size_of_contains bound), if_neg isOther]

end FrameTree

/-! ### Accesses -/

namespace Access

open FrameTree (DiffersOnlyIn Uncovers)

/-- What an access does to a tree: it changes one frame at most, and nothing if it is refused. -/
structure IsAtomic (changed? : Option FrameId) (tree : FrameTree α) (access : Access α β) :
    Prop where
  differs : DiffersOnlyIn changed? tree (access.run tree).2
  unchanged : ∀ refusal, (access.run tree).1 = .error refusal → (access.run tree).2 = tree

section

variable {tree after : FrameTree α} {access : Access α β} {changed? : Option FrameId}

/-- An access that has a reply is atomic if it changes the one frame only. -/
theorem IsAtomic.of_ok {value : β} (ran : access.run tree = (.ok value, after))
    (differs : DiffersOnlyIn changed? tree after) : access.IsAtomic changed? tree where
  differs := by rwa [ran]
  unchanged refusal refused := by
    rw [ran] at refused
    cases refused

/-- An access that is refused is atomic if it leaves the tree. -/
theorem IsAtomic.of_error {refusal : Refusal} (ran : access.run tree = (.error refusal, tree)) :
    access.IsAtomic changed? tree where
  differs := by
    rw [ran]
    exact .refl changed? tree
  unchanged _ _ := by rw [ran]

/-- An access with another result does the same. -/
theorem IsAtomic.map (atomic : access.IsAtomic changed? tree) (next : β → γ) :
    (access >>= fun value => pure (next value)).IsAtomic changed? tree := by
  obtain ⟨differs, unchanged⟩ := atomic
  rcases ran : access.run tree with ⟨result, after⟩
  rw [ran] at differs unchanged
  cases result with
  | ok value => exact .of_ok (run_bind_of_ok ran _) differs
  | error refusal =>
      cases unchanged refusal rfl
      exact .of_error (run_bind_of_error ran _)

end

section

variable (tree : FrameTree α) (id : FrameId) (name : String) (value : α)

/-- A definition changes the frame itself. -/
theorem isAtomic_define : (define id name value).IsAtomic (some id) tree :=
  .of_ok rfl (tree.insert_differs id name value)

/-- Binding names one after the other is not refused. -/
theorem run_defineAll (entries : List (String × α)) :
    ∃ after, (defineAll id entries).run tree = (.ok (), after) ∧
      DiffersOnlyIn (some id) tree after := by
  induction entries generalizing tree with
  | nil => exact ⟨tree, rfl, .refl _ tree⟩
  | cons entry entries inductionHypothesis =>
      obtain ⟨after, ran, differs⟩ := inductionHypothesis (tree.insert id entry.1 entry.2)
      exact ⟨after, ran, (tree.insert_differs id entry.1 entry.2).trans differs⟩

/-- An assignment changes the nearest frame that binds the name, if there is one. -/
theorem isAtomic_assign : (assign id name value).IsAtomic (tree.owner? id name) tree := by
  cases nearest : tree.owner? id name with
  | none => exact .of_error (run_assign_of_none nearest value)
  | some frame =>
      exact .of_ok (run_assign_of_owner nearest value) (tree.insert_differs frame name value)

/-- Reading or else defining changes the frame itself at most. -/
theorem isAtomic_readOrDefine : (readOrDefine id name value).IsAtomic (some id) tree := by
  cases found : tree.find? id name with
  | none =>
      exact .of_ok (run_readOrDefine_of_missing found value) (tree.insert_differs id name value)
  | some held => exact .of_ok (run_readOrDefine_of_found found value) (.refl _ tree)

/-- Removing a name changes the frame itself, or is refused. -/
theorem isAtomic_remove : (remove id name).IsAtomic (some id) tree := by
  cases bound : (tree.own id).contains name with
  | false => exact .of_error (run_remove_of_unbound bound)
  | true => exact .of_ok (run_remove_of_bound bound) (tree.erase_differs id name)

/-- Taking a name changes the frame itself, or is refused. -/
theorem isAtomic_take : (take id name).IsAtomic (some id) tree := by
  cases bound : (tree.own id).find? name with
  | none => exact .of_error (run_take_of_unbound (Bindings.contains_of_find?_eq_none bound))
  | some held => exact .of_ok (run_take_of_bound bound) (tree.erase_differs id name)

/-- Taking a name with another value at hand changes the frame itself at most. -/
theorem isAtomic_takeOr : (takeOr id name value).IsAtomic (some id) tree := by
  cases bound : (tree.own id).find? name with
  | some held => exact .of_ok (run_takeOr_of_bound bound value) (tree.erase_differs id name)
  | none =>
      cases found : tree.find? id name with
      | none => exact .of_ok (run_takeOr_of_missing found value) (.refl _ tree)
      | some held =>
          have unbound := Bindings.contains_of_find?_eq_none bound
          exact .of_error (run_takeOr_of_outer unbound found value)

end

section

variable {tree : FrameTree α} {id : FrameId}

/-- The first name in reach is the first one of the frame itself. -/
theorem run_takeFirst_of_first {name : String} {value : α} {others : List (String × α)}
    (isFirst : (tree.own id).entries = (name, value) :: others) :
    (takeFirst id).run tree = (.ok (name, value), tree.erase id name) := by
  have bound := Bindings.find?_first isFirst
  have head : (tree.names id).head? = some name := by
    rw [FrameTree.names_eq_append, Bindings.names, isFirst]
    rfl
  rw [takeFirst, run_look_bind, head]
  exact run_bind_of_ok (run_take_of_bound bound) _

/-- A frame without bindings has none to be taken, whatever is bound farther out. -/
theorem run_takeFirst_of_empty (isEmpty : (tree.own id).entries = []) :
    (takeFirst id).run tree = (.error .missing, tree) := by
  rw [takeFirst, run_look_bind]
  cases (tree.names id).head? with
  | none => rfl
  | some name =>
      have unbound : (tree.own id).contains name = false := by
        rw [Bindings.contains, Bindings.find?, isEmpty]
        rfl
      exact run_bind_of_error (run_take_of_unbound unbound) _

/-- Taking the first name changes the frame itself, or is refused. -/
theorem isAtomic_takeFirst (tree : FrameTree α) (id : FrameId) :
    (takeFirst id).IsAtomic (some id) tree := by
  cases own : (tree.own id).entries with
  | nil => exact .of_error (run_takeFirst_of_empty own)
  | cons first others =>
      exact .of_ok (run_takeFirst_of_first own) (tree.erase_differs id first.1)

/-- First names are taken from a tree, these entries one after the other, until this is refused. -/
inductive TakesAll (id : FrameId) : FrameTree α → List (String × α) → FrameTree α → Prop where
  /-- No further name can be taken. -/
  | refused {tree : FrameTree α} {refusal : Refusal}
      (ran : (takeFirst id).run tree = (.error refusal, tree)) : TakesAll id tree [] tree
  /-- A name is taken, and then the others are. -/
  | taken {tree rest after : FrameTree α} {first : String × α} {others : List (String × α)}
      (ran : (takeFirst id).run tree = (.ok first, rest)) (later : TakesAll id rest others after) :
      TakesAll id tree (first :: others) after

/-- What is taken first leaves the other bindings of the frame. -/
theorem entries_erase_first {name : String} {value : α} {others : List (String × α)}
    (isFirst : (tree.own id).entries = (name, value) :: others) :
    ((tree.erase id name).own id).entries = others := by
  have nodup := (tree.own id).nodup
  have bound := Bindings.contains_of_find? (Bindings.find?_first isFirst)
  rw [isFirst, List.map_cons] at nodup
  rw [(FrameTree.erase_uncovers bound).entries_eq, isFirst, List.filter_cons_of_neg (by simp)]
  refine List.filter_eq_self.mpr fun entry isIn => decide_eq_true fun same => ?_
  have isName : entry.1 ∈ others.map Prod.fst := List.mem_map_of_mem isIn
  exact (List.nodup_cons.mp nodup).1 (same ▸ isName)

/-- First names are taken until the frame itself binds nothing, which takes its bindings in their
order. -/
theorem takesAll_cleared (id : FrameId) (tree : FrameTree α) :
    TakesAll id tree (tree.own id).entries (cleared id tree) := by
  fun_induction cleared id tree with
  | case1 tree first rest taken inductionHypothesis =>
      cases own : (tree.own id).entries with
      | nil =>
          rw [run_takeFirst_of_empty own] at taken
          cases taken
      | cons entry others =>
          rw [run_takeFirst_of_first own] at taken
          cases taken
          rw [entries_erase_first own] at inductionHypothesis
          exact .taken (run_takeFirst_of_first own) inductionHypothesis
  | case2 tree refusal rest refused =>
      cases own : (tree.own id).entries with
      | nil =>
          rw [run_takeFirst_of_empty own] at refused
          cases refused
          exact .refused (run_takeFirst_of_empty own)
      | cons entry others =>
          rw [run_takeFirst_of_first own] at refused
          cases refused

/-- Taking first names changes one frame only, and comes to its end when this frame binds nothing. -/
theorem TakesAll.spec {after : FrameTree α} {taken : List (String × α)}
    (takes : TakesAll id tree taken after) :
    DiffersOnlyIn (some id) tree after ∧ after.own id = .empty := by
  induction takes with
  | @refused tree refusal ran =>
      cases own : (tree.own id).entries with
      | nil => exact ⟨.refl _ tree, Bindings.ext own⟩
      | cons first others =>
          rw [run_takeFirst_of_first own] at ran
          cases ran
  | @taken tree rest after first others ran later inductionHypothesis =>
      have differs := (isAtomic_takeFirst tree id).differs
      rw [ran] at differs
      exact ⟨differs.trans inductionHypothesis.1, inductionHypothesis.2⟩

/-- Clearing changes the frame itself. -/
theorem isAtomic_clear (tree : FrameTree α) (id : FrameId) : (clear id).IsAtomic (some id) tree :=
  .of_ok (run_change (cleared id) tree) (takesAll_cleared id tree).spec.1

end

end Access

/-! ### All requests -/

namespace FrameRequest

open FrameTree (DiffersOnlyIn Uncovers)

/-- The frame that a request may change: the frame that is asked, or the nearest one that binds the
name of an assignment. -/
def target? (tree : FrameTree α) (id : FrameId) : FrameRequest α → Option FrameId
  | .assign name _ => tree.owner? id name
  | _ => some id

/-- Each request changes one frame at most, and nothing if it is refused. -/
theorem isAtomic_perform (tree : FrameTree α) (id : FrameId) (request : FrameRequest α) :
    (request.perform id).IsAtomic (request.target? tree id) tree := by
  cases request with
  | define name value => exact (Access.isAtomic_define tree id name value).map _
  | defineAll entries =>
      obtain ⟨after, ran, differs⟩ := Access.run_defineAll tree id entries
      exact (Access.IsAtomic.of_ok ran differs).map _
  | assign name value => exact (Access.isAtomic_assign tree id name value).map _
  | readOrDefine name value => exact (Access.isAtomic_readOrDefine tree id name value).map _
  | remove name => exact (Access.isAtomic_remove tree id name).map _
  | take name => exact (Access.isAtomic_take tree id name).map _
  | takeOr name value => exact (Access.isAtomic_takeOr tree id name value).map _
  | takeFirst => exact (Access.isAtomic_takeFirst tree id).map _
  | clear => exact (Access.isAtomic_clear tree id).map _

/-- A request to give a name a value in one frame, which is the frame itself or the nearest one that
binds the name. -/
def Binds (name : String) (value : α) (request : FrameRequest α) : Prop :=
  request = .define name value ∨ request = .assign name value

/-- A name that is given a value has this value in the frame that the request may change. -/
theorem Binds.of_ok {tree : FrameTree α} {id : FrameId} {request : FrameRequest α} {name : String}
    {value : α} {reply : FrameReply α} (inTree : id < tree.nodes.size)
    (binds : request.Binds name value)
    (done : ((request.perform id).run tree).1 = .ok reply) :
    ∃ frame, request.target? tree id = some frame ∧ frame < tree.nodes.size ∧
      ((request.perform id).run tree).2 = tree.insert frame name value ∧
      (tree.insert frame name value).find? id name = some value := by
  rcases binds with rfl | rfl
  · have bound := (FrameTree.reads_insert inTree name value).1
    refine ⟨id, rfl, inTree, rfl, ?_⟩
    rw [FrameTree.find?_eq_own bound, FrameTree.find?_own_insert inTree, if_pos rfl]
  · cases nearest : tree.owner? id name with
    | none =>
        rw [perform, Access.run_bind_of_error (Access.run_assign_of_none nearest value)] at done
        cases done
    | some frame =>
        have isBound := (FrameTree.owner?_eq_some nearest).2
        refine ⟨frame, nearest, FrameTree.lt_size_of_contains isBound, ?_,
          FrameTree.find?_insert_of_owner? nearest value⟩
        rw [perform, Access.run_bind_of_ok (Access.run_assign_of_owner nearest value)]
        rfl

end FrameRequest

open FrameRequest in
/-- **Requests to frames are local and atomic.** With `after` the tree that `request.perform id`
leaves,

* `FrameTree.DiffersOnlyIn (request.target? tree id) tree after`: only the frame that is asked has
  changed, or for an assignment the nearest frame that binds the name;
* a request that is refused leaves `after = tree`;
* a request that `Binds name value` gives `after.find? id name = some value`; every other name reads
  as before from every frame, and so does `name` itself where the search stops at another frame;
* `.readOrDefine` of a name in reach leaves `after = tree`. -/
theorem requests_local_and_atomic (tree : FrameTree α) (id : FrameId)
    (inTree : id < tree.nodes.size) (request : FrameRequest α) :
    let result := ((request.perform id).run tree).1
    let after := ((request.perform id).run tree).2
    FrameTree.DiffersOnlyIn (request.target? tree id) tree after ∧
    (∀ refusal, result = .error refusal → after = tree) ∧
    (∀ name value reply, request.Binds name value → result = .ok reply →
      after.find? id name = some value ∧
      (∀ other reader, other ≠ name → after.find? reader other = tree.find? reader other) ∧
      ∀ reader, after.owner? reader name ≠ request.target? tree id →
        after.find? reader name = tree.find? reader name) ∧
    ∀ name value, request = .readOrDefine name value → tree.contains id name = true →
      after = tree := by
  intro result after
  obtain ⟨differs, unchanged⟩ := isAtomic_perform tree id request
  refine ⟨differs, unchanged, ?_, ?_⟩
  · intro name value reply binds done
    obtain ⟨frame, isTarget, frameInTree, changed, found⟩ := binds.of_ok inTree done
    obtain ⟨-, others, elsewhere⟩ := FrameTree.reads_insert frameInTree name value
    change after = _ at changed
    rw [isTarget, changed]
    exact ⟨found, others, elsewhere⟩
  · rintro name value rfl isInReach
    obtain ⟨held, found⟩ :=
      Option.isSome_iff_exists.mp ((tree.isSome_find?_iff id name).mpr isInReach)
    change ((perform id (.readOrDefine name value)).run tree).2 = tree
    rw [perform, Access.run_bind_of_ok (Access.run_readOrDefine_of_found found value)]
    rfl

/-- An assignment from an inner block goes to the block around it, which binds the name as well as the
root does; the root still reads its own value. -/
theorem requests_local_and_atomic_shadowed :
    let root := FrameTree.ofRoot (Bindings.ofList [("x", 1), ("y", 2)])
    let tree := (((root.child 0).2.insert 1 "x" 3).child 1).2
    let request : FrameRequest Nat := .assign "x" 5
    let after := ((request.perform 2).run tree).2
    2 < tree.nodes.size ∧ ((request.perform 2).run tree).1 = .ok .nothing ∧
      FrameTree.DiffersOnlyIn (some 1) tree after ∧ after.find? 2 "x" = some 5 ∧
      after.find? 2 "y" = tree.find? 2 "y" ∧ after.find? 0 "x" = some 1 := by
  intro root tree request after
  have inTree : 2 < tree.nodes.size := by decide
  have outer : (root.child 0).2.chain 1 = [1, 0] := by
    have isNew : 1 = root.nodes.size := rfl
    rw [FrameTree.chain_child, if_pos isNew, FrameTree.chain_eq_cons (by decide)]
    rfl
  have inner : tree.chain 2 = [2, 1, 0] := by
    have isNew : 2 = ((root.child 0).2.insert 1 "x" 3).nodes.size := rfl
    rw [FrameTree.chain_child, if_pos isNew, FrameTree.insert, FrameTree.chain_setOwn, outer]
  have nearest : tree.owner? 2 "x" = some 1 := by
    rw [FrameTree.owner?, inner]
    rfl
  have done : ((request.perform 2).run tree).1 = .ok .nothing := by
    rw [FrameRequest.perform, Access.run_bind_of_ok (Access.run_assign_of_owner nearest 5)]
    rfl
  obtain ⟨differs, -, reads, -⟩ := requests_local_and_atomic tree 2 inTree request
  obtain ⟨found, others, elsewhere⟩ := reads "x" 5 .nothing (.inr rfl) done
  have target : request.target? tree 2 = some 1 := nearest
  rw [target] at differs elsewhere
  have atRoot : after.chain 0 = [0] := by
    rw [differs.chain_eq, FrameTree.chain_eq_cons (by decide)]
    rfl
  have rootReads : after.find? 0 "x" = tree.find? 0 "x" := by
    refine elsewhere 0 fun stops => ?_
    have inChain := (FrameTree.owner?_eq_some stops).1
    rw [atRoot] at inChain
    cases List.mem_singleton.mp inChain
  refine ⟨inTree, done, differs, found, others "y" 2 (by decide), rootReads.trans ?_⟩
  rw [FrameTree.find?_eq_own (by rfl)]
  rfl

/-! ### Removing -/

namespace FrameTree

/-- A frame that binds nothing itself has the names of its parent in reach, with their values. -/
theorem reads_of_own_empty {before after : FrameTree α} {id : FrameId}
    (differs : DiffersOnlyIn (some id) before after) (nothing : after.own id = .empty) :
    after.names id = (before.parent? id).elim [] before.names ∧
      ∀ name, after.find? id name =
        (before.parent? id).bind fun parent => before.find? parent name := by
  constructor
  · rw [names_eq_append, nothing, differs.parent_eq]
    cases around : before.parent? id with
    | none => rfl
    | some parent =>
        rw [Option.elim_some, Option.elim_some, names, names, entries, entries,
          differs.frames_eq_of_lt (lt_of_parent? around)]
        exact List.filter_eq_self.mpr fun _ _ => rfl
  · intro name
    rw [find?_eq_or, nothing, differs.parent_eq, Bindings.find?_empty, Option.none_or]
    exact Option.bind_congr fun parent around => differs.find?_eq_of_lt (lt_of_parent? around) name

end FrameTree

open Access in
/-- **Names are removed from the frame itself, never from a frame around it.**

* A name that the frame binds is removed by `remove`, `take` and `takeOr`, and
  `tree.Uncovers id name` what the frames farther out hold under it.
* A name that it does not bind is `.missing` for `remove` and `take`, and changes nothing. So it is
  for `takeOr`, if the name is bound farther out; if it is not in reach, `takeOr` gives the other
  value.
* `takeFirst` takes the first entry, and is refused with `.missing` if there is none.
* `clear` takes all entries in their order, `TakesAll`, and then the names in reach are those of the
  parent. -/
theorem removal_stays_in_frame (tree : FrameTree α) (id : FrameId) :
    (∀ name, (tree.own id).contains name = true →
      ∃ value after, (tree.own id).find? name = some value ∧ tree.Uncovers id name after ∧
        (remove id name).run tree = (.ok (), after) ∧
        (take id name).run tree = (.ok value, after) ∧
        ∀ other, (takeOr id name other).run tree = (.ok value, after)) ∧
    (∀ name, (tree.own id).contains name = false →
      (remove id name).run tree = (.error .missing, tree) ∧
      (take id name).run tree = (.error .missing, tree) ∧
      ∀ other, (takeOr id name other).run tree =
        (if tree.contains id name then .error .missing else .ok other, tree)) ∧
    ((tree.own id).entries = [] → (takeFirst id).run tree = (.error .missing, tree)) ∧
    (∀ name value others, (tree.own id).entries = (name, value) :: others →
      ∃ after, tree.Uncovers id name after ∧ (after.own id).entries = others ∧
        (takeFirst id).run tree = (.ok (name, value), after)) ∧
    ∃ after, (clear id).run tree = (.ok (), after) ∧
      TakesAll id tree (tree.own id).entries after ∧
      FrameTree.DiffersOnlyIn (some id) tree after ∧ after.own id = .empty ∧
      after.names id = (tree.parent? id).elim [] tree.names ∧
      ∀ name, after.find? id name =
        (tree.parent? id).bind fun parent => tree.find? parent name := by
  refine ⟨fun name bound => ?_, fun name unbound => ?_, run_takeFirst_of_empty, ?_, ?_⟩
  · obtain ⟨value, held⟩ := Option.isSome_iff_exists.mp bound
    exact ⟨value, tree.erase id name, held, FrameTree.erase_uncovers bound,
      run_remove_of_bound bound, run_take_of_bound held, run_takeOr_of_bound held⟩
  · refine ⟨run_remove_of_unbound unbound, run_take_of_unbound unbound, fun other => ?_⟩
    -- The frame does not bind the name, so it is in reach only if a frame farther out does.
    cases found : tree.find? id name with
    | none =>
        have outOfReach : ¬ tree.contains id name = true := by
          rw [← tree.isSome_find?_iff, found]
          exact Bool.false_ne_true
        rw [run_takeOr_of_missing found, if_neg outOfReach]
    | some value =>
        have inReach : tree.contains id name = true := by
          rw [← tree.isSome_find?_iff, found, Option.isSome_some]
        rw [run_takeOr_of_outer unbound found, if_pos inReach]
  · intro name value others isFirst
    have bound := Bindings.contains_of_find? (Bindings.find?_first isFirst)
    exact ⟨tree.erase id name, FrameTree.erase_uncovers bound, entries_erase_first isFirst,
      run_takeFirst_of_first isFirst⟩
  · have takes := takesAll_cleared id tree
    obtain ⟨differs, nothing⟩ := takes.spec
    obtain ⟨names, values⟩ := FrameTree.reads_of_own_empty differs nothing
    exact ⟨cleared id tree, rfl, takes, differs, nothing, names, values⟩

end ArrayForks
