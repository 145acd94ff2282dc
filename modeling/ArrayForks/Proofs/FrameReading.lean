import Mathlib.Data.List.Basic
import ArrayForks.FrameTree

/-! # Reading through frames

The frames around a frame can be read in two ways: a name can be searched for outwards, and the
names in reach can be listed from the nearest frame to the farthest. Both ways show the same map. The
listing has every name once, at the place where it comes first, and with the value that the search
finds. A change of one frame is seen through another frame only by names whose search stops at the
changed frame.

* **`names_eq_append`**: `tree.names id` is the names of the frame and then those of its parent
  that are not among them.
* **`mem_names_iff`**, **`isSome_find?_iff`**: a name is listed, and found, exactly if it is in
  reach.
* **`mem_entries_iff`**: `tree.entries id` holds exactly what `tree.find? id` finds. -/

namespace ArrayForks

variable {α : Type}

/-! ### Listing -/

/-- What is left of a list when repetitions go is left of a part of the list as well. -/
theorem eraseDups_filter (keep : String → Bool) (names : List String) :
    (names.filter keep).eraseDups = names.eraseDups.filter keep := by
  match names with
  | [] => rfl
  | name :: rest =>
      have ofOthers := eraseDups_filter keep (rest.filter fun other => !other == name)
      rw [List.eraseDups_cons]
      cases kept : keep name with
      | true =>
          rw [List.filter_cons_of_pos kept, List.filter_cons_of_pos kept, List.eraseDups_cons,
            ← ofOthers, List.filter_comm]
      | false =>
          -- The name itself is not kept, so nothing more goes with it.
          have unkept : ¬ keep name = true := by rw [kept]; exact Bool.false_ne_true
          have others : rest.filter keep =
              (rest.filter fun other => !other == name).filter keep := by
            rw [List.filter_filter]
            refine List.filter_congr fun other _ => ?_
            cases keepOther : keep other with
            | false => rfl
            | true =>
                have differ : other ≠ name := fun same => unkept (same ▸ keepOther)
                simp [differ]
          rw [List.filter_cons_of_neg unkept, List.filter_cons_of_neg unkept, others, ofOthers]
termination_by names.length
decreasing_by exact Nat.lt_succ_of_le (List.length_filter_le _ _)

/-- Nothing goes from a list without repetitions. -/
theorem eraseDups_eq_self {names : List String} (nodup : names.Nodup) : names.eraseDups = names := by
  induction names with
  | nil => rfl
  | cons name rest inductionHypothesis =>
      obtain ⟨isNew, restNodup⟩ := List.nodup_cons.mp nodup
      have others : (rest.filter fun other => !other == name) = rest := by
        refine List.filter_eq_self.mpr fun other isIn => ?_
        have differ : other ≠ name := fun same => isNew (same ▸ isIn)
        simp [differ]
      rw [List.eraseDups_cons, others, inductionHypothesis restNodup]

/-- The names in reach are those of the nearest frame and after them those of the farther frames that
the nearest one does not bind. -/
theorem names_visibleEntries_cons (frame : Frame α) (frames : List (Frame α)) :
    (visibleEntries (frame :: frames)).map Prod.fst =
      frame.names ++
        ((visibleEntries frames).map Prod.fst).filter fun name => !frame.contains name := by
  rw [visibleEntries, List.map_append, List.filter_map]
  rfl

/-- Each name in reach is listed once. -/
theorem nodup_visibleEntries (frames : List (Frame α)) :
    ((visibleEntries frames).map Prod.fst).Nodup := by
  induction frames with
  | nil => exact .nil
  | cons frame frames inductionHypothesis =>
      rw [names_visibleEntries_cons]
      refine List.nodup_append.mpr ⟨frame.names_nodup, inductionHypothesis.filter _, ?_⟩
      intro name isNear other isFar same
      have unbound := (List.mem_filter.mp isFar).2
      rw [← same, (frame.contains_iff name).mpr isNear] at unbound
      cases unbound

/-- The names in reach are the names of all frames from near to far, each one where it comes first. -/
theorem names_visibleEntries (frames : List (Frame α)) :
    (visibleEntries frames).map Prod.fst = (frames.flatMap Bindings.names).eraseDups := by
  induction frames with
  | nil => rfl
  | cons frame frames inductionHypothesis =>
      have keeps (name : String) : (!frame.contains name) = !frame.names.elem name := by
        rw [Bool.not_inj_iff, Bool.eq_iff_iff, frame.contains_iff, List.elem_iff]
      rw [names_visibleEntries_cons, List.flatMap_cons, List.eraseDups_append,
        eraseDups_eq_self frame.names_nodup, List.removeAll, eraseDups_filter, inductionHypothesis]
      simp only [keeps]

/-- The value that is listed for a name is the one in the nearest frame that binds it. -/
theorem lookup_visibleEntries (frames : List (Frame α)) (name : String) :
    (visibleEntries frames).lookup name = frames.findSome? fun frame => frame.find? name := by
  induction frames with
  | nil => rfl
  | cons frame frames inductionHypothesis =>
      rw [visibleEntries, List.lookup_append, List.findSome?_cons]
      cases found : frame.find? name with
      | some value => rw [show frame.entries.lookup name = some value from found, Option.some_or]
      | none =>
          have unbound : (!frame.contains name) = true := by
            rw [Bindings.contains_of_find?_eq_none found, Bool.not_false]
          rw [show frame.entries.lookup name = none from found, Option.none_or,
            Bindings.lookup_filter (fun other => !frame.contains other) unbound,
            inductionHypothesis]

namespace FrameTree

variable (tree : FrameTree α) (id : FrameId)

/-- The search for a name goes outwards and stops at the first frame that binds it. -/
theorem find?_eq_findSome? (name : String) :
    tree.find? id name = (tree.chain id).findSome? fun frame => (tree.own frame).find? name := by
  unfold find? owner?
  induction tree.chain id with
  | nil => rfl
  | cons frame frames inductionHypothesis =>
      cases found : (tree.own frame).find? name with
      | some value =>
          rw [List.find?_cons, Bindings.contains_of_find? found, List.findSome?_cons, found]
          exact found
      | none =>
          rw [List.find?_cons, Bindings.contains_of_find?_eq_none found, List.findSome?_cons, found,
            ← inductionHypothesis]

/-- The search for a name finds the value that is listed for it. -/
theorem lookup_entries (name : String) : (tree.entries id).lookup name = tree.find? id name := by
  rw [entries, lookup_visibleEntries, frames, List.findSome?_map, find?_eq_findSome?]
  rfl

/-- Each name in reach is listed once. -/
theorem names_nodup : (tree.names id).Nodup :=
  nodup_visibleEntries (tree.frames id)

/-- An entry is listed exactly when the search finds its value. -/
theorem mem_entries_iff (name : String) (value : α) :
    (name, value) ∈ tree.entries id ↔ tree.find? id name = some value := by
  rw [Bindings.mem_iff_lookup (names_nodup tree id), lookup_entries]

/-- A name is listed exactly when the search finds a value. -/
theorem mem_names_iff (name : String) :
    name ∈ tree.names id ↔ (tree.find? id name).isSome = true := by
  rw [← lookup_entries, names, Bindings.lookup_isSome]

/-- A frame that a search finds binds the name. -/
theorem isSome_find?_iff (name : String) :
    (tree.find? id name).isSome = true ↔ tree.contains id name = true := by
  unfold find? contains
  cases found : tree.owner? id name with
  | none => simp
  | some frame =>
      have binds := (owner?_eq_some found).2
      rw [Bindings.contains] at binds
      simp [binds]

variable {tree id}

/-- The frames around a frame in the tree are the frame itself and then the frames around its
parent. -/
theorem frames_eq_cons (inTree : id < tree.nodes.size) :
    tree.frames id = tree.own id :: (tree.parent? id).elim [] tree.frames := by
  rw [frames, chain_eq_cons inTree, List.map_cons]
  cases tree.parent? id with
  | none => rfl
  | some parent => rfl

/-- A frame that is not in the tree reads as one that binds nothing in no other frame. -/
theorem frames_eq_nil (outside : tree.nodes.size ≤ id) :
    tree.frames id = [] ∧ tree.own id = .empty ∧ tree.parent? id = none := by
  refine ⟨?_, own_eq_empty outside, ?_⟩
  · rw [frames, chain_eq_nil outside, List.map_nil]
  · rw [parent?, Array.getElem?_eq_none outside, Option.bind_none]

variable (tree id)

/-- The names in reach of a frame are its own and then those in reach of its parent that it does not
bind itself. -/
theorem names_eq_append :
    tree.names id = (tree.own id).names ++
      ((tree.parent? id).elim [] tree.names).filter fun name => !(tree.own id).contains name := by
  rcases Nat.lt_or_ge id tree.nodes.size with inTree | outside
  · rw [names, entries, frames_eq_cons inTree, names_visibleEntries_cons]
    cases tree.parent? id with
    | none => rfl
    | some parent => rfl
  · obtain ⟨noFrames, isEmpty, alone⟩ := frames_eq_nil outside
    rw [names, entries, noFrames, isEmpty, alone]
    rfl

/-- A name is read in the frame itself or else from its parent. -/
theorem find?_eq_or (name : String) :
    tree.find? id name = ((tree.own id).find? name).or
      ((tree.parent? id).bind fun parent => tree.find? parent name) := by
  have read (frame : FrameId) :
      tree.find? frame name = (tree.frames frame).findSome? fun frame => frame.find? name := by
    rw [← lookup_entries, entries, lookup_visibleEntries]
  rcases Nat.lt_or_ge id tree.nodes.size with inTree | outside
  · rw [read, frames_eq_cons inTree, List.findSome?_cons]
    cases (tree.own id).find? name with
    | some value => rfl
    | none =>
        rw [Option.none_or]
        cases tree.parent? id with
        | none => rfl
        | some parent => rw [Option.elim_some, Option.bind_some, read]
  · obtain ⟨noFrames, isEmpty, alone⟩ := frames_eq_nil outside
    rw [read, noFrames, isEmpty, alone]
    rfl

end FrameTree

end ArrayForks
