import ArrayForks.FrameTree

/-! # Requests to frames

A frame and the frames around it read as one map from names to values, and requests ask this map to
bind names, to assign to them, to remove them and to take them out. A request is a sequence of
accesses to the tree. An access may be refused, which ends the request; what was changed before
stays changed. Reading goes through all frames around a frame, while binding and removing go to the
frame alone, so that a name may be in reach and yet not be there to be removed.

* **`Access α β`** is a sequence of accesses, and `access.run tree` is what it replies, or a
  `Refusal`, with the tree that it leaves.
* **`FrameRequest.perform id`** is the access that a request makes of the frame `id`. -/

namespace ArrayForks

/-- Why an access is refused. -/
inductive Refusal where
  /-- A name is not where it is asked for, or no name is left. -/
  | missing
  /-- A program that asks for this fails. -/
  | failure (failure : Failure)
  deriving DecidableEq

/-- Accesses to a tree one after the other, with a result or a refusal at their end, and a tree that
they leave in either case. -/
def Access (α β : Type) := FrameTree α → Except Refusal β × FrameTree α

namespace Access

variable {α β γ : Type}

/-- Make the accesses to a tree. -/
def run (access : Access α β) (tree : FrameTree α) : Except Refusal β × FrameTree α :=
  access tree

instance : Monad (Access α) where
  pure value := fun tree => (.ok value, tree)
  bind access next := fun tree =>
    match access tree with
    | (.ok value, after) => next value after
    | (.error refusal, after) => (.error refusal, after)

/-- A value is the reply, and the tree stays. -/
@[simp] theorem run_pure (value : β) (tree : FrameTree α) :
    (pure value : Access α β).run tree = (.ok value, tree) :=
  rfl

/-- What follows an access starts from the tree that this one left. -/
theorem run_bind_of_ok {access : Access α β} {tree after : FrameTree α} {value : β}
    (ran : access.run tree = (.ok value, after)) (next : β → Access α γ) :
    (access >>= next).run tree = (next value).run after := by
  simp only [run, bind] at ran ⊢
  rw [ran]

/-- Nothing follows an access that is refused. -/
theorem run_bind_of_error {access : Access α β} {tree after : FrameTree α} {refusal : Refusal}
    (ran : access.run tree = (.error refusal, after)) (next : β → Access α γ) :
    (access >>= next).run tree = (.error refusal, after) := by
  simp only [run, bind] at ran ⊢
  rw [ran]

/-- Look at the tree. -/
def look (view : FrameTree α → β) : Access α β :=
  fun tree => (.ok (view tree), tree)

/-- Change the tree. -/
def change (step : FrameTree α → FrameTree α) : Access α Unit :=
  fun tree => (.ok (), step tree)

/-- Go no further. -/
def refuse (refusal : Refusal) : Access α β :=
  fun tree => (.error refusal, tree)

/-- Looking at the tree leaves it as it is. -/
@[simp] theorem run_look_bind (view : FrameTree α → β) (next : β → Access α γ)
    (tree : FrameTree α) : (look view >>= next).run tree = (next (view tree)).run tree :=
  rfl

/-- `change step` has no reply, and leaves `step tree`. -/
@[simp] theorem run_change (step : FrameTree α → FrameTree α) (tree : FrameTree α) :
    (change step).run tree = (.ok (), step tree) :=
  rfl

/-! ### Reading and binding -/

/-- The value of a name in reach. -/
def read (id : FrameId) (name : String) : Access α α := do
  match ← look fun tree => tree.find? id name with
  | some value => return value
  | none => refuse .missing

/-- Bind a name in the frame itself. -/
def define (id : FrameId) (name : String) (value : α) : Access α Unit :=
  change fun tree => tree.insert id name value

/-- Bind names in the frame itself, one after the other. -/
def defineAll (id : FrameId) : List (String × α) → Access α Unit
  | [] => return
  | entry :: entries => do
      define id entry.1 entry.2
      defineAll id entries

/-- Write to a name in the nearest frame that binds it. -/
def assign (id : FrameId) (name : String) (value : α) : Access α Unit := do
  match ← look fun tree => tree.owner? id name with
  | some frame => define frame name value
  | none => refuse (.failure (.undefinedTarget name))

/-- The value of a name; a name that is not in reach is bound first. -/
def readOrDefine (id : FrameId) (name : String) (value : α) : Access α α := do
  match ← look fun tree => tree.find? id name with
  | some found => return found
  | none =>
      define id name value
      return value

/-! ### Removing -/

/-- Remove a name from the frame itself. -/
def remove (id : FrameId) (name : String) : Access α Unit := do
  if ← look fun tree => (tree.own id).contains name then change fun tree => tree.erase id name
  else refuse .missing

/-- The value of a name in reach, which is then removed from the frame itself. -/
def take (id : FrameId) (name : String) : Access α α := do
  let value ← read id name
  remove id name
  return value

/-- The value of a name in reach, which is then removed from the frame itself, or another value for
a name that is not in reach. -/
def takeOr (id : FrameId) (name : String) (value : α) : Access α α := do
  match ← look fun tree => tree.find? id name with
  | some found =>
      remove id name
      return found
  | none => return value

/-- The first name in reach with its value, which is then removed from the frame itself. -/
def takeFirst (id : FrameId) : Access α (String × α) := do
  match ← look fun tree => (tree.names id).head? with
  | some name =>
      let value ← take id name
      return (name, value)
  | none => refuse .missing

/-! ### What the accesses give -/

section

variable {tree : FrameTree α} {id : FrameId} {name : String} {value : α}

/-- Reading a name in reach replies what the nearest frame holds. -/
theorem run_read_of_found (found : tree.find? id name = some value) :
    (read id name).run tree = (.ok value, tree) := by
  rw [read, run_look_bind, found]
  rfl

/-- Reading a name that is not in reach is refused. -/
theorem run_read_of_missing (missing : tree.find? id name = none) :
    (read id name).run tree = (.error .missing, tree) := by
  rw [read, run_look_bind, missing]
  rfl

/-- A name is written to where it is bound. -/
theorem run_assign_of_owner {frame : FrameId} (nearest : tree.owner? id name = some frame)
    (value : α) : (assign id name value).run tree = (.ok (), tree.insert frame name value) := by
  rw [assign, run_look_bind, nearest]
  rfl

/-- A name that is bound nowhere is not written to. -/
theorem run_assign_of_none (nowhere : tree.owner? id name = none) (value : α) :
    (assign id name value).run tree = (.error (.failure (.undefinedTarget name)), tree) := by
  rw [assign, run_look_bind, nowhere]
  rfl

/-- A name in reach is read, and not defined. -/
theorem run_readOrDefine_of_found (found : tree.find? id name = some value) (other : α) :
    (readOrDefine id name other).run tree = (.ok value, tree) := by
  rw [readOrDefine, run_look_bind, found]
  rfl

/-- A name that is not in reach is defined in the frame itself. -/
theorem run_readOrDefine_of_missing (missing : tree.find? id name = none) (value : α) :
    (readOrDefine id name value).run tree = (.ok value, tree.insert id name value) := by
  rw [readOrDefine, run_look_bind, missing]
  rfl

/-- A name that the frame itself binds is removed. -/
theorem run_remove_of_bound (bound : (tree.own id).contains name = true) :
    (remove id name).run tree = (.ok (), tree.erase id name) := by
  rw [remove, run_look_bind, if_pos bound]
  rfl

/-- A name that the frame itself does not bind is not removed from anywhere. -/
theorem run_remove_of_unbound (unbound : (tree.own id).contains name = false) :
    (remove id name).run tree = (.error .missing, tree) := by
  rw [remove, run_look_bind, unbound]
  rfl

/-- What the frame itself binds is taken from it. -/
theorem run_take_of_bound (bound : (tree.own id).find? name = some value) :
    (take id name).run tree = (.ok value, tree.erase id name) := by
  have isBound := Bindings.contains_of_find? bound
  have found : tree.find? id name = some value := by rw [FrameTree.find?_eq_own isBound, bound]
  rw [take, run_bind_of_ok (run_read_of_found found),
    run_bind_of_ok (run_remove_of_bound isBound), run_pure]

/-- What the frame itself does not bind is not taken, whether it is in reach or not. -/
theorem run_take_of_unbound (unbound : (tree.own id).contains name = false) :
    (take id name).run tree = (.error .missing, tree) := by
  cases found : tree.find? id name with
  | none => rw [take, run_bind_of_error (run_read_of_missing found)]
  | some value =>
      rw [take, run_bind_of_ok (run_read_of_found found),
        run_bind_of_error (run_remove_of_unbound unbound)]

/-- A name that the frame binds is taken, whatever the other value. -/
theorem run_takeOr_of_bound (bound : (tree.own id).find? name = some value) (other : α) :
    (takeOr id name other).run tree = (.ok value, tree.erase id name) := by
  have isBound := Bindings.contains_of_find? bound
  rw [takeOr, run_look_bind, FrameTree.find?_eq_own isBound, bound]
  exact run_bind_of_ok (run_remove_of_bound isBound) _

/-- The other value stands for a name that is not in reach. -/
theorem run_takeOr_of_missing (missing : tree.find? id name = none) (value : α) :
    (takeOr id name value).run tree = (.ok value, tree) := by
  rw [takeOr, run_look_bind, missing]
  rfl

/-- The other value does not stand for a name that is bound farther out. -/
theorem run_takeOr_of_outer (unbound : (tree.own id).contains name = false)
    (found : tree.find? id name = some value) (other : α) :
    (takeOr id name other).run tree = (.error .missing, tree) := by
  rw [takeOr, run_look_bind, found]
  exact run_bind_of_error (run_remove_of_unbound unbound) _

/-- Whatever is taken first was bound in the frame itself. -/
theorem size_own_lt_of_takeFirst {rest : FrameTree α} {entry : String × α}
    (taken : (takeFirst id).run tree = (.ok entry, rest)) :
    (rest.own id).size < (tree.own id).size := by
  rw [takeFirst, run_look_bind] at taken
  split at taken
  · next first isFirst =>
      cases bound : (tree.own id).contains first with
      | false =>
          rw [run_bind_of_error (run_take_of_unbound bound)] at taken
          cases taken
      | true =>
          obtain ⟨held, isHeld⟩ := Option.isSome_iff_exists.mp bound
          rw [run_bind_of_ok (run_take_of_bound isHeld)] at taken
          cases taken
          rw [FrameTree.erase, FrameTree.own_setOwn,
            if_pos ⟨rfl, FrameTree.lt_size_of_contains bound⟩]
          exact Bindings.size_erase_lt bound
  · cases taken

end

/-- The tree after the first names have been taken one after the other until this is refused. -/
def cleared (id : FrameId) (tree : FrameTree α) : FrameTree α :=
  match _ : (takeFirst id).run tree with
  | (.ok _, rest) => cleared id rest
  | (.error _, rest) => rest
termination_by (tree.own id).size
decreasing_by exact size_own_lt_of_takeFirst ‹_›

/-- Take the first names until this is refused. -/
def clear (id : FrameId) : Access α Unit :=
  change (cleared id)

end Access

/-- What a frame is asked for. -/
inductive FrameRequest (α : Type) where
  /-- Bind a name in the frame itself. -/
  | define (name : String) (value : α)
  /-- Bind names in the frame itself, one after the other. -/
  | defineAll (entries : List (String × α))
  /-- Write to a name in the nearest frame that binds it. -/
  | assign (name : String) (value : α)
  /-- The value of a name, which is bound to another value first if it is not in reach. -/
  | readOrDefine (name : String) (value : α)
  /-- Remove a name from the frame itself. -/
  | remove (name : String)
  /-- Remove a name from the frame itself and give its value. -/
  | take (name : String)
  /-- Remove a name from the frame itself and give its value, or another value if the name is not in
  reach. -/
  | takeOr (name : String) (value : α)
  /-- Remove the first name in reach from the frame itself and give it with its value. -/
  | takeFirst
  /-- Remove first names for as long as the frame itself binds them. -/
  | clear

/-- What a request that is not refused gives. -/
inductive FrameReply (α : Type) where
  /-- Nothing but the change. -/
  | nothing
  /-- The value of a name. -/
  | value (value : α)
  /-- A name with its value. -/
  | entry (name : String) (value : α)

/-- The accesses that a request to a frame makes. -/
def FrameRequest.perform {α : Type} (id : FrameId) : FrameRequest α → Access α (FrameReply α)
  | .define name value => do
      Access.define id name value
      return .nothing
  | .defineAll entries => do
      Access.defineAll id entries
      return .nothing
  | .assign name value => do
      Access.assign id name value
      return .nothing
  | .readOrDefine name value => do
      let held ← Access.readOrDefine id name value
      return .value held
  | .remove name => do
      Access.remove id name
      return .nothing
  | .take name => do
      let held ← Access.take id name
      return .value held
  | .takeOr name value => do
      let held ← Access.takeOr id name value
      return .value held
  | .takeFirst => do
      let (name, held) ← Access.takeFirst id
      return .entry name held
  | .clear => do
      Access.clear id
      return .nothing

end ArrayForks
