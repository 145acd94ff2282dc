import ArrayForks.Value

/-! # Copies

A number or a text may exist in several copies, which are equal and yet not one thing. Sameness asks
whether both sides are one copy. A copy is known by its value and by where it comes from, and it
stays that copy wherever it is bound, stored, passed and read back.

* **`copy.keep number`** gives a fresh copy its number; **`left.same right`** asks for sameness,
  which `same_iff` states. -/

namespace ArrayForks

/-- Where a copy of a value comes from. -/
inductive Origin where
  /-- The one copy of its value that there is. -/
  | common
  /-- A node of the program, which has the copy written in it. -/
  | written (node : NodeId)
  /-- A computation, where the copies that are kept are numbered. -/
  | made (number : Nat)
  /-- A computation that has not kept the copy yet. -/
  | fresh
  deriving DecidableEq

/-- A value as one thing among those equal to it. -/
structure Copy where
  /-- The value. -/
  value : Value
  /-- Where the copy comes from. -/
  origin : Origin
  deriving DecidableEq

namespace Copy

/-- A fresh copy of a value, unless the value exists only once. -/
def new (value : Value) : Copy :=
  ⟨value, if value.isUnique then .common else .fresh⟩

/-- `(new value).value = value`. -/
@[simp] theorem value_new (value : Value) : (new value).value = value :=
  rfl

/-- The copy of a value that is written in a node, unless the value exists only once. -/
def written (node : NodeId) (value : Value) : Copy :=
  ⟨value, if value.isUnique then .common else .written node⟩

/-- `(written node value).value = value`. -/
@[simp] theorem value_written (node : NodeId) (value : Value) :
    (written node value).value = value :=
  rfl

/-- Keep a copy under a number, which only a fresh copy takes. -/
def keep (copy : Copy) (number : Nat) : Copy :=
  match copy.origin with
  | .fresh => ⟨copy.value, .made number⟩
  | _ => copy

/-- A copy that is kept has the same value. -/
@[simp] theorem value_keep (copy : Copy) (number : Nat) :
    (copy.keep number).value = copy.value := by
  unfold keep
  split <;> rfl

/-- A copy that is kept is fresh no longer. -/
theorem origin_keep_ne_fresh (copy : Copy) (number : Nat) :
    (copy.keep number).origin ≠ .fresh := by
  unfold keep
  split
  · simp
  · assumption

/-- A copy that is not fresh stays what it is. -/
theorem keep_eq_self {copy : Copy} (old : copy.origin ≠ .fresh) (number : Nat) :
    copy.keep number = copy := by
  unfold keep
  split
  · contradiction
  · rfl

/-- Keep copies under numbers from a first one on. -/
def keepAll : (copies : List Copy) → (first : Nat) → List Copy
  | [], _ => []
  | copy :: copies, first => copy.keep first :: keepAll copies (first + 1)

/-- Copies that are kept have the same values. -/
@[simp] theorem map_value_keepAll (copies : List Copy) (first : Nat) :
    (keepAll copies first).map value = copies.map value := by
  induction copies generalizing first with
  | nil => rfl
  | cons copy copies inductionHypothesis => simp [keepAll, inductionHypothesis]

/-- All copies are kept. -/
@[simp] theorem length_keepAll (copies : List Copy) (first : Nat) :
    (keepAll copies first).length = copies.length := by
  induction copies generalizing first with
  | nil => rfl
  | cons copy copies inductionHypothesis => simp [keepAll, inductionHypothesis]

/-! ### Sameness -/

/-- Whether two copies are one. Fresh copies are told apart only once they are kept. -/
def same (left right : Copy) : Bool :=
  left = right && left.origin ≠ .fresh

/-- Two copies are the same if they are equal and not fresh. -/
theorem same_iff {left right : Copy} :
    left.same right = true ↔ left = right ∧ left.origin ≠ .fresh := by
  simp [same]

/-- Being the same is symmetric. -/
theorem same_comm (left right : Copy) : left.same right = right.same left := by
  by_cases equal : left = right
  · rw [equal]
  · have other : ¬ right = left := fun same => equal same.symm
    simp [same, equal, other]

/-- A copy that is kept is the same as itself. -/
@[simp] theorem same_keep_self (copy : Copy) (number : Nat) :
    (copy.keep number).same (copy.keep number) = true :=
  same_iff.mpr ⟨rfl, origin_keep_ne_fresh copy number⟩

/-- A value that exists only once has one copy. -/
theorem same_new_self {value : Value} (unique : value.isUnique = true) :
    (new value).same (new value) = true := by
  simp [same_iff, new, unique]

end Copy

end ArrayForks
