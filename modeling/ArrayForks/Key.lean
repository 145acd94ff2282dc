import ArrayForks.Binary64.Decoded
import ArrayForks.Value

/-! # Keys

The entries of a structure are known by keys. Its fields have names; an entry that is written by
index is known by that number. A double that is a whole number finds the entry of the word, and the
word that of the double, but the entry keeps the key under which it was first written. -/

namespace ArrayForks

/-- An index that is not negative. -/
inductive Index where
  /-- A word. -/
  | word (n : Nat)
  /-- A double. -/
  | double (x : Float)
  deriving DecidableEq

/-- What an entry of a structure is known by. -/
inductive Key where
  /-- The name of a field. -/
  | name (text : String)
  /-- A word. -/
  | place (n : Nat)
  /-- A double, which lies between two words unless it is whole. -/
  | between (x : Float)
  deriving DecidableEq

namespace Key

/-- An index as a key of its own. -/
def ofIndex : Index → Key
  | .word n => .place n
  | .double x => .between x

/-- The whole number that a key stands for, if it stands for one. -/
def whole? : Key → Option Int
  | .name _ => none
  | .place n => some n
  | .between x => Binary64.integer? x

/-- Whether two keys stand for one entry: the same key, or the same whole number. -/
def agrees (left right : Key) : Bool :=
  left = right || (left.whole?.isSome && left.whole? = right.whole?)

/-- The key among some that an index finds, or else the index itself. -/
def among (keys : List Key) (index : Index) : Key :=
  (keys.find? (agrees (ofIndex index))).getD (ofIndex index)

/-- An index finds one of the keys, or is a key of its own. -/
theorem among_mem_or_eq (keys : List Key) (index : Index) :
    among keys index ∈ keys ∨ among keys index = ofIndex index := by
  rw [among]
  cases found : keys.find? (agrees (ofIndex index)) with
  | none => exact .inr rfl
  | some key => exact .inl (List.mem_of_find?_eq_some found)

/-- A key as a value. -/
def value : Key → Value
  | .name text => .string text
  | .place n => .int n
  | .between x => .float x

/-- The text of a key. -/
def text (key : Key) : String :=
  key.value.text

end Key

end ArrayForks
