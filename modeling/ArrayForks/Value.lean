import ArrayForks.Decimal.Layout

/-! # Values

Numbers, texts and `null` are values of their own. Arrays, structures and constructors live in a
heap and are values by reference, so two of them are the same value only if they are the same
object. Functions and types are values by the declaration that they come from. -/

namespace ArrayForks

/-- The number of a node of a program. -/
abbrev NodeId := Nat

/-- The place of an object in the heap. -/
abbrev Ref := Nat

/-- What an expression evaluates to. Objects are equal by place, functions and types by declaration,
and doubles by their bits. -/
inductive Value where
  /-- A word of 64 bits. -/
  | int (n : Int)
  /-- A double. -/
  | float (x : Float)
  /-- A text. -/
  | string (text : String)
  /-- No object. -/
  | null
  /-- An array, a structure or a constructor. -/
  | object (ref : Ref)
  /-- A declared function. -/
  | function (name : String) (declaration : NodeId)
  /-- A declared structure type. -/
  | type (name : String) (declaration : NodeId)
  /-- A built-in function. -/
  | builtin (name : String) (identity : Nat)
  deriving DecidableEq

namespace Value

/-- Whether a value is a number equal to zero. Both zeros of the doubles are, and no subnormal. -/
def isZero : Value → Bool
  | .int n => n = 0
  | .float x => x == 0.0
  | _ => false

/-- Whether a value exists only once. Objects, declarations and `null` do, and so do small words and
texts of at most one character of one byte; every other number or text may exist in several
copies. -/
def isUnique : Value → Bool
  | .int n => -5 ≤ n && n ≤ 256
  | .float _ => false
  | .string text => text.toList.length ≤ 1 && text.toList.all fun c => c.toNat < 256
  | _ => true

/-- The text of a value by itself; an object shows no more than that it is one. -/
def text : Value → String
  | .int n => toString n
  | .float x => Decimal.text x
  | .string text => text
  | .null => "null"
  | .object _ => "..."
  | .function name _ => name
  | .type name _ => name
  | .builtin name _ => name

/-- The truth values as words. -/
def ofBool (b : Bool) : Value :=
  .int (if b then 1 else 0)

/-- The truth values as numbers, doubles or words. -/
def truth (floating b : Bool) : Value :=
  if floating then .float (if b then 1.0 else 0.0) else .int (if b then 1 else 0)

end Value

end ArrayForks
