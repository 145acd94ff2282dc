/-! # Static types

The types that the nodes of a program carry. Numbers are `Int` and `Float`; a type is numeric in
shape when it is one of them or an array of one of them, and it is floating when that number type
is `Float`. -/

namespace ArrayForks

/-- The type of an expression. -/
inductive StaticType where
  /-- Words of 64 bits. -/
  | int
  /-- Doubles. -/
  | float
  /-- Texts. -/
  | string
  /-- The type of `null` alone. -/
  | null
  /-- The type of what has no value. -/
  | void
  /-- Arrays of one component type. -/
  | array (component : StaticType)
  /-- Structures of a declaration. -/
  | struct (name : String)
  /-- Functions. -/
  | function (parameters : List StaticType) (result : StaticType)
  /-- Type values. -/
  | type (of : StaticType)

namespace StaticType

/-! ### Decidable equality -/

mutual

/-- Whether two types are the same. -/
def same : StaticType → StaticType → Bool
  | .int, .int => true
  | .float, .float => true
  | .string, .string => true
  | .null, .null => true
  | .void, .void => true
  | .array left, .array right => same left right
  | .struct left, .struct right => left == right
  | .function leftParameters leftResult, .function rightParameters rightResult =>
      sameAll leftParameters rightParameters && same leftResult rightResult
  | .type left, .type right => same left right
  | _, _ => false

/-- Whether two lists of types are the same. -/
def sameAll : List StaticType → List StaticType → Bool
  | [], [] => true
  | left :: lefts, right :: rights => same left right && sameAll lefts rights
  | _, _ => false

end

mutual

/-- `same` decides equality of types. -/
theorem same_iff : (left right : StaticType) → (same left right = true ↔ left = right)
  | .int, right => by cases right <;> simp [same]
  | .float, right => by cases right <;> simp [same]
  | .string, right => by cases right <;> simp [same]
  | .null, right => by cases right <;> simp [same]
  | .void, right => by cases right <;> simp [same]
  | .array left, right => by cases right <;> simp [same, same_iff left]
  | .struct left, right => by cases right <;> simp [same]
  | .function parameters result, right => by
      cases right <;> simp [same, sameAll_iff parameters, same_iff result]
  | .type left, right => by cases right <;> simp [same, same_iff left]

/-- `sameAll` decides equality of lists of types. -/
theorem sameAll_iff : (left right : List StaticType) → (sameAll left right = true ↔ left = right)
  | [], right => by cases right <;> simp [sameAll]
  | left :: lefts, right => by
      cases right <;> simp [sameAll, same_iff left, sameAll_iff lefts]

end

instance : DecidableEq StaticType := fun left right =>
  decidable_of_iff (same left right = true) (same_iff left right)

/-! ### Text -/

mutual

/-- A type in program text. -/
def text : StaticType → String
  | .int => "Int"
  | .float => "Float"
  | .string => "String"
  | .null => "Null"
  | .void => "Void"
  | .array component => component.text ++ "[]"
  | .struct name => name
  | .function parameters result =>
      "(" ++ ",".intercalate (textAll parameters) ++ ") -> " ++ result.text
  | .type of => "Type<" ++ of.text ++ ">"

/-- Types in program text. -/
def textAll : List StaticType → List String
  | [] => []
  | first :: rest => first.text :: textAll rest

end

/-! ### Kinds of types -/

/-- The types whose values are compared by what they are, not by which object they are. -/
def isPrimitive : StaticType → Bool
  | .int | .float | .string | .null => true
  | _ => false

/-- The types of numbers. -/
def isNumeric : StaticType → Bool
  | .int | .float => true
  | _ => false

/-- The types of arrays. -/
def isArray : StaticType → Bool
  | .array _ => true
  | _ => false

/-- The numbers and the arrays of numbers. -/
def isNumericShape : StaticType → Bool
  | .array component => component.isNumeric
  | scalar => scalar.isNumeric

/-- `Float` and the arrays of `Float`. -/
def isFloating : StaticType → Bool
  | .float | .array .float => true
  | _ => false

end StaticType

end ArrayForks
