import ArrayForks.Operator
import ArrayForks.StaticType

/-! # Violations

A violation is a state that a checked program never reaches: a type without the operator that is
applied to it, a node without a type, a node where it may not stand. It is no error of the program's
run, and nothing in the language reacts to it. -/

namespace ArrayForks

/-- Why a program should not have passed its check. -/
inductive Violation where
  /-- The operator has no rule on numbers. -/
  | noNumericForm (op : DiadicOp)
  /-- Numbers are needed, and the array has other elements. -/
  | nonNumericArray (type : StaticType)
  /-- A number is needed. -/
  | nonNumericOperand (type : StaticType)
  /-- The operator has no rule for these types. -/
  | diadicTypes (op : DiadicOp) (left right : StaticType)
  /-- The operator has no rule for this type. -/
  | monadicType (op : MonadicOp) (type : StaticType)
  /-- An intermediate result is an empty array, which shows no component type. -/
  | emptyIntermediate
  /-- An intermediate result is of a kind that shows no type. -/
  | untypedIntermediate (kind : String)
  /-- An intermediate result is an array of a kind that shows no component type. -/
  | untypedElement (kind : String)
  /-- The node carries no type. -/
  | unresolvedType (node : String)
  /-- Values of this type are no conditions. -/
  | notCondition (type : StaticType)
  /-- Nodes of this kind are no expressions. -/
  | notExpression (kind : String)
  /-- Nodes of this kind are no statements. -/
  | notStatement (kind : String)
  /-- The node is no target of an assignment. -/
  | notAssignable (node : String)
  /-- The value cannot be called. -/
  | notCallable (value : String)
  deriving DecidableEq

/-- The text of a violation. -/
def Violation.message : Violation → String
  | .noNumericForm op => "operator '" ++ op.glyph ++ "' has no numeric form"
  | .nonNumericArray type => "non-numeric array operand of type " ++ type.text
  | .nonNumericOperand type => "non-numeric operand of type " ++ type.text
  | .diadicTypes op left right =>
      "operator '" ++ op.glyph ++ "' does not apply to " ++ left.text ++ " and " ++ right.text
  | .monadicType op type =>
      "monadic operator '" ++ op.glyph ++ "' does not apply to " ++ type.text
  | .emptyIntermediate => "cannot recover the runtime type of an empty array"
  | .untypedIntermediate kind => "unsupported value for runtime typing: " ++ kind
  | .untypedElement kind => "unsupported array element for runtime typing: " ++ kind
  | .unresolvedType node => "no resolved type for " ++ node
  | .notCondition type => "values of type " ++ type.text ++ " cannot be used as a condition"
  | .notExpression kind => "cannot evaluate " ++ kind ++ " as an expression"
  | .notStatement kind => "cannot execute " ++ kind ++ " as a statement"
  | .notAssignable node => "cannot assign to " ++ node
  | .notCallable value => value ++ " is not callable"

end ArrayForks
