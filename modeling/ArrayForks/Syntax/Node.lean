import ArrayForks.Operator
import ArrayForks.Value

/-! # Program trees

Programs are trees of numbered nodes. The number is the identity of a node: two nodes of the same
form may carry different types, and a reference is bound to a declaration by the number of its
node. Every node may stand anywhere in a tree; which nodes are expressions and which are statements
is decided when they are reached. -/

namespace ArrayForks

/-- A node of a program. -/
inductive Node where
  /-- A word, of any size in program text. -/
  | int (id : NodeId) (value : Int)
  /-- A double. -/
  | float (id : NodeId) (value : Float)
  /-- A text. -/
  | string (id : NodeId) (value : String)
  /-- `null`. -/
  | null (id : NodeId)
  /-- A name. -/
  | reference (id : NodeId) (name : String)
  /-- The constructor of the type that a node names. -/
  | constructor (id : NodeId) (of : Node)
  /-- An array of elements. -/
  | array (id : NodeId) (items : List Node)
  /-- An expression in parentheses. -/
  | paren (id : NodeId) (inner : Node)
  /-- A field of a structure, or the length of an array. -/
  | field (id : NodeId) (stem : Node) (name : String)
  /-- An element of an array. -/
  | index (id : NodeId) (stem position : Node)
  /-- A call. -/
  | call (id : NodeId) (callee : Node) (arguments : List Node)
  /-- A diadic operator. -/
  | diadic (id : NodeId) (left : Node) (op : DiadicOp) (right : Node)
  /-- A monadic operator. -/
  | monadic (id : NodeId) (op : MonadicOp) (operand : Node)
  /-- A monadic fork. -/
  | monadicFork (id : NodeId) (fork : MonadicFork) (operand : Node)
  /-- A diadic fork. -/
  | diadicFork (id : NodeId) (left : Node) (fork : DiadicFork) (right : Node)
  /-- An assignment. -/
  | assign (id : NodeId) (target source : Node)
  /-- Statements in a frame of their own. -/
  | block (id : NodeId) (body : List Node)
  /-- The declaration of a variable. -/
  | variable (id : NodeId) (name : String) (initial : Node)
  /-- An expression as a statement. -/
  | expression (id : NodeId) (inner : Node)
  /-- A choice between statements. -/
  | branch (id : NodeId) (condition accepted : Node) (rejected : Option Node)
  /-- A loop. -/
  | loop (id : NodeId) (condition body : Node)
  /-- The end of a call or a program. -/
  | return (id : NodeId) (result : Option Node)
  /-- The declaration of a function. -/
  | function (id : NodeId) (name : String) (parameters : List String) (body : List Node)
  /-- The declaration of a structure type. -/
  | struct (id : NodeId) (name : String) (fields : List String)
  /-- A parameter by itself. -/
  | parameter (id : NodeId) (name : String)
  /-- The declaration of a field by itself. -/
  | fieldDeclaration (id : NodeId) (name : String)
  /-- A program. -/
  | root (id : NodeId) (body : List Node)

namespace Node

/-- The number of a node. -/
def id : Node → NodeId
  | .int id _ | .float id _ | .string id _ | .null id | .reference id _ | .constructor id _
  | .array id _ | .paren id _ | .field id _ _ | .index id _ _ | .call id _ _ | .diadic id _ _ _
  | .monadic id _ _ | .monadicFork id _ _ | .diadicFork id _ _ _ | .assign id _ _ | .block id _
  | .variable id _ _ | .expression id _ | .branch id _ _ _ | .loop id _ _ | .return id _
  | .function id _ _ _ | .struct id _ _ | .parameter id _ | .fieldDeclaration id _
  | .root id _ => id

/-- The name that a node refers to or declares; other nodes have none. -/
def name : Node → String
  | .reference _ name | .variable _ name _ | .function _ name _ _ | .struct _ name _
  | .parameter _ name | .fieldDeclaration _ name => name
  | _ => ""

/-- The name of the kind of a node. -/
def kind : Node → String
  | .int _ _ => "IntLiteral"
  | .float _ _ => "FloatLiteral"
  | .string _ _ => "StringLiteral"
  | .null _ => "NullLiteral"
  | .reference _ _ => "Reference"
  | .constructor _ _ => "Constructor"
  | .array _ _ => "ArrayLiteral"
  | .paren _ _ => "Parenthesized"
  | .field _ _ _ => "FieldAccess"
  | .index _ _ _ => "ArrayAccess"
  | .call _ _ _ => "FunCall"
  | .diadic _ _ _ _ => "DiadicExpression"
  | .monadic _ _ _ => "MonadicExpression"
  | .monadicFork _ _ _ => "MonadicFork"
  | .diadicFork _ _ _ _ => "DiadicFork"
  | .assign _ _ _ => "Assignment"
  | .block _ _ => "Block"
  | .variable _ _ _ => "VarDeclaration"
  | .expression _ _ => "ExpressionStatement"
  | .branch _ _ _ _ => "If"
  | .loop _ _ _ => "While"
  | .return _ _ => "Return"
  | .function _ _ _ _ => "FunDeclaration"
  | .struct _ _ _ => "StructDeclaration"
  | .parameter _ _ => "Parameter"
  | .fieldDeclaration _ _ => "FieldDeclaration"
  | .root _ _ => "Root"

end Node

end ArrayForks
