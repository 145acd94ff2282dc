import Std.Data.HashMap
import ArrayForks.Failure
import ArrayForks.Syntax.Contents

/-! # Annotations

What is known of the nodes of a program before it runs: the static type of a node, the declaration
that a reference is bound to, and the declarations themselves. Nodes are known by their numbers. -/

namespace ArrayForks

/-- A declaration that a reference can be bound to. -/
inductive Declaration where
  /-- A function with its parameters and the statements of its body. -/
  | function (name : String) (parameters : List String) (body : List Node)
  /-- A structure type with its fields. -/
  | struct (name : String) (fields : List String)

/-- The annotations of the nodes of a program. -/
structure Annotations where
  /-- The static type of a node. -/
  types : Std.HashMap NodeId StaticType
  /-- The declaration of a reference, both by their numbers. -/
  bindings : Std.HashMap NodeId NodeId
  /-- The declarations of the program. -/
  declarations : Std.HashMap NodeId Declaration

namespace Annotations

/-- Nothing is known. -/
def empty : Annotations :=
  ⟨∅, ∅, ∅⟩

/-- Give a node a type. -/
def annotate (annotations : Annotations) (node : NodeId) (type : StaticType) : Annotations :=
  { annotations with types := annotations.types.insert node type }

/-- A node has the type that it was given last. -/
theorem types_annotate (annotations : Annotations) (node other : NodeId) (type : StaticType) :
    (annotations.annotate node type).types[other]? =
      if node = other then some type else annotations.types[other]? := by
  rw [annotate, Std.HashMap.getElem?_insert]
  simp

/-- Bind a reference to a declaration. -/
def bind (annotations : Annotations) (reference declaration : NodeId) : Annotations :=
  { annotations with bindings := annotations.bindings.insert reference declaration }

/-- The type of a node. -/
def typeOf (annotations : Annotations) (node : Node) : Except Failure StaticType :=
  match annotations.types[node.id]? with
  | some type => .ok type
  | none => (Violation.unresolvedType node.contents).raise

/-- The declaration that a reference is bound to. -/
def bindingOf? (annotations : Annotations) (reference : NodeId) : Option NodeId :=
  annotations.bindings[reference]?

/-- No reference is bound. -/
theorem bindingOf?_empty (reference : NodeId) : empty.bindingOf? reference = none :=
  Std.HashMap.getElem?_empty

/-- A reference is bound to what it was bound to last. -/
theorem bindingOf?_bind (annotations : Annotations) (reference declaration other : NodeId) :
    (annotations.bind reference declaration).bindingOf? other =
      if reference = other then some declaration else annotations.bindingOf? other := by
  rw [bindingOf?, bind, Std.HashMap.getElem?_insert]
  simp [bindingOf?]

/-- The declaration of a number. -/
def declaration? (annotations : Annotations) (id : NodeId) : Option Declaration :=
  annotations.declarations[id]?

/-- Nothing is declared. -/
theorem declaration?_empty (id : NodeId) : empty.declaration? id = none :=
  Std.HashMap.getElem?_empty

/-- The value of a declaration. -/
def valueOf? (annotations : Annotations) (id : NodeId) : Option Value :=
  match annotations.declaration? id with
  | some (.function name _ _) => some (.function name id)
  | some (.struct name _) => some (.type name id)
  | none => none

/-- Whether a node has a type. -/
def contains (annotations : Annotations) (node : NodeId) : Bool :=
  annotations.types.contains node

/-- The number of nodes with a type. -/
def size (annotations : Annotations) : Nat :=
  annotations.types.size

/-! ### Collecting declarations -/

mutual

/-- Enter all declarations in a node. -/
def collect (annotations : Annotations) : Node → Annotations
  | .array _ items => annotations.collectAll items
  | .constructor _ of => annotations.collect of
  | .paren _ inner => annotations.collect inner
  | .field _ stem _ => annotations.collect stem
  | .index _ stem position => (annotations.collect stem).collect position
  | .call _ callee arguments => (annotations.collect callee).collectAll arguments
  | .diadic _ left _ right => (annotations.collect left).collect right
  | .monadic _ _ operand => annotations.collect operand
  | .monadicFork _ _ operand => annotations.collect operand
  | .diadicFork _ left _ right => (annotations.collect left).collect right
  | .assign _ target source => (annotations.collect target).collect source
  | .block _ body => annotations.collectAll body
  | .variable _ _ initial => annotations.collect initial
  | .expression _ inner => annotations.collect inner
  | .branch _ condition accepted rejected =>
      let annotations := (annotations.collect condition).collect accepted
      match rejected with
      | none => annotations
      | some rejected => annotations.collect rejected
  | .loop _ condition body => (annotations.collect condition).collect body
  | .return _ none => annotations
  | .return _ (some result) => annotations.collect result
  | .function id name parameters body =>
      let annotations := annotations.collectAll body
      { annotations with
        declarations := annotations.declarations.insert id (.function name parameters body) }
  | .struct id name fields =>
      { annotations with declarations := annotations.declarations.insert id (.struct name fields) }
  | .root _ body => annotations.collectAll body
  | .int _ _ | .float _ _ | .string _ _ | .null _ | .reference _ _ | .parameter _ _
  | .fieldDeclaration _ _ => annotations

/-- Enter all declarations in nodes. -/
def collectAll (annotations : Annotations) : List Node → Annotations
  | [] => annotations
  | node :: nodes => (annotations.collect node).collectAll nodes

end

/-- A function is entered under its number, after the declarations in its body. -/
theorem declaration?_collect_function (annotations : Annotations) (id : NodeId) (name : String)
    (parameters : List String) (body : List Node) (other : NodeId) :
    (annotations.collect (.function id name parameters body)).declaration? other =
      if id = other then some (.function name parameters body)
      else (annotations.collectAll body).declaration? other := by
  rw [declaration?, collect, Std.HashMap.getElem?_insert]
  simp [declaration?]

end Annotations

end ArrayForks
