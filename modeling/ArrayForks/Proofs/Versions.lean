import ArrayForks.Proofs.Everywhere
import ArrayForks.Proofs.HiddenNames
import ArrayForks.Proofs.Standards

/-! # Two versions of a program

Two versions of a program consist of the same statements, which hold the same expressions. They may
differ in what follows a return in the same list of statements, since it is never reached, and in
the places of declarations that may be moved. Both kinds of difference may occur in the program and
in the bodies of the functions that it calls, so the annotations of the two versions are compared as
well: the nodes that are there in both versions carry the same types and bindings, and the
declarations that both versions share are versions of each other. -/

namespace ArrayForks

namespace Node

/-- Whether a node has neither statements in it nor declares a function or a type. -/
def isSimple : Node → Bool
  | .block _ _ | .branch _ _ _ _ | .loop _ _ _ | .function _ _ _ _ | .struct _ _ _
  | .root _ _ => false
  | _ => true

end Node

/-- The annotations of two versions of a program, and what the versions have in common. -/
structure Versions where
  /-- What is known of the nodes of the first version. -/
  before : Annotations
  /-- What is known of the nodes of the second version. -/
  after : Annotations
  /-- The declarations that both versions share. -/
  shared : NodeId → Prop
  /-- The statements that need not stand in the same places. -/
  movable : Node → Prop

namespace Versions

variable (versions : Versions)

/-- The same is known of a node in both versions, and what it is bound to is shared. -/
structure Knows (id : NodeId) : Prop where
  type_eq : versions.before.types[id]? = versions.after.types[id]?
  binding_eq : versions.before.bindingOf? id = versions.after.bindingOf? id
  shares : ∀ declaration, versions.before.bindingOf? id = some declaration →
    versions.shared declaration

/-- An expression of both versions. -/
abbrev Expression (node : Node) : Prop :=
  node.Everywhere fun part => versions.Knows part.id

mutual

/-- The two versions of a statement or a program. -/
inductive Statement : Node → Node → Prop where
  /-- A statement that contains no others is the same in both versions. -/
  | simple {node : Node} (isSimple : node.isSimple = true) (known : versions.Expression node) :
      Statement node node
  /-- A block contains versions of the same statements. -/
  | block {id : NodeId} {first second : List Node} (body : Statements first second) :
      Statement (.block id first) (.block id second)
  /-- A choice without an alternative. -/
  | branch {id : NodeId} {test accepted other : Node} (known : versions.Expression test)
      (accepts : Statement accepted other) :
      Statement (.branch id test accepted none) (.branch id test other none)
  /-- A choice between two statements. -/
  | choice {id : NodeId} {test accepted other rejected otherwise : Node}
      (known : versions.Expression test) (accepts : Statement accepted other)
      (rejects : Statement rejected otherwise) :
      Statement (.branch id test accepted (some rejected)) (.branch id test other (some otherwise))
  /-- A loop. -/
  | loop {id : NodeId} {test body other : Node} (known : versions.Expression test)
      (repeats : Statement body other) : Statement (.loop id test body) (.loop id test other)
  /-- A function. -/
  | function {id : NodeId} {name : String} {parameters : List String} {first second : List Node}
      (isShared : versions.shared id) (body : Statements first second) :
      Statement (.function id name parameters first) (.function id name parameters second)
  /-- A structure type. -/
  | struct {id : NodeId} {name : String} {fields : List String} (isShared : versions.shared id) :
      Statement (.struct id name fields) (.struct id name fields)
  /-- A program. -/
  | root {id : NodeId} {first second : List Node} (body : Statements first second) :
      Statement (.root id first) (.root id second)

/-- The two versions of a list of statements. -/
inductive Statements : List Node → List Node → Prop where
  /-- No statements. -/
  | nil : Statements [] []
  /-- Versions of one statement, and then versions of the others. -/
  | cons {node other : Node} {first second : List Node} (starts : Statement node other)
      (rest : Statements first second) : Statements (node :: first) (other :: second)
  /-- The same return, and then any statements whatsoever. -/
  | ended {id : NodeId} {result : Option Node} {first second : List Node}
      (known : versions.Expression (.return id result)) :
      Statements (.return id result :: first) (.return id result :: second)
  /-- A declaration that only the first version has in this place. -/
  | left {node : Node} {first second : List Node} (isMovable : versions.movable node)
      (rest : Statements first second) : Statements (node :: first) second
  /-- A declaration that only the second version has in this place. -/
  | right {node : Node} {first second : List Node} (isMovable : versions.movable node)
      (rest : Statements first second) : Statements first (node :: second)

end

/-- The two versions of a declaration. -/
inductive Declared : Declaration → Declaration → Prop where
  /-- A function with versions of the same statements. -/
  | function {name : String} {parameters : List String} {first second : List Node}
      (body : versions.Statements first second) :
      Declared (.function name parameters first) (.function name parameters second)
  /-- A structure type is the same in both versions. -/
  | struct {name : String} {fields : List String} :
      Declared (.struct name fields) (.struct name fields)

/-- The declarations that are shared are versions of each other. -/
def DeclaredAlike : Prop :=
  ∀ id, versions.shared id →
    Option.Rel versions.Declared (versions.before.declaration? id) (versions.after.declaration? id)

/-- A value that is no declaration but one that both versions share. -/
def Shares (value : Value) : Prop :=
  ∀ id, value.declaration? = some id → versions.shared id

/-- What may be moved declares a hidden name, for a declaration that is shared. -/
inductive Moves (hidden : String → Bool) : Node → Prop where
  /-- A function. -/
  | function {id : NodeId} {name : String} {parameters : List String} {body : List Node}
      (isHidden : hidden name = true) (isShared : versions.shared id) :
      Moves hidden (.function id name parameters body)
  /-- A structure type. -/
  | struct {id : NodeId} {name : String} {fields : List String} (isHidden : hidden name = true)
      (isShared : versions.shared id) : Moves hidden (.struct id name fields)

variable {versions}

/-- The type of an expression is the same in both versions. -/
theorem Knows.typeOf_eq {node : Node} (known : versions.Knows node.id) :
    versions.after.typeOf node = versions.before.typeOf node := by
  rw [Annotations.typeOf, Annotations.typeOf, known.type_eq]

/-- A shared declaration has the same value in both versions. -/
theorem DeclaredAlike.valueOf?_eq (alike : versions.DeclaredAlike) {id : NodeId}
    (isShared : versions.shared id) :
    versions.after.valueOf? id = versions.before.valueOf? id := by
  have declared := alike id isShared
  unfold Annotations.valueOf?
  generalize versions.before.declaration? id = first at declared
  generalize versions.after.declaration? id = second at declared
  cases declared with
  | none => rfl
  | some declared => cases declared <;> rfl

/-- A node is bound to the same value in both versions. -/
theorem DeclaredAlike.bound_eq (alike : versions.DeclaredAlike) {id : NodeId}
    (known : versions.Knows id) :
    (versions.after.bindingOf? id).bind versions.after.valueOf? =
      (versions.before.bindingOf? id).bind versions.before.valueOf? := by
  rw [← known.binding_eq]
  cases bound : versions.before.bindingOf? id with
  | none => rfl
  | some declaration => exact alike.valueOf?_eq (known.shares declaration bound)

/-- A shared structure type is constructed alike in both versions. -/
theorem DeclaredAlike.construct_eq (alike : versions.DeclaredAlike) {of : Value}
    (shares : versions.Shares of) (arguments : List Copy) :
    Evaluation.construct versions.after of arguments =
      Evaluation.construct versions.before of arguments := by
  cases of with
  | type name id =>
      have declared := alike id (shares id rfl)
      simp only [Evaluation.construct]
      generalize versions.before.declaration? id = first at declared
      generalize versions.after.declaration? id = second at declared
      cases declared with
      | none => rfl
      | some declared => cases declared <;> rfl
  | _ => rfl

end Versions

end ArrayForks
