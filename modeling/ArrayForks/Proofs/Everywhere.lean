import ArrayForks.Proofs.Pieces

/-! # What holds everywhere in a program

A property of nodes may hold of a node and of all nodes within it. If it holds everywhere in a
program, and everywhere in the functions that are declared, then it holds everywhere in whatever a
run of the program comes to run. -/

namespace ArrayForks

namespace Node

/-- The nodes right within a node. -/
def children : Node → List Node
  | .int _ _ | .float _ _ | .string _ _ | .null _ | .reference _ _ | .struct _ _ _
  | .parameter _ _ | .fieldDeclaration _ _ | .return _ none => []
  | .constructor _ inner | .paren _ inner | .field _ inner _ | .monadic _ _ inner
  | .monadicFork _ _ inner | .variable _ _ inner | .expression _ inner
  | .return _ (some inner) => [inner]
  | .index _ left right | .diadic _ left _ right | .diadicFork _ left _ right
  | .assign _ left right | .loop _ left right | .branch _ left right none => [left, right]
  | .branch _ test accepted (some rejected) => [test, accepted, rejected]
  | .call _ callee arguments => callee :: arguments
  | .array _ nodes | .block _ nodes | .function _ _ _ nodes | .root _ nodes => nodes

/-- What holds of a node and of all nodes within it. -/
inductive Everywhere (holds : Node → Prop) : Node → Prop where
  /-- It holds of the node, and everywhere in the nodes right within it. -/
  | intro {node : Node} (here : holds node)
      (inside : ∀ child ∈ node.children, Everywhere holds child) : Everywhere holds node

variable {holds : Node → Prop} {node : Node}

/-- What holds everywhere in a node holds of the node. -/
theorem Everywhere.here (everywhere : node.Everywhere holds) : holds node := by
  cases everywhere with
  | intro here inside => exact here

/-- What holds everywhere in a node holds everywhere in its children. -/
theorem Everywhere.inside (everywhere : node.Everywhere holds) {child : Node}
    (isChild : child ∈ node.children) : child.Everywhere holds := by
  cases everywhere with
  | intro here inside => exact inside child isChild

/-- What holds everywhere in a node holds everywhere in the first node within it. -/
theorem Everywhere.first (everywhere : node.Everywhere holds) {child : Node} {others : List Node}
    (isFirst : node.children = child :: others) : child.Everywhere holds :=
  everywhere.inside (isFirst ▸ List.mem_cons_self)

/-- What holds everywhere in a node holds everywhere in the second node within it. -/
theorem Everywhere.second (everywhere : node.Everywhere holds) {child first : Node}
    {others : List Node} (isSecond : node.children = first :: child :: others) :
    child.Everywhere holds :=
  everywhere.inside (isSecond ▸ List.mem_cons_of_mem _ List.mem_cons_self)

/-- The nodes right within a node are smaller. -/
theorem sizeOf_child_lt (node : Node) : ∀ child ∈ node.children, sizeOf child < sizeOf node := by
  have listed (nodes : List Node) {size : Nat} (atMost : sizeOf nodes ≤ size) :
      ∀ child ∈ nodes, sizeOf child < size :=
    fun child isIn => Nat.lt_of_lt_of_le (List.sizeOf_lt_of_mem isIn) atMost
  cases node with
  | array id nodes | block id nodes | root id nodes | function id name parameters nodes =>
      exact listed nodes (by simp)
  | call id callee arguments =>
      exact List.forall_mem_cons.mpr ⟨by simp; omega, listed arguments (by simp)⟩
  | branch id test accepted rejected => cases rejected <;> simp [children] <;> omega
  | «return» id result =>
      cases result with
      | none => simp [children]
      | some result =>
          simp [children]
          omega
  | _ => simp [children] <;> omega

/-- What holds of all nodes holds everywhere in a node. -/
theorem Everywhere.of_forall (all : ∀ node, holds node) (node : Node) : node.Everywhere holds :=
  .intro (all node) fun child isChild =>
    have _ := sizeOf_child_lt node child isChild
    of_forall all child
termination_by sizeOf node

end Node

namespace Piece

/-- What holds everywhere in the nodes of a piece. -/
def Everywhere (holds : Node → Prop) : Piece → Prop
  | .expression _ node | .statement _ _ node | .program _ node => node.Everywhere holds
  | .row _ nodes | .sequence _ _ nodes => ∀ node ∈ nodes, node.Everywhere holds
  | .rounds _ _ test body _ => test.Everywhere holds ∧ body.Everywhere holds

variable [NumericLibrary] {holds : Node → Prop} {annotations : Annotations} {piece part : Piece}
  {machine start : Machine}

/-- What holds everywhere in a piece holds everywhere in what the piece runs, if it also holds in the
function whose body this may be. -/
theorem Everywhere.of_runs
    (ofBody : ∀ depth id name parameters body,
      annotations.declaration? id = some (.function name parameters body) →
      part = .sequence depth depth body → ∀ node ∈ body, node.Everywhere holds)
    (everywhere : piece.Everywhere holds) (runs : Runs annotations piece machine part start) :
    part.Everywhere holds := by
  cases runs with
  | items | block => exact fun _ isIn => everywhere.inside isIn
  | arguments => exact fun _ isIn => everywhere.inside (List.mem_cons_of_mem _ isIn)
  | called _ _ _ declared => exact ofBody _ _ _ _ _ declared rfl
  | position | right | forkedRight | toName | toElement | toField => exact everywhere.second rfl
  | targetArray | targetStem => exact (everywhere.first rfl).first rfl
  | targetPosition => exact (everywhere.first rfl).second rfl
  | firstOf | firstStatement => exact everywhere _ List.mem_cons_self
  | othersOf | otherStatements => exact fun node isIn => everywhere node (List.mem_cons_of_mem _ isIn)
  | @test _ _ _ _ _ rejected => cases rejected <;> exact everywhere.first rfl
  | @accepted _ _ _ _ _ rejected => cases rejected <;> exact everywhere.second rfl
  | rejected =>
      exact everywhere.inside (List.mem_cons_of_mem _ (List.mem_cons_of_mem _ List.mem_cons_self))
  | loop => exact ⟨everywhere.first rfl, everywhere.second rfl⟩
  | roundTest => exact everywhere.1
  | round => exact everywhere.2
  | otherRounds => exact everywhere
  | statements isProgram =>
      unfold Execution.statements? at isProgram
      split at isProgram
      · cases isProgram
        exact fun _ isIn => everywhere.inside isIn
      · cases isProgram
        exact fun _ isIn => everywhere.inside isIn
      · cases isProgram
  | _ => exact everywhere.first rfl

/-- What holds everywhere in a program and in all functions holds everywhere in what a run reaches. -/
theorem Reaches.everywhere
    (bodies : ∀ id name parameters body,
      annotations.declaration? id = some (.function name parameters body) →
      ∀ node ∈ body, node.Everywhere holds)
    (reaches : Reaches annotations piece machine part start) (everywhere : piece.Everywhere holds) :
    part.Everywhere holds :=
  reaches.along (fun piece _ => piece.Everywhere holds) everywhere fun _ _ _ _ runs everywhere =>
    everywhere.of_runs (fun _ id name parameters body declared _ =>
      bodies id name parameters body declared) runs

end Piece

end ArrayForks
