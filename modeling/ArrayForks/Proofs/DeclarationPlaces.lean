import ArrayForks.Proofs.Returns

/-! # Where declarations stand

A declaration binds a name when it is executed, but a reference that is bound to a declaration does
not look the name up. So if all that a program reads by a name is bound to declarations, then it does
not matter where the declaration of the name stands: it may be left out, or put into any other list
of statements, before or after its calls.

* **`Node.without dropped`** is a node without the declarations that are dropped, at whatever
  depth.
* **`Statement.of_without`**: nodes with the same `without` are versions of each other, in the
  sense of `Versions.Statement`, which go in step. -/

namespace ArrayForks

open Evaluation (evaluate)
open Execution (callsTo)

namespace Node

/-- Whether a node declares a name under a number. -/
def declares (id : NodeId) (name : String) : Node → Bool
  | .function own called _ _ | .struct own called _ => own == id && called == name
  | _ => false

mutual

/-- A node with some of the statements in it left out. -/
def without (dropped : Node → Bool) (node : Node) : Node :=
  match node with
  | .block id body => .block id (withoutAll dropped body)
  | .branch id test accepted rejected =>
      .branch id test (without dropped accepted) (withoutOther dropped rejected)
  | .loop id test body => .loop id test (without dropped body)
  | .function id name parameters body => .function id name parameters (withoutAll dropped body)
  | .root id body => .root id (withoutAll dropped body)
  | node => node
termination_by structural node

/-- An alternative with some of the statements in it left out. -/
def withoutOther (dropped : Node → Bool) : Option Node → Option Node
  | none => none
  | some rejected => some (without dropped rejected)
termination_by structural rejected => rejected

/-- Statements with some of them left out. -/
def withoutAll (dropped : Node → Bool) : List Node → List Node
  | [] => []
  | node :: nodes =>
      if dropped node = true then withoutAll dropped nodes
      else without dropped node :: withoutAll dropped nodes
termination_by structural nodes => nodes

end

variable {dropped : Node → Bool}

/-- A statement that is dropped is left out. -/
theorem withoutAll_cons_of_dropped {node : Node} (isDropped : dropped node = true)
    (nodes : List Node) : withoutAll dropped (node :: nodes) = withoutAll dropped nodes := by
  rw [withoutAll, if_pos isDropped]

/-- A statement that is kept loses what is dropped within it. -/
theorem withoutAll_cons_of_kept {node : Node} (isKept : ¬ dropped node = true)
    (nodes : List Node) :
    withoutAll dropped (node :: nodes) = node.without dropped :: withoutAll dropped nodes := by
  rw [withoutAll, if_neg isKept]

/-- A node without statements in it is what is left of no other node. -/
theorem eq_of_without_eq {node other : Node} (isSimple : node.isSimple = true)
    (same : node = other.without dropped) : other = node := by
  cases other with
  | block _ _ | branch _ _ _ _ | loop _ _ _ | function _ _ _ _ | root _ _ =>
      subst same
      cases isSimple
  | _ => exact same.symm

end Node

/-- A declaration with some of the statements in it left out. -/
def Declaration.without (dropped : Node → Bool) : Declaration → Declaration
  | .function name parameters body => .function name parameters (Node.withoutAll dropped body)
  | .struct name fields => .struct name fields

/-- The same is known of the nodes of two programs. The declarations are the same with some of the
statements in them left out. -/
structure Annotations.SameWithout (dropped : Node → Bool) (before after : Annotations) : Prop where
  types_eq (id : NodeId) : before.types[id]? = after.types[id]?
  bindingOf?_eq (id : NodeId) : before.bindingOf? id = after.bindingOf? id
  declaration?_eq (id : NodeId) : (before.declaration? id).map (Declaration.without dropped) =
    (after.declaration? id).map (Declaration.without dropped)

/-! ### Versions without some statements -/

namespace Versions

variable {versions : Versions} {dropped : Node → Bool}

/-- The versions have everything in common but the places of what is dropped. -/
structure CommonBut (versions : Versions) (dropped : Node → Bool) : Prop where
  moves (node : Node) (isDropped : dropped node = true) : versions.movable node
  known (node : Node) : versions.Expression node
  shared (id : NodeId) : versions.shared id

mutual

/-- Nodes are versions of each other if they are the same with some statements left out that may be
moved. -/
theorem Statement.of_without (common : versions.CommonBut dropped) (node : Node) {other : Node}
    (same : node.without dropped = other.without dropped) : versions.Statement node other := by
  cases node with
  | block id body =>
      cases other with
      | block otherId others =>
          injection same with sameId bodies
          exact sameId ▸ .block (Statements.of_without common body bodies)
      | _ => cases same
  | branch id test accepted rejected =>
      cases other with
      | branch otherId otherTest otherAccepted otherwise =>
          injection same with sameId sameTest accepts rejects
          subst sameId sameTest
          have accepted := Statement.of_without common accepted accepts
          cases rejected with
          | none =>
              cases otherwise with
              | none => exact .branch (common.known test) accepted
              | some _ => cases rejects
          | some rejected =>
              cases otherwise with
              | none => cases rejects
              | some otherwise =>
                  injection rejects with rejects
                  exact .choice (common.known test) accepted
                    (Statement.of_without common rejected rejects)
      | _ => cases same
  | loop id test body =>
      cases other with
      | loop otherId otherTest other =>
          injection same with sameId sameTest repeats
          subst sameId sameTest
          exact .loop (common.known test) (Statement.of_without common body repeats)
      | _ => cases same
  | function id name parameters body =>
      cases other with
      | function otherId otherName otherParameters others =>
          injection same with sameId sameName sameParameters bodies
          subst sameId sameName sameParameters
          exact .function (common.shared id) (Statements.of_without common body bodies)
      | _ => cases same
  | root id body =>
      cases other with
      | root otherId others =>
          injection same with sameId bodies
          exact sameId ▸ .root (Statements.of_without common body bodies)
      | _ => cases same
  | struct id name fields =>
      cases other with
      | struct _ _ _ =>
          cases same
          exact .struct (common.shared id)
      | _ => cases same
  | _ =>
      obtain rfl := Node.eq_of_without_eq rfl same
      exact .simple rfl (common.known _)
termination_by structural node

/-- Statements are versions of each other if they are the same with some left out that may be
moved. -/
theorem Statements.of_without (common : versions.CommonBut dropped) (nodes : List Node)
    {others : List Node}
    (same : Node.withoutAll dropped nodes = Node.withoutAll dropped others) :
    versions.Statements nodes others := by
  cases nodes with
  | nil =>
      induction others with
      | nil => exact .nil
      | cons other others inductionHypothesis =>
          by_cases isDropped : dropped other = true
          · rw [Node.withoutAll_cons_of_dropped isDropped] at same
            exact .right (common.moves other isDropped) (inductionHypothesis same)
          · rw [Node.withoutAll_cons_of_kept isDropped] at same
            cases same
  | cons node nodes =>
      by_cases nodeDropped : dropped node = true
      · rw [Node.withoutAll_cons_of_dropped nodeDropped] at same
        exact .left (common.moves node nodeDropped) (Statements.of_without common nodes same)
      · rw [Node.withoutAll_cons_of_kept nodeDropped] at same
        -- The induction is on the second version, which may start with statements to be left out.
        induction others with
        | nil => cases same
        | cons other others inductionHypothesis =>
            by_cases isDropped : dropped other = true
            · rw [Node.withoutAll_cons_of_dropped isDropped] at same
              exact .right (common.moves other isDropped) (inductionHypothesis same)
            · rw [Node.withoutAll_cons_of_kept isDropped] at same
              injection same with starts rest
              exact .cons (Statement.of_without common node starts)
                (Statements.of_without common nodes rest)
termination_by structural nodes

end

/-- If all declarations are the same without what is dropped, they are versions of each other. -/
theorem DeclaredAlike.of_without (common : versions.CommonBut dropped)
    (same : versions.before.SameWithout dropped versions.after) : versions.DeclaredAlike := by
  intro id _
  have declared := same.declaration?_eq id
  generalize versions.before.declaration? id = first at declared ⊢
  generalize versions.after.declaration? id = second at declared ⊢
  cases first with
  | none =>
      cases second with
      | none => exact .none
      | some _ => cases declared
  | some first =>
      cases second with
      | none => cases declared
      | some second =>
          have declared := Option.some.inj declared
          refine .some ?_
          cases first with
          | function name parameters body =>
              cases second with
              | function _ _ others =>
                  injection declared with sameName sameParameters bodies
                  subst sameName sameParameters
                  exact .function (.of_without common body bodies)
              | struct _ _ => cases declared
          | struct name fields =>
              cases second with
              | function _ _ _ => cases declared
              | struct _ _ =>
                  cases declared
                  exact .struct

end Versions

/-! ### Where a declaration stands -/

/-- By a name a node refers to what it is bound to, and it does not assign to the name. -/
structure Annotations.Binds (annotations : Annotations) (name : String) (node : Node) : Prop where
  reads (reference : NodeId) (isReference : node = .reference reference name) :
    ((annotations.bindingOf? reference).bind annotations.valueOf?).isSome = true
  writes (assignment reference : NodeId) (source : Node) :
    node ≠ .assign assignment (.reference reference name) source

variable [NumericLibrary]

/-- A run evaluates only nodes that bind the name if all nodes of the program and of the functions
do. -/
theorem Annotations.Binds.of_everywhere {annotations : Annotations} {name : String} {root : Node}
    (everywhere : root.Everywhere (annotations.Binds name))
    (bodies : ∀ id called parameters body,
      annotations.declaration? id = some (.function called parameters body) →
      ∀ node ∈ body, node.Everywhere (annotations.Binds name))
    {limit depth : Nat} {machine start : Machine} {node : Node}
    (reaches : (Piece.program limit root).Reaches annotations machine (.expression depth node)
      start) : annotations.Binds name node := by
  have within : (Piece.program limit root).Everywhere (annotations.Binds name) := everywhere
  have ofNode := reaches.everywhere bodies within
  exact ofNode.here

/-- **The place of a declaration cannot be observed.** Let `root` and `other` be the same without
the declarations of `name` with the given `id`, wherever these stand: `root.without (Node.declares
id name) = other.without (Node.declares id name)`. If every expression that the run of `root`
reaches `Binds name`, so that a reference to it is bound to a declaration and no assignment goes to
it, then both programs `Agree`: on what is returned, on the failure, and on machines that are the
`SameBut` for what frames hold under `name`. -/
theorem declaration_placement_unobservable {before after : Annotations} {root other : Node}
    {id : NodeId} {name : String} (annotated : before.SameWithout (Node.declares id name) after)
    (same : root.without (Node.declares id name) = other.without (Node.declares id name))
    (limit : Nat) (machine : Machine)
    (binds : ∀ depth node start, (Piece.program limit root).Reaches before machine
      (.expression depth node) start → before.Binds name node) :
    ((Execution.program before limit root).run machine).Agree (Machine.SameBut (· == name))
      ((Execution.program after limit other).run machine) := by
  -- All declarations are shared, so whatever the machine knows is known to both versions.
  let versions : Versions :=
    { before, after
      shared := fun _ => True
      movable := fun node => node.declares id name = true }
  have knows (node : NodeId) : versions.Knows node :=
    ⟨annotated.types_eq node, annotated.bindingOf?_eq node, fun _ _ => trivial⟩
  have common : versions.CommonBut (Node.declares id name) :=
    { moves := fun _ isDropped => isDropped
      known := .of_forall fun node => knows node.id
      shared := fun _ => trivial }
  have moves (node : Node) (isMovable : versions.movable node) :
      versions.Moves (· == name) node := by
    cases node with
    | function own called parameters body =>
        exact .function (Bool.and_eq_true_iff.mp isMovable).2 trivial
    | struct own called fields => exact .struct (Bool.and_eq_true_iff.mp isMovable).2 trivial
    | _ => cases isMovable
  have known : machine.Upholds versions.Known :=
    ⟨fun _ _ _ _ _ => trivial, fun _ _ _ _ _ _ _ => trivial⟩
  have reads (depth : Nat) (reference : NodeId) (read : String) (start : Machine)
      (reaches : (Piece.program limit root).Reaches before machine
        (.expression depth (.reference reference read)) start) (isHidden : (read == name) = true) :
      ((before.bindingOf? reference).bind before.valueOf?).isSome = true := by
    obtain rfl : read = name := eq_of_beq isHidden
    exact (binds _ _ _ reaches).reads reference rfl
  have writes (depth : Nat) (assignment reference : NodeId) (written : String) (source : Node)
      (start : Machine) (reaches : (Piece.program limit root).Reaches before machine
        (.expression depth (.assign assignment (.reference reference written) source)) start) :
      (written == name) = false := by
    refine beq_eq_false_iff_ne.mpr fun isName => ?_
    subst isName
    exact (binds _ _ _ reaches).writes assignment reference source rfl
  have inStep : Eval.InStep (· == name) machine (Execution.program before limit root)
      (Execution.program after limit other) :=
    Versions.runs_in_step (.of_without common annotated) moves (.of_without common root same) limit
      known reads writes
  exact inStep machine (.refl _ machine)

omit [NumericLibrary] in
/-- A function is declared in a block before it is called from outside of the block, or only after the
end of the program, or not at all. -/
theorem declaration_placement_unobservable_block :
    letI : NumericLibrary := .standard
    let declaration := Node.function 4 "f" [] [.return 5 (some (.string 6 "done"))]
    let program (inside after : List Node) : Node :=
      .root 0 (.block 1 inside :: .return 2 (some (.call 3 (.reference 7 "f") [])) :: after)
    let annotations := (Annotations.empty.collect declaration).bind 7 4
    let run (root : Node) := (Execution.program annotations 1 root).run .initial
    (run (program [declaration] [])).Agree (Machine.SameBut (· == "f"))
        (run (program [] [declaration])) ∧
      (run (program [declaration] [])).Agree (Machine.SameBut (· == "f")) (run (program [] [])) ∧
      ∃ final, run (program [] []) = .done (.written 6 (.string "done")) final := by
  let : NumericLibrary := .standard
  intro declaration program annotations run
  have declared (id : NodeId) : annotations.declaration? id =
      if 4 = id then some (.function "f" [] [.return 5 (some (.string 6 "done"))]) else none := by
    rw [← Annotations.declaration?_empty id]
    exact Annotations.declaration?_collect_function .empty 4 "f" [] _ id
  have value : (annotations.bindingOf? 7).bind annotations.valueOf? = some (.function "f" 4) := by
    rw [Annotations.bindingOf?_bind, if_pos rfl, Option.bind_some, Annotations.valueOf?, declared]
    rfl
  have bound : annotations.Binds "f" (.reference 7 "f") :=
    ⟨fun reference isReference => by cases isReference; rw [value]; rfl, fun _ _ _ => by simp⟩
  have ofReturn : (Node.return 5 (some (.string 6 "done"))).Everywhere (annotations.Binds "f") :=
    .intro ⟨by simp, by simp⟩ <| List.forall_mem_singleton.mpr <|
      .intro ⟨by simp, by simp⟩ (List.forall_mem_nil _)
  have ofCall : (Node.return 2 (some (.call 3 (.reference 7 "f") []))).Everywhere
      (annotations.Binds "f") :=
    .intro ⟨by simp, by simp⟩ <| List.forall_mem_singleton.mpr <|
      .intro ⟨by simp, by simp⟩ <| List.forall_mem_singleton.mpr <|
        .intro bound (List.forall_mem_nil _)
  have everywhere : (program [declaration] []).Everywhere (annotations.Binds "f") :=
    .intro ⟨by simp [program], by simp [program]⟩ <| List.forall_mem_cons.mpr ⟨
      .intro ⟨by simp, by simp⟩ <| List.forall_mem_singleton.mpr <|
        .intro ⟨by simp [declaration], by simp [declaration]⟩ <| List.forall_mem_singleton.mpr
          ofReturn, List.forall_mem_singleton.mpr ofCall⟩
  have binds (depth : Nat) (node : Node) (start : Machine)
      (reaches : (Piece.program 1 (program [declaration] [])).Reaches annotations .initial
        (.expression depth node) start) : annotations.Binds "f" node := by
    refine .of_everywhere everywhere (fun id called parameters body isDeclared => ?_) reaches
    rw [declared] at isDeclared
    split at isDeclared
    · cases isDeclared
      exact List.forall_mem_singleton.mpr ofReturn
    · cases isDeclared
  have annotated : annotations.SameWithout (Node.declares 4 "f") annotations :=
    ⟨fun _ => rfl, fun _ => rfl, fun _ => rfl⟩
  have moved : (program [declaration] []).without (Node.declares 4 "f") =
      (program [] [declaration]).without (Node.declares 4 "f") := rfl
  have deleted : (program [declaration] []).without (Node.declares 4 "f") =
      (program [] []).without (Node.declares 4 "f") := rfl
  refine ⟨declaration_placement_unobservable annotated moved 1 .initial binds,
    declaration_placement_unobservable annotated deleted 1 .initial binds, ?_⟩
  have resolved (machine : Machine) :
      (evaluate annotations (callsTo annotations 1) (.reference 7 "f")).run machine =
        .done (.new (.function "f" 4)) machine := Evaluation.run_resolve value "f" machine
  -- The call returns what its body returns, and so does the program with the declaration left out.
  have called (machine : Machine) : ∃ final,
      (evaluate annotations (callsTo annotations 1) (.call 3 (.reference 7 "f") [])).run machine =
        .done (.written 6 (.string "done")) final := by
    have isDeclared := (declared 4).trans (if_pos rfl)
    have controls : Piece.Controls annotations (.expression 1 (.call 3 (.reference 7 "f") []))
        machine (.statement 0 0 (.return 5 (some (.string 6 "done"))))
        ((machine.enter FrameTree.callFrame).enter FrameTree.child) :=
      (Piece.Controls.of_runs (.called (resolved machine) rfl rfl isDeclared rfl rfl)
        rfl).and_runs .firstStatement rfl
    exact ⟨_, Piece.EndsWith.arrives controls rfl⟩
  obtain ⟨final, ranCall⟩ := called _
  have controls : Piece.Controls annotations (.program 1 (program [] [])) .initial
      (.statement 1 1 (.return 2 (some (.call 3 (.reference 7 "f") [])))) _ :=
    ((Piece.Controls.of_runs (.statements rfl) rfl).and_runs (.otherStatements rfl) rfl).and_runs
      .firstStatement rfl
  exact ⟨_, Piece.EndsWith.arrives controls (Eval.run_bind_of_done ranCall _)⟩

end ArrayForks
