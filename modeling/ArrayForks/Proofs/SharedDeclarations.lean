import ArrayForks.Proofs.GoodValues
import ArrayForks.Proofs.Simulation

/-! # What two versions share is all that a run calls

The functions and types that a program calls are values that it has made of its references and
declarations, and nothing else makes such values. So if all that the code of two versions refers to
and declares is shared by them, then so is all that the first version calls.

* **`isLawful_known`**: `Known`, the standard of values whose declarations are shared, is kept by
  every single step.
* **`runs_in_step`**: so versions of a program go in step from a machine that knows only these. -/

namespace ArrayForks

open Evaluation (evaluate evaluateAll)
open Execution (condition callsTo)

namespace Versions

variable {versions : Versions} {hidden : String → Bool} {piece part : Piece}
  {machine start : Machine}

/-- A copy of no declaration but of one that both versions share. -/
abbrev Known (versions : Versions) : Standard :=
  fun _ copy => versions.Shares copy.value

/-- The versions share what the steps of a run make, if they share what it declares. -/
theorem isLawful_known [NumericLibrary] :
    Standard.IsLawful versions.Known (fun _ _ => True) versions.shared := by
  have kept : Value.IsKept versions.Shares :=
    .of_undeclared fun value undeclared id isDeclaration => by
      cases undeclared.symm.trans isDeclaration
  refine Standard.isLawful_of_kept kept (fun _ _ _ _ _ _ isDeclaration => by cases isDeclaration) ?_
  intro value id isDeclaration isShared other isOther
  cases isDeclaration.symm.trans isOther
  exact isShared

/-! ### Pieces of the first version -/

/-- A piece of the first version. -/
def Covers (versions : Versions) : Piece → Prop
  | .expression _ node => versions.Expression node
  | .row _ nodes => ∀ node ∈ nodes, versions.Expression node
  | .statement _ _ node => (∃ other, versions.Statement node other) ∨ versions.movable node
  | .sequence _ _ nodes => ∃ others, versions.Statements nodes others
  | .rounds _ _ test body _ => versions.Expression test ∧ ∃ other, versions.Statement body other
  | .program _ root => ∃ other, versions.Statement root other

/-- Statements of the first version start with one that has another version or may be moved, and go
on with statements of the first version unless this is a return. -/
theorem Statements.of_cons {node : Node} {nodes others : List Node}
    (same : versions.Statements (node :: nodes) others) :
    ((∃ other, versions.Statement node other) ∨ versions.movable node) ∧
      ((∃ rest, versions.Statements nodes rest) ∨ ∃ id result, node = .return id result) := by
  induction others with
  | nil =>
      cases same with
      | left isMovable rest => exact ⟨.inr isMovable, .inl ⟨_, rest⟩⟩
  | cons other others inductionHypothesis =>
      cases same with
      | cons starts rest => exact ⟨.inl ⟨_, starts⟩, .inl ⟨_, rest⟩⟩
      | ended known => exact ⟨.inl ⟨_, .simple rfl known⟩, .inr ⟨_, _, rfl⟩⟩
      | left isMovable rest => exact ⟨.inr isMovable, .inl ⟨_, rest⟩⟩
      | right isMovable rest => exact inductionHypothesis rest

/-- The body of a function that is called belongs to the first version, if the function is shared. -/
theorem Covers.of_called (alike : versions.DeclaredAlike) {function : Value} {name : String}
    {declaration : NodeId} {declaredName : String} {parameters : List String} {body : List Node}
    (shares : versions.Shares function) (isFunction : function = .function name declaration)
    (declared : versions.before.declaration? declaration =
      some (.function declaredName parameters body)) (depth limit : Nat) :
    versions.Covers (.sequence depth limit body) := by
  rw [isFunction] at shares
  have related := alike declaration (shares _ rfl)
  rw [declared] at related
  generalize versions.after.declaration? declaration = other at related
  cases related with
  | some related =>
      cases related with
      | function body => exact ⟨_, body⟩

variable [NumericLibrary]

/-- What a statement of the first version runs belongs to the first version. -/
theorem Covers.of_runs_statement (moves : ∀ node, versions.movable node → versions.Moves hidden node)
    {depth limit : Nat} {node : Node} (covers : versions.Covers (.statement depth limit node))
    (runs : (Piece.statement depth limit node).Runs versions.before machine part start) :
    versions.Covers part := by
  -- What may be moved declares something, and does not run anything.
  have runsOn : ¬ versions.Moves hidden node := fun moved => by cases moved <;> cases runs
  obtain ⟨other, same⟩ := covers.resolve_right fun isMovable => runsOn (moves node isMovable)
  -- Of the parts of an expression only the body of a function lies outside of its tree.
  cases runs with
  | block =>
      cases same with
      | simple isSimple _ => cases isSimple
      | block body => exact ⟨_, body⟩
  | initial | effect | result =>
      cases same with
      | simple _ known => exact known.first rfl
  | test =>
      cases same with
      | simple isSimple _ => cases isSimple
      | branch known _ => exact known
      | choice known _ _ => exact known
  | accepted =>
      cases same with
      | simple isSimple _ => cases isSimple
      | branch _ accepts => exact .inl ⟨_, accepts⟩
      | choice _ accepts _ => exact .inl ⟨_, accepts⟩
  | rejected =>
      cases same with
      | simple isSimple _ => cases isSimple
      | choice _ _ rejects => exact .inl ⟨_, rejects⟩
  | loop =>
      cases same with
      | simple isSimple _ => cases isSimple
      | loop known repeats => exact ⟨known, _, repeats⟩

/-- What a piece of the first version runs belongs to the first version, if it calls only what both
versions share. -/
theorem Covers.of_runs (alike : versions.DeclaredAlike)
    (moves : ∀ node, versions.movable node → versions.Moves hidden node)
    (covers : versions.Covers piece)
    (calls : ∀ depth id callee arguments function middle,
      piece = .expression depth (.call id callee arguments) →
      (evaluate versions.before (callsTo versions.before depth) callee).run machine =
        .done function middle → versions.Shares function.value)
    (runs : piece.Runs versions.before machine part start) : versions.Covers part := by
  cases piece with
  | expression depth node =>
      have known : (Piece.expression depth node).Everywhere fun part => versions.Knows part.id :=
        covers
      cases part with
      | expression _ _ => exact known.of_runs (fun _ _ _ _ _ _ isBody => by cases isBody) runs
      | row _ _ => exact known.of_runs (fun _ _ _ _ _ _ isBody => by cases isBody) runs
      | sequence _ _ _ =>
          cases runs with
          | called ranCallee ranArguments isFunction declared ranParameters fit =>
              have shares := calls _ _ _ _ _ _ rfl ranCallee
              exact .of_called alike shares isFunction declared _ _
      | _ => cases runs
  | row depth nodes =>
      cases runs with
      | firstOf => exact covers _ List.mem_cons_self
      | othersOf => exact fun node isIn => covers node (List.mem_cons_of_mem _ isIn)
  | statement depth limit node => exact covers.of_runs_statement moves runs
  | sequence depth limit nodes =>
      obtain ⟨others, same⟩ := covers
      cases runs with
      | firstStatement => exact same.of_cons.1
      | otherStatements ranFirst =>
          rcases same.of_cons.2 with rest | ⟨id, result, rfl⟩
          · exact rest
          -- The versions may differ after a return, but nothing is run there.
          · exact absurd rfl (returned_of_return ranFirst)
  | rounds depth limit test body left =>
      cases runs with
      | roundTest => exact covers.1
      | round => exact .inl covers.2
      | otherRounds => exact covers
  | program limit root =>
      obtain ⟨other, same⟩ := covers
      cases runs with
      | statements isProgram =>
          cases same with
          | simple isSimple _ =>
              unfold Execution.statements? at isProgram
              split at isProgram
              · cases isSimple
              · cases isSimple
              · cases isProgram
          | block body =>
              cases isProgram
              exact ⟨_, body⟩
          | root body =>
              cases isProgram
              exact ⟨_, body⟩
          | _ => cases isProgram

omit [NumericLibrary] in
/-- What a piece of the first version makes a value of is shared. -/
theorem Covers.shares_own (moves : ∀ node, versions.movable node → versions.Moves hidden node)
    (covers : versions.Covers piece) {id : NodeId}
    (makes : piece.declaration? versions.before = some id) : versions.shared id := by
  -- A statement that declares is shared where it stands, or else may be moved, and then it is, too.
  have own {depth limit : Nat} {node : Node} {id : NodeId}
      (covers : versions.Covers (.statement depth limit node))
      (makes : (Piece.statement depth limit node).declaration? versions.before = some id) :
      versions.shared id := by
    rcases covers with ⟨other, same⟩ | isMovable
    · cases same with
      | function isShared _ =>
          cases makes
          exact isShared
      | struct isShared =>
          cases makes
          exact isShared
      | simple isSimple _ =>
          cases node with
          | function _ _ _ _ => cases isSimple
          | struct _ _ _ => cases isSimple
          | _ => cases makes
      | _ => cases makes
    · cases moves node isMovable with
      | function _ isShared =>
          cases makes
          exact isShared
      | struct _ isShared =>
          cases makes
          exact isShared
  cases piece with
  | expression depth node =>
      cases node with
      | reference reference name => exact covers.here.shares id makes
      | _ => cases makes
  | statement depth limit node => exact own covers makes
  | _ => cases makes

/-- A piece of the first version makes values of shared declarations only, and from a machine that
has only these it leads to one that has only these. -/
theorem Covers.upholds_and_declares (alike : versions.DeclaredAlike)
    (moves : ∀ node, versions.movable node → versions.Moves hidden node)
    (covers : versions.Covers piece) (complies : machine.Complies versions.Known) :
    piece.Upholds versions.before versions.Known machine ∧
      piece.Declares versions.before versions.shared machine := by
  -- Both go by one induction: the body of a function belongs to the first version since the value
  -- that is called is shared, and the value is shared since the code that has made it belongs to it.
  induction piece, machine using Piece.induct versions.before with
  | step piece machine inductionHypothesis =>
      have calls (depth : Nat) (id : NodeId) (callee : Node) (arguments : List Node)
          (function : Copy) (middle : Machine)
          (isCall : piece = .expression depth (.call id callee arguments))
          (ran : (evaluate versions.before (callsTo versions.before depth) callee).run machine =
            .done function middle) : versions.Shares function.value := by
        subst isCall
        have ofCallee : versions.Expression callee := covers.first rfl
        have upheld := (inductionHypothesis _ _ .callee ofCallee complies).1
        exact (upheld.of_done complies ran).2
      have covered (part : Piece) (start : Machine)
          (runs : piece.Runs versions.before machine part start) : versions.Covers part :=
        covers.of_runs alike moves calls runs
      have upheld (part : Piece) (start : Machine)
          (runs : piece.Runs versions.before machine part start) :
          part.Upholds versions.before versions.Known start := fun startComplies =>
        (inductionHypothesis part start runs (covered part start runs) startComplies).1
          startComplies
      have admits : piece.Admits versions.before (fun _ _ => True) machine :=
        fun _ _ _ _ _ _ _ => trivial
      refine ⟨Piece.upholds_of_parts isLawful_known admits
        (fun id makes => covers.shares_own moves makes) upheld, ?_⟩
      intro part start id reaches makes
      rcases Relation.ReflTransGen.cases_head reaches with here | ⟨next, runs, further⟩
      · cases here
        exact covers.shares_own moves makes
      · have startComplies := runs.complies_of_parts isLawful_known upheld complies
        exact (inductionHypothesis next.1 next.2 runs (covered _ _ runs) startComplies).2 part start
          id further makes

/-- A piece of the first version calls only what both versions share. -/
theorem Covers.calls (alike : versions.DeclaredAlike)
    (moves : ∀ node, versions.movable node → versions.Moves hidden node)
    (covers : versions.Covers piece) (complies : machine.Complies versions.Known)
    {depth : Nat} {id : NodeId} {callee : Node} {arguments : List Node} {function : Copy}
    {values : List Copy} {middle last : Machine}
    (reaches : piece.Reaches versions.before machine
      (.expression depth (.call id callee arguments)) start)
    (ranCallee : (evaluate versions.before (callsTo versions.before depth) callee).run start =
      .done function middle)
    (ranArguments : (evaluateAll versions.before (callsTo versions.before depth) arguments).run
      middle = .done values last) :
    versions.Shares function.value ∧
      ∀ of, last.heap.object? function.value = some (.constructor of) → versions.Shares of := by
  have admits : piece.Admits versions.before (fun _ _ => True) machine :=
    fun _ _ _ _ _ _ _ => trivial
  have declares := (covers.upholds_and_declares alike moves complies).2
  have toCallee : piece.Reaches versions.before machine (.expression depth callee) start :=
    reaches.tail .callee
  have toArguments : piece.Reaches versions.before machine (.row depth arguments) middle :=
    reaches.tail (.arguments ranCallee)
  have meets := toCallee.meets isLawful_known admits declares complies ranCallee
  have ended : ((Piece.row depth arguments).computation versions.before |>.run middle).machine? =
      some last := congrArg Outcome.machine? ranArguments
  have lastComplies := toArguments.complies_final isLawful_known admits declares complies ended
  refine ⟨meets, fun of isConstructor => ?_⟩
  obtain ⟨ref, isObject, found⟩ := Heap.object?_eq_some isConstructor
  exact lastComplies.objects ref _ found (.new of) List.mem_cons_self

/-! ### Programs -/

omit [NumericLibrary] in
/-- A program starts without any declarations. -/
theorem known_initial (versions : Versions) : Machine.initial.Upholds versions.Known :=
  (Machine.complies_initial fun id isDeclaration => by cases isDeclaration).toUpholds

omit [NumericLibrary] in
/-- The keys of structures are no declarations. -/
theorem complies_known (known : machine.Upholds versions.Known) :
    machine.Complies versions.Known where
  toUpholds := known
  keys _ _ _ key _ id isDeclaration := by cases key <;> cases isDeclaration

/-- Versions of a program go in step from a machine that knows only what they share, if the first one
asks neither for the values of hidden names nor to assign them. -/
theorem runs_in_step (alike : versions.DeclaredAlike)
    (moves : ∀ node, versions.movable node → versions.Moves hidden node) {root other : Node}
    (same : versions.Statement root other) (limit : Nat) (known : machine.Upholds versions.Known)
    (reads : ∀ depth id name start, (Piece.program limit root).Reaches versions.before machine
      (.expression depth (.reference id name)) start → hidden name = true →
      ((versions.before.bindingOf? id).bind versions.before.valueOf?).isSome = true)
    (writes : ∀ depth id reference name source start,
      (Piece.program limit root).Reaches versions.before machine
        (.expression depth (.assign id (.reference reference name) source)) start →
      hidden name = false) :
    Eval.InStep hidden machine (Execution.program versions.before limit root)
      (Execution.program versions.after limit other) := by
  have covers : versions.Covers (.program limit root) := ⟨other, same⟩
  have allows : versions.Allows hidden (.program limit root) machine :=
    { reads := fun reaches isHidden => reads _ _ _ _ reaches isHidden
      writes := fun reaches => writes _ _ _ _ _ _ reaches
      calls := fun reaches ranCallee ranArguments =>
        covers.calls alike moves (complies_known known) reaches ranCallee ranArguments }
  exact goesInStep alike moves _ machine allows other same

end Versions

end ArrayForks
