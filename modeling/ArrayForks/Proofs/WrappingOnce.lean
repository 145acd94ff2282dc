import ArrayForks.Proofs.ExactArithmetic
import ArrayForks.Proofs.TypeSoundness

/-! # Wrapping once

Words wrap at every step of an expression. Where all operators commute with wrapping, the result is
nevertheless what the same expression is worth over all integers, wrapped once at the end; so partial
results may overflow as they like.

* **`Node.worth?`** is what a node is worth over all integers, and **`Exact.wrapped`** the data
  that come of it.
* **`ends_evaluate_exactly`**: the induction over the typing, with `Machine.GivesExactly` at each
  node. -/

namespace ArrayForks

/-! ### Types of exact results -/

/-- Every monadic operator but counting keeps the kind of numbers. -/
theorem NumericType.isFloating_ofMonadic {op : MonadicOp} (notCount : op ≠ .count)
    (type : NumericType) : (ofMonadic op type).isFloating = type.isFloating := by
  cases op with
  | count => exact absurd rfl notCount
  | _ => rfl

namespace Exact

/-- The number of elements is not taken of an exact worth. -/
theorem ne_count_of_monadic? {op : MonadicOp} {exact result : Exact}
    (isExact : monadic? op exact = some result) : op ≠ .count := by
  rintro rfl
  cases exact <;> cases isExact

/-- The type of a diadic operator is that of its exact result. -/
theorem type_diadic? {op : DiadicOp} {m n result : Exact} (isExact : diadic? op m n = some result) :
    NumericType.ofDiadic op m.type n.type = result.type := by
  cases op with
  | arithmetic op =>
      obtain ⟨f, -, lifted⟩ := Option.bind_eq_some_iff.mp isExact
      cases m with
      | number m => cases n <;> cases lifted <;> rfl
      | row ms =>
          cases n with
          | number n => cases lifted; rfl
          | row ns =>
              rw [lift?] at lifted
              split at lifted
              · cases lifted
                rfl
              · cases lifted
  | concat =>
      cases isExact
      cases m <;> cases n <;> rfl
  | _ => cases isExact

/-- The type of a monadic operator is that of its exact result. -/
theorem type_monadic? {op : MonadicOp} {exact result : Exact}
    (isExact : monadic? op exact = some result) :
    NumericType.ofMonadic op exact.type = result.type := by
  cases op with
  | pointwise op =>
      obtain ⟨f, -, rfl⟩ := Option.map_eq_some_iff.mp isExact
      cases exact <;> cases op <;> rfl
  | fold op =>
      cases exact with
      | number n => cases isExact
      | row ns =>
          obtain ⟨folded, -, rfl⟩ := Option.map_eq_some_iff.mp isExact
          rfl
  | _ => cases exact <;> cases isExact

end Exact

/-! ### Evaluation -/

/-- A copy shows an exact worth after a computation that changed no object. -/
structure Machine.GivesExactly (before : Machine) (exact : Exact) (copy : Copy) (after : Machine) :
    Prop where
  grown : before.heap.Extends after.heap
  shown : exact.ShownBy after.heap (.item copy)

/-- What is shown after the last of several computations is shown after all of them. -/
theorem Machine.GivesExactly.after {first middle last : Machine} {exact : Exact} {copy : Copy}
    (gives : middle.GivesExactly exact copy last) (grown : first.heap.Extends middle.heap) :
    first.GivesExactly exact copy last :=
  ⟨grown.trans gives.grown, gives.shown⟩

/-- No failure at all. -/
def Failure.Never (_ : Failure) : Prop :=
  False

namespace Eval

variable {machine : Machine} {exact : Exact}

/-- A computation that does not fail needs no place. -/
theorem Ends.locate_of_never {computation : Eval Copy} {good : Copy → Machine → Prop}
    (ends : computation.Ends machine good Failure.Never) (node : Unit → String) :
    (Eval.locate node computation).Ends machine good Failure.Never :=
  ends.locate_of_stable node fun _ never => never.elim

/-- A computation that does not fail ends with a good value. -/
theorem Ends.done_of_never {computation : Eval Copy} {good : Copy → Machine → Prop}
    (ends : computation.Ends machine good Failure.Never) :
    ∃ copy final, computation.run machine = .done copy final ∧ good copy final := by
  unfold Eval.Ends at ends
  split at ends
  · next copy final ran => exact ⟨copy, final, ran, ends⟩
  · exact ends.elim
  · exact ends.elim

/-- An operand that shows an exact worth becomes a value that does. -/
theorem ends_settle_exactly {operand : Operand} (shown : exact.ShownBy machine.heap operand) :
    (settle operand).Ends machine (machine.GivesExactly exact) Failure.Never := by
  obtain ⟨content, shown, values⟩ := shown
  refine (ends_settle_shows shown).imp ?_
  rintro copy final ⟨grown, kept, keptShown, same⟩
  exact ⟨grown, kept, keptShown, same.trans values⟩

/-- An operator that gives an operand of an exact worth makes a value of it. -/
theorem ends_operate_exactly {operator : Heap → Except Failure Operand}
    (gives : ∃ given, operator machine.heap = .ok given ∧ exact.ShownBy machine.heap given) :
    (operate operator).Ends machine (machine.GivesExactly exact) Failure.Never := by
  obtain ⟨given, computed, shown⟩ := gives
  refine Ends.bind_look ?_
  rw [computed]
  exact ends_settle_exactly shown

end Eval

namespace Evaluation

variable {annotations : Annotations} {calls : Calls}

/-- An operator that commutes with wrapping is not decided by its left operand. -/
theorem decided?_eq_none {op : DiadicOp} {m n result : Exact}
    (isExact : Exact.diadic? op m n = some result) (leftType rightType : StaticType)
    (left : Value) : decided? op leftType rightType left = none := by
  unfold decided?
  split
  · cases op with
    | connective op => cases isExact
    | _ => rfl
  · rfl

/-- The worth of several expressions is that of the first and those of the rest. -/
theorem worthAll?_cons {item : Node} {items : List Node} {ns : List Int}
    (isExact : Node.worthAll? (item :: items) = some ns) :
    ∃ first rest, item.worth? = some (.number first) ∧ Node.worthAll? items = some rest ∧
      ns = first :: rest := by
  rw [Node.worthAll?] at isExact
  split at isExact
  · next first rest isFirst areRest => exact ⟨first, rest, isFirst, areRest, by cases isExact; rfl⟩
  · cases isExact

/-- Copies of words are an operand that shows a row of them. -/
theorem shownBy_ofList (heap : Heap) {ns : List Int} {copies : List Copy}
    (values : copies.map Copy.value = ns.map fun n => .int (Word.wrap n)) :
    (Exact.row ns).ShownBy heap (.ofList copies) := by
  refine ⟨.ofList copies, .row rfl ?_, ?_⟩
  · intro copy isIn
    have value := List.mem_map_of_mem (f := Copy.value) isIn
    rw [values] at value
    obtain ⟨n, -, isWord⟩ := List.mem_map.mp value
    rw [← isWord]
    rfl
  · rw [Operand.values, Nested.map_ofList, values, Exact.words, Nested.map_ofList, List.map_map]
    rfl

variable [NumericLibrary]

/-- Expressions of single numbers are evaluated one after the other, each to the word of its
worth. -/
theorem ends_evaluateAll_exactly {items : List Node} {ns : List Int}
    (isExact : Node.worthAll? items = some ns)
    (sound : ∀ item ∈ items, ∀ n, item.worth? = some (.number n) → ∀ machine,
      (evaluate annotations calls item).Ends machine (machine.GivesExactly (.number n))
        Failure.Never) (machine : Machine) :
    (evaluateAll annotations calls items).Ends machine
      (fun copies final => machine.heap.Extends final.heap ∧
        copies.map Copy.value = ns.map fun n => .int (Word.wrap n)) Failure.Never := by
  induction items generalizing ns machine with
  | nil =>
      cases isExact
      exact ⟨.refl _, rfl⟩
  | cons item items inductionHypothesis =>
      obtain ⟨first, rest, isFirst, areRest, rfl⟩ := worthAll?_cons isExact
      have others := inductionHypothesis areRest fun other inRest =>
        sound other (List.mem_cons_of_mem _ inRest)
      refine (sound item List.mem_cons_self first isFirst machine).bind fun copy middle gives => ?_
      refine (others middle).bind fun copies final ⟨grown, values⟩ => ⟨gives.grown.trans grown, ?_⟩
      obtain ⟨_, same, isWord⟩ := gives.shown.number
      cases same
      rw [List.map_cons, List.map_cons, isWord, values]

/-- A typed expression of words that has an exact worth has its type, and evaluates to the words of
that worth. -/
theorem ends_evaluate_exactly {node : Node} {type : NumericType} {exact : Exact}
    (typed : Typed annotations false node type) (words : type.isFloating = false)
    (isExact : node.worth? = some exact) :
    type = exact.type ∧ ∀ machine, (evaluate annotations calls node).Ends machine
      (machine.GivesExactly exact) Failure.Never := by
  -- The induction is on the typing. A part of the expression has an exact worth and is one of words
  -- because the whole is, and its type is found from its worth.
  induction typed generalizing exact with
  | int value known =>
      cases isExact
      refine ⟨rfl, fun machine => ?_⟩
      exact Eval.ends_settle_exactly ((Exact.number value).shownBy_ofNumbers machine.heap)
  | float value known => cases words
  | @array id items isFloating floats known typed wide sound =>
      obtain ⟨ns, areExact, rfl⟩ := Option.map_eq_some_iff.mp isExact
      subst words
      have typeKnown := (Typed.array known typed wide).typeOf_eq
      refine ⟨rfl, fun machine => ?_⟩
      refine (ends_typeOf typeKnown ?_).locate_of_never _
      refine (ends_evaluateAll_exactly areExact ?_ machine).bind ?_
      · intro item isIn n isNumber
        have notFloating : floats item = false := by
          cases floating : floats item with
          | false => rfl
          | true => exact absurd (wide item isIn floating) Bool.false_ne_true
        exact (sound item isIn notFloating isNumber).2
      · rintro copies middle ⟨grown, values⟩
        have same : copies.map (widen .int) = copies := List.map_id _
        have shown := shownBy_ofList middle.heap values
        rw [← same] at shown
        exact (Eval.ends_settle_exactly shown).imp fun copy final gives => gives.after grown
  | paren known typed sound =>
      obtain ⟨sameType, ends⟩ := sound words isExact
      exact ⟨sameType, fun machine => (ends machine).locate_of_never _⟩
  | index known stemTyped positionTyped stemSound positionSound => cases isExact
  | @diadic id left right op leftType rightType known leftTyped rightTyped leftSound rightSound =>
      obtain ⟨m, leftExact, isExact⟩ := Option.bind_eq_some_iff.mp isExact
      obtain ⟨n, rightExact, isExact⟩ := Option.bind_eq_some_iff.mp isExact
      obtain ⟨leftWords, rightWords⟩ := Bool.or_eq_false_iff.mp words
      obtain ⟨rfl, leftEnds⟩ := leftSound leftWords leftExact
      obtain ⟨rfl, rightEnds⟩ := rightSound rightWords rightExact
      refine ⟨Exact.type_diadic? isExact, fun machine => Eval.Ends.locate_of_never ?_ _⟩
      refine ends_typeOf leftTyped.typeOf_eq (ends_typeOf rightTyped.typeOf_eq ?_)
      refine (leftEnds machine).bind fun leftCopy middle leftGives => ?_
      rw [decided?_eq_none isExact]
      refine (rightEnds middle).bind fun rightCopy last rightGives => ?_
      -- The left operand still shows its words, since the right one has changed no object.
      have leftShown := leftGives.shown.mono rightGives.grown
      have computed := Operation.diadic_shownBy leftShown rightGives.shown isExact
      exact (Eval.ends_operate_exactly computed).imp
        fun copy final gives => gives.after (leftGives.grown.trans rightGives.grown)
  | @monadic id op operand type known typed sound =>
      obtain ⟨n, operandExact, isExact⟩ := Option.bind_eq_some_iff.mp isExact
      rw [NumericType.isFloating_ofMonadic (Exact.ne_count_of_monadic? isExact)] at words
      obtain ⟨rfl, ends⟩ := sound words operandExact
      refine ⟨Exact.type_monadic? isExact, fun machine => Eval.Ends.locate_of_never ?_ _⟩
      refine (ends machine).bind fun copy middle gives => ?_
      refine ends_typeOf typed.typeOf_eq ?_
      have computed := Operation.monadic_shownBy gives.shown isExact
      exact (Eval.ends_operate_exactly computed).imp fun copy final given => given.after gives.grown
  | monadicFork withForks => cases withForks
  | diadicFork withForks => cases withForks

end Evaluation

/-- **Wrapping at every step is wrapping once at the end.** Let a typed expression of words have
`node.worth? = some exact`, the value that it has over all integers: it is made of words of any
size, arrays of them, sums, differences and products, also element by element, doubles, squares,
rows laid out, and sums, products and alternating sums of rows. Then in every machine it evaluates
to `copy` with `final.heap.unfold copy.value = exact.wrapped`, which is `exact` with each number
wrapped once. -/
theorem evaluate_exact [NumericLibrary] (annotations : Annotations) (calls : Calls) (node : Node)
    (isArray : Bool) (typed : Typed annotations false node ⟨isArray, false⟩) (exact : Exact)
    (isExact : node.worth? = some exact) (machine : Machine) :
    ∃ copy final,
      (Evaluation.evaluate annotations calls node).run machine = .done copy final ∧
        final.heap.unfold copy.value = exact.wrapped := by
  have ends : (Evaluation.evaluate annotations calls node).Ends machine
      (machine.GivesExactly exact) Failure.Never :=
    (Evaluation.ends_evaluate_exactly typed rfl isExact).2 machine
  obtain ⟨copy, final, ran, gives⟩ := ends.done_of_never
  exact ⟨copy, final, ran, gives.shown.unfold_eq⟩

/-- The sum of a row, each of whose numbers is tripled beyond the words, is the least word. -/
theorem evaluate_exact_tripled :
    letI : NumericLibrary := .standard
    let tripled := Node.monadic 6 (.fold .sum)
      (.diadic 5 (.array 3 [.int 1 9223372036854775807, .int 2 18446744073709551617])
        (.arithmetic .multiply) (.int 4 3))
    let annotations := Annotations.empty |>.annotate 1 .int |>.annotate 2 .int
      |>.annotate 3 (.array .int) |>.annotate 4 .int |>.annotate 5 (.array .int)
      |>.annotate 6 .int
    Typed annotations false tripled ⟨false, false⟩ ∧
      tripled.worth? = some (.number 83010348331692982272) ∧
      ∃ copy final,
        (Evaluation.evaluate annotations (Execution.callsTo annotations 1) tripled).run .initial =
          .done copy final ∧
        final.heap.unfold copy.value = .atom (.int (-9223372036854775808)) := by
  let : NumericLibrary := .standard
  intro tripled annotations
  have row : Typed annotations false
      (.array 3 [.int 1 9223372036854775807, .int 2 18446744073709551617]) ⟨true, false⟩ := by
    refine @Typed.array _ _ _ _ _ (fun _ => false) ?_ ?_ ?_
    · simp [annotations, Annotations.types_annotate, NumericType.static, NumericType.component]
    · have first : Typed annotations false (.int 1 9223372036854775807) ⟨false, false⟩ :=
        .int _ (by simp [annotations, Annotations.types_annotate])
      have second : Typed annotations false (.int 2 18446744073709551617) ⟨false, false⟩ :=
        .int _ (by simp [annotations, Annotations.types_annotate])
      simp [first, second]
    · simp
  have three : Typed annotations false (.int 4 3) ⟨false, false⟩ :=
    .int _ (by simp [annotations, Annotations.types_annotate])
  have typed : Typed annotations false tripled ⟨false, false⟩ := by
    refine .monadic ?_ (.diadic ?_ row three)
    · simp [annotations, Annotations.types_annotate]
      rfl
    · simp [annotations, Annotations.types_annotate]
      rfl
  exact ⟨typed, rfl, evaluate_exact annotations _ tripled false typed
    (.number 83010348331692982272) rfl .initial⟩

end ArrayForks
