import ArrayForks.Proofs.OperatorTyping

/-! # The types in forks

The middle operator of a fork is chosen by the types that the two results before it show, and a value
shows its type by its first element alone. As every operator gives numbers of one kind only, that of
its rule, the types so found are the ones that the rules name. The empty array shows no type, and a
fork in which one of the results is empty fails. -/

namespace ArrayForks

/-- Whether an operand is an array without elements. -/
def Operand.isEmptyArray (heap : Heap) (operand : Operand) : Bool :=
  match operand.items? heap with
  | some [] => true
  | _ => false

/-- An operand of a numeric type is an empty array if it shows no number. -/
theorem Operand.Shows.isEmptyArray_eq {heap : Heap} {type : NumericType} {operand : Operand}
    {content : Nested Copy} (shown : Operand.Shows heap type operand content) :
    operand.isEmptyArray heap = content.items.isEmpty := by
  cases shown with
  | @number copy scalar isNumber =>
      obtain ⟨value, origin⟩ := copy
      cases value with
      | int n => rfl
      | float x => rfl
      | _ => cases isNumber
  | @array ref origin items array found areNumbers =>
      have elements : heap.items? (.object ref) = some items := by
        simp [Heap.items?, Heap.object?, found]
      rw [Nested.items_ofList, Operand.isEmptyArray, Operand.items?, elements]
      cases items <;> rfl
  | @row items array areNumbers =>
      rw [Nested.items_ofList]
      cases items <;> rfl

namespace Operation

variable [NumericLibrary]

section

variable {heap : Heap} {leftType rightType : NumericType} {left right : Operand}

/-- The middle operator of a fork finds the types of the outer results, unless one of these is an
array without elements. -/
theorem combine_eq (middle : DiadicOp) (leftShown : Operand.OfType heap leftType left)
    (rightShown : Operand.OfType heap rightType right) :
    combine heap middle left right =
      if left.isEmptyArray heap || right.isEmptyArray heap then
        .error (.violation .emptyIntermediate)
      else diadic heap middle leftType.static rightType.static left right := by
  obtain ⟨leftContent, leftShown⟩ := leftShown
  obtain ⟨rightContent, rightShown⟩ := rightShown
  rw [combine, leftShown.type_eq, rightShown.type_eq, leftShown.isEmptyArray_eq,
    rightShown.isEmptyArray_eq]
  cases leftContent.items.isEmpty with
  | true => rfl
  | false =>
      cases rightContent.items.isEmpty with
      | true => rfl
      | false => rfl

/-- The middle operator of a fork gives an operand of the type of its rule, or fails for a reason
that is foreseen. -/
theorem yields_combine (middle : DiadicOp) (leftShown : Operand.OfType heap leftType left)
    (rightShown : Operand.OfType heap rightType right) :
    Yields (Operand.OfType heap (.ofDiadic middle leftType rightType)) (Failure.Foreseen true)
      (combine heap middle left right) := by
  rw [combine_eq middle leftShown rightShown]
  split
  · exact .error (.emptyIntermediate rfl)
  · exact yields_diadic middle leftShown rightShown true

/-- A monadic fork gives an operand of the type of its rule, or fails for a reason that is
foreseen. -/
theorem yields_monadicFork (fork : MonadicFork) {type : NumericType} {operand : Operand}
    (shown : Operand.OfType heap type operand) :
    Yields (Operand.OfType heap (.ofMonadicFork fork type)) (Failure.Foreseen true)
      (monadicFork heap fork type.static operand) := by
  refine (yields_monadic fork.left shown true).bind fun left leftShown => ?_
  refine (yields_monadic fork.right shown true).bind fun right rightShown => ?_
  exact yields_combine fork.middle leftShown rightShown

/-- A diadic fork gives an operand of the type of its rule, or fails for a reason that is
foreseen. -/
theorem yields_diadicFork (fork : DiadicFork) (leftShown : Operand.OfType heap leftType left)
    (rightShown : Operand.OfType heap rightType right) :
    Yields (Operand.OfType heap (.ofDiadicFork fork leftType rightType)) (Failure.Foreseen true)
      (diadicFork heap fork leftType.static rightType.static left right) := by
  refine (yields_diadic fork.left leftShown rightShown true).bind fun leftResult shownLeft => ?_
  refine (yields_diadic fork.right leftShown rightShown true).bind fun rightResult shownRight => ?_
  exact yields_combine fork.middle shownLeft shownRight

end

/-- **Forks recover the types of their operators.** For operands of `NumericType`s,

`monadicFork heap fork type.static operand`

is `fork.left` and then `fork.right` of the operand, and `diadic heap fork.middle` of both results
at the types `NumericType.ofMonadic fork.left type` and `NumericType.ofMonadic fork.right type`; and
likewise `diadicFork`, with `NumericType.ofDiadic`. The first failure in this order is the failure
of the fork. If both results are there and either `isEmptyArray`, the fork is
`.violation .emptyIntermediate`. -/
theorem forks_recover_types (heap : Heap) :
    (∀ (fork : MonadicFork) (type : NumericType) (operand : Operand),
      Operand.OfType heap type operand →
      monadicFork heap fork type.static operand = (do
        let left ← monadic heap fork.left type.static operand
        let right ← monadic heap fork.right type.static operand
        if left.isEmptyArray heap || right.isEmptyArray heap then
          .error (.violation .emptyIntermediate)
        else
          diadic heap fork.middle (NumericType.ofMonadic fork.left type).static
            (NumericType.ofMonadic fork.right type).static left right)) ∧
    ∀ (fork : DiadicFork) (leftType rightType : NumericType) (left right : Operand),
      Operand.OfType heap leftType left → Operand.OfType heap rightType right →
      diadicFork heap fork leftType.static rightType.static left right = (do
        let leftResult ← diadic heap fork.left leftType.static rightType.static left right
        let rightResult ← diadic heap fork.right leftType.static rightType.static left right
        if leftResult.isEmptyArray heap || rightResult.isEmptyArray heap then
          .error (.violation .emptyIntermediate)
        else
          diadic heap fork.middle (NumericType.ofDiadic fork.left leftType rightType).static
            (NumericType.ofDiadic fork.right leftType rightType).static leftResult rightResult) := by
  constructor
  · intro fork type operand shown
    refine (yields_monadic fork.left shown true).bind_congr fun left leftShown => ?_
    refine (yields_monadic fork.right shown true).bind_congr fun right rightShown => ?_
    exact combine_eq fork.middle leftShown rightShown
  · intro fork leftType rightType left right leftShown rightShown
    refine (yields_diadic fork.left leftShown rightShown true).bind_congr fun _ leftResult => ?_
    refine (yields_diadic fork.right leftShown rightShown true).bind_congr fun _ rightResult => ?_
    exact combine_eq fork.middle leftResult rightResult

omit [NumericLibrary] in
/-- The sum and the number of three words are words, and so is their quotient; what two doubles are
together with a word is laid out as doubles. -/
theorem forks_recover_types_mean :
    letI : NumericLibrary := .standard
    let words : Operand := .ofList [.new (.int 3), .new (.int 4), .new (.int 9)]
    let doubles : Operand := .ofList [.new (.float 0.5), .new (.float 1.5)]
    let two : Operand := .item (.new (.int 2))
    Operand.OfType .empty ⟨true, false⟩ words ∧ Operand.OfType .empty ⟨true, true⟩ doubles ∧
      Operand.OfType .empty ⟨false, false⟩ two ∧
      monadicFork .empty ⟨.fold .sum, .arithmetic .divide, .count⟩ (.array .int) words =
        .ok (.item (.new (.int 5))) ∧
      diadicFork .empty ⟨.arithmetic .add, .concat, .arithmetic .multiply⟩ (.array .float) .int
          doubles two =
        .ok (.ofList [.new (.float 2.5), .new (.float 3.5), .new (.float 1.0),
          .new (.float 3.0)]) := by
  intro words doubles two
  have wordsShown : Operand.OfType .empty ⟨true, false⟩ words :=
    ⟨_, .row rfl (by simp [Value.IsNumber])⟩
  have doublesShown : Operand.OfType .empty ⟨true, true⟩ doubles :=
    ⟨_, .row rfl (by simp [Value.IsNumber])⟩
  have twoShown : Operand.OfType .empty ⟨false, false⟩ two := ⟨_, .number rfl rfl⟩
  have recovered := @forks_recover_types .standard .empty
  have mean := recovered.1 ⟨.fold .sum, .arithmetic .divide, .count⟩ _ _ wordsShown
  have both := recovered.2 ⟨.arithmetic .add, .concat, .arithmetic .multiply⟩ _ _ _ _ doublesShown
    twoShown
  exact ⟨wordsShown, doublesShown, twoShown, mean.trans rfl, both.trans rfl⟩

end Operation

end ArrayForks
