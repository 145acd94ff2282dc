import ArrayForks.Proofs.OperatorTyping

/-! # Violations by type

A violation is a state that a checked program never reaches, so it should be for the types of the
operands to say whether an operator violates the check. For diadic operators it is: on any operands
of their types, they violate the check always or never. So it is for monadic operators but in one
place. An operator that reads the numbers of an array looks whether there are any before it looks at
their type, and an empty array of texts passes where every other array of texts is refused.

* **`refusesDiadic op leftType rightType`**, **`refusesMonadic op type`** are computed from types
  alone.
* **`violates_diadic_iff`**, **`violates_monadic_iff`**: what they decide. -/

namespace ArrayForks

/-! ### Values of a type -/

/-- The values of each type. Structures, functions and `null` in their place are of all types of
their kind, since no operator looks at the declaration. -/
inductive Heap.HasType (heap : Heap) : Value → StaticType → Prop where
  /-- A word. -/
  | word {n : Int} (inRange : Word.InRange n) : HasType heap (.int n) .int
  /-- A double. -/
  | double (x : Float) : HasType heap (.float x) .float
  /-- A text. -/
  | text (text : String) : HasType heap (.string text) .string
  /-- `null` by itself. -/
  | null : HasType heap .null .null
  /-- What an expression without a value gives. -/
  | nothing : HasType heap .null .void
  /-- An array of values of the component type. -/
  | array {ref : Ref} {items : List Copy} {component : StaticType}
      (found : heap.get? ref = some (.array items))
      (areTyped : ∀ item ∈ items, HasType heap item.value component) :
      HasType heap (.object ref) (.array component)
  /-- A structure. -/
  | struct {ref : Ref} {entries : Bindings Key Copy} (name : String)
      (found : heap.get? ref = some (.record entries)) : HasType heap (.object ref) (.struct name)
  /-- No structure. -/
  | noStruct (name : String) : HasType heap .null (.struct name)
  /-- A declared function. -/
  | function (name : String) (declaration : NodeId) (parameters : List StaticType)
      (result : StaticType) :
      HasType heap (.function name declaration) (.function parameters result)
  /-- A built-in function. -/
  | builtin (name : String) (identity : Nat) (parameters : List StaticType)
      (result : StaticType) : HasType heap (.builtin name identity) (.function parameters result)
  /-- A constructor. -/
  | constructor {ref : Ref} {of : Value} (found : heap.get? ref = some (.constructor of))
      (parameters : List StaticType) (result : StaticType) :
      HasType heap (.object ref) (.function parameters result)
  /-- No function. -/
  | noFunction (parameters : List StaticType) (result : StaticType) :
      HasType heap .null (.function parameters result)
  /-- A declared structure type. -/
  | type (name : String) (declaration : NodeId) (of : StaticType) :
      HasType heap (.type name declaration) (.type of)

/-- The operands of each type: values of it, and arrays that are no objects yet. -/
inductive Operand.HasType (heap : Heap) : Operand → StaticType → Prop where
  /-- A copy of a value. -/
  | item {copy : Copy} {type : StaticType} (typed : heap.HasType copy.value type) :
      HasType heap (.item copy) type
  /-- An array that is no object yet. -/
  | row {parts : List Operand} {component : StaticType}
      (areTyped : ∀ part ∈ parts, HasType heap part component) :
      HasType heap (.row parts) (.array component)

/-- The types that are numeric in shape are the numeric types. -/
theorem StaticType.exists_numericType {type : StaticType} (numeric : type.isNumericShape = true) :
    ∃ numericType : NumericType, numericType.static = type := by
  cases type with
  | int => exact ⟨⟨false, false⟩, rfl⟩
  | float => exact ⟨⟨false, true⟩, rfl⟩
  | array component =>
      cases component with
      | int => exact ⟨⟨true, false⟩, rfl⟩
      | float => exact ⟨⟨true, true⟩, rfl⟩
      | _ => cases numeric
  | _ => cases numeric

/-- The types of numbers are numeric in shape. -/
theorem StaticType.isNumericShape_of_isNumeric (type : StaticType)
    (numeric : type.isNumeric = true) : type.isNumericShape = true := by
  cases type with
  | int => rfl
  | float => rfl
  | _ => cases numeric

/-- A value of a number's type is a number. -/
theorem Heap.HasType.isNumber {heap : Heap} {value : Value} {type : NumericType}
    (typed : heap.HasType value type.component) : value.IsNumber type.isFloating := by
  rw [NumericType.component] at typed
  cases floating : type.isFloating with
  | true =>
      rw [floating, if_pos rfl] at typed
      cases typed
      rfl
  | false =>
      rw [floating, if_neg Bool.false_ne_true] at typed
      cases typed
      rfl

/-- No array is of a number's type. -/
theorem Operand.HasType.exists_item {heap : Heap} {operand : Operand} {type : NumericType}
    (typed : operand.HasType heap type.component) :
    ∃ copy, operand = .item copy ∧ copy.value.IsNumber type.isFloating := by
  generalize isComponent : type.component = component at typed
  cases typed with
  | item typed => exact ⟨_, rfl, Heap.HasType.isNumber (isComponent ▸ typed)⟩
  | row areTyped =>
      rw [NumericType.component] at isComponent
      split at isComponent <;> cases isComponent

/-- Parts of a number's type are copies of numbers. -/
theorem Operand.HasType.exists_items {heap : Heap} {parts : List Operand} {type : NumericType}
    (areTyped : ∀ part ∈ parts, part.HasType heap type.component) :
    ∃ copies : List Copy, parts = copies.map .item ∧
      ∀ copy ∈ copies, copy.value.IsNumber type.isFloating := by
  induction parts with
  | nil => exact ⟨[], rfl, fun copy isIn => absurd isIn List.not_mem_nil⟩
  | cons part parts inductionHypothesis =>
      obtain ⟨copy, rfl, isNumber⟩ := (areTyped part List.mem_cons_self).exists_item
      obtain ⟨copies, rfl, areNumbers⟩ :=
        inductionHypothesis fun other inRest => areTyped other (List.mem_cons_of_mem _ inRest)
      exact ⟨copy :: copies, rfl, List.forall_mem_cons.mpr ⟨isNumber, areNumbers⟩⟩

/-- An operand of a numeric type shows its numbers. -/
theorem Operand.HasType.ofType {heap : Heap} {operand : Operand} {type : NumericType}
    (typed : operand.HasType heap type.static) : Operand.OfType heap type operand := by
  cases array : type.isArray with
  | false =>
      rw [NumericType.static_of_scalar array] at typed
      obtain ⟨copy, rfl, isNumber⟩ := typed.exists_item
      exact ⟨_, .number array isNumber⟩
  | true =>
      rw [NumericType.static_of_array array] at typed
      cases typed with
      | @item copy _ typed =>
          obtain ⟨value, origin⟩ := copy
          cases typed with
          | array found areTyped =>
              exact ⟨_, .array array found fun item isIn => (areTyped item isIn).isNumber⟩
      | row areTyped =>
          obtain ⟨copies, rfl, areNumbers⟩ := exists_items areTyped
          exact ⟨_, .row array areNumbers⟩

/-- An operand of a type has elements where its type says that it is an array. -/
theorem Operand.HasType.exists_elements {heap : Heap} {operand : Operand} {type : StaticType}
    (typed : operand.HasType heap type) : ∃ items, operand.elements heap type = .ok items := by
  rw [elements]
  cases typed with
  | @item copy _ typed =>
      obtain ⟨value, origin⟩ := copy
      cases typed with
      | @array ref items component found areTyped =>
          refine ⟨items.map .item, ?_⟩
          simp only [StaticType.isArray, if_true, items?, Heap.items?, Heap.object?, found,
            Option.map_some]
      | _ => exact ⟨_, rfl⟩
  | row areTyped => exact ⟨_, rfl⟩

/-! ### Violations -/

/-- A computation without state ends in a violation. -/
def Violates {α : Type} (result : Except Failure α) : Prop :=
  ∃ violation, result = .error (.violation violation)

namespace Violates

variable {α β : Type}

/-- A violation that is raised violates the check. -/
theorem raise (violation : Violation) : Violates (violation.raise : Except Failure α) :=
  ⟨violation, rfl⟩

/-- A value does not violate the check. -/
theorem not_ok (value : α) : ¬ Violates (.ok value) := by
  rintro ⟨violation, isViolation⟩
  cases isViolation

/-- A runtime error does not violate the check. -/
theorem not_raise (error : RuntimeError) : ¬ Violates (error.raise : Except Failure α) := by
  rintro ⟨violation, isViolation⟩
  cases isViolation

/-- A step that gives a value leaves it to the next one. -/
theorem bind_ok {result : Except Failure α} {value : α} (ran : result = .ok value)
    {next : α → Except Failure β} : Violates (result >>= next) ↔ Violates (next value) := by
  rw [ran]
  rfl

/-- A violation stays one, whatever was to come. -/
theorem bind {result : Except Failure α} (violates : Violates result)
    (next : α → Except Failure β) : Violates (result >>= next) := by
  obtain ⟨violation, rfl⟩ := violates
  exact ⟨violation, rfl⟩

/-- What is done with a value makes no violation. -/
theorem not_map {result : Except Failure α} (valid : ¬ Violates result) (f : α → β) :
    ¬ Violates (result.map f) := by
  cases result with
  | ok value => exact not_ok (f value)
  | error failure =>
      rintro ⟨violation, isViolation⟩
      exact valid ⟨violation, by simpa [Except.map] using isViolation⟩

end Violates

/-- A failure that is foreseen without forks is no violation. -/
theorem Yields.not_violates {α : Type} {good : α → Prop} {result : Except Failure α}
    (yields : Yields good (Failure.Foreseen false) result) : ¬ Violates result := by
  rintro ⟨violation, isViolation⟩
  cases yields with
  | ok holds => cases isViolation
  | error foreseen =>
      cases foreseen with
      | emptyIntermediate withForks => cases withForks
      | _ => cases isViolation

/-! ### Diadic operators -/

namespace Operation

/-- Whether a diadic operator refuses operands of two types: it has no rule for them, or one that
needs numbers on both sides. -/
def refusesDiadic (op : DiadicOp) (leftType rightType : StaticType) : Bool :=
  match ruleFor op leftType rightType with
  | .none => true
  | .lift => !(leftType.isNumericShape && rightType.isNumericShape)
  | _ => false

/-- No diadic operator refuses numbers. -/
theorem refusesDiadic_static (op : DiadicOp) (leftType rightType : NumericType) :
    refusesDiadic op leftType.static rightType.static = false := by
  rw [refusesDiadic, ruleFor_static, NumericType.isNumericShape_static,
    NumericType.isNumericShape_static]
  split
  · next isNone =>
      split at isNone
      · cases isNone
      · split at isNone <;> cases isNone
  · rfl
  · rfl

/-- Only two numbers are computed with. -/
theorem isNumericShape_of_compute {op : DiadicOp} {leftType rightType : StaticType}
    (rule : ruleFor op leftType rightType = .compute) :
    (leftType.isNumericShape && rightType.isNumericShape) = true := by
  unfold ruleFor at rule
  split at rule
  · cases rule
  · split at rule
    · cases rule
    · split at rule
      · cases rule
      · split at rule
        · next numeric =>
            rw [Bool.and_eq_true] at numeric ⊢
            exact ⟨leftType.isNumericShape_of_isNumeric numeric.1,
              rightType.isNumericShape_of_isNumeric numeric.2⟩
        · split at rule <;> cases rule

/-- Reading numbers from an operand of another type is a violation. -/
theorem violates_numbers (α : Type) [Domain α] (heap : Heap) {type : StaticType}
    (other : type.isNumericShape = false) (operand : Operand) :
    Violates (operand.numbers heap type : Except Failure (Nested α)) := by
  cases type with
  | array component =>
      have notNumeric : component.isNumeric = false := other
      rw [Operand.numbers, notNumeric]
      exact .raise _
  | int => cases other
  | float => cases other
  | _ => exact .raise _

/-- A left operand that is not numeric cannot be brought into one domain with anything. -/
theorem violates_ofOperands_of_left [NumericLibrary] (heap : Heap) {leftType : StaticType}
    (other : leftType.isNumericShape = false) (rightType : StaticType) (left right : Operand) :
    Violates (Coerced.ofOperands heap leftType rightType left right) := by
  rw [Coerced.ofOperands]
  split
  · exact (violates_numbers Float heap other left).bind _
  · exact (violates_numbers Int heap other left).bind _

section

variable [NumericLibrary] {heap : Heap} {leftType rightType : StaticType} {left right : Operand}
  (leftTyped : left.HasType heap leftType) (rightTyped : right.HasType heap rightType)
  (notBoth : (leftType.isNumericShape && rightType.isNumericShape) = false)

include leftTyped notBoth in
/-- Operands that are not both numeric cannot be brought into one domain. -/
theorem violates_ofOperands (right : Operand) :
    Violates (Coerced.ofOperands heap leftType rightType left right) := by
  cases leftNumeric : leftType.isNumericShape with
  | false => exact violates_ofOperands_of_left heap leftNumeric rightType left right
  | true =>
      -- The left operand is read first, and since it shows numbers nothing is wrong with it.
      obtain ⟨leftNumericType, rfl⟩ := StaticType.exists_numericType leftNumeric
      obtain ⟨content, shown⟩ := leftTyped.ofType
      have rightOther : rightType.isNumericShape = false := by
        rw [leftNumeric, Bool.true_and] at notBoth
        exact notBoth
      rw [Coerced.ofOperands]
      split
      · rw [Violates.bind_ok (shown.numbers_eq fun _ => rfl)]
        exact (violates_numbers Float heap rightOther right).bind _
      · next words =>
          have notFloating : leftNumericType.isFloating = true →
              Domain.Reads.floating Int = true := by
            intro floating
            rw [StaticType.floatingWith, NumericType.isFloating_static, floating] at words
            exact absurd rfl words
          rw [Violates.bind_ok (shown.numbers_eq notFloating)]
          exact (violates_numbers Int heap rightOther right).bind _

include leftTyped rightTyped notBoth in
omit [NumericLibrary] in
/-- Laying out violates nothing. -/
theorem not_violates_layOut : ¬ Violates (layOut heap leftType rightType left right) := by
  obtain ⟨leftItems, leftElements⟩ := leftTyped.exists_elements
  obtain ⟨rightItems, rightElements⟩ := rightTyped.exists_elements
  rw [layOut, Violates.bind_ok leftElements, Violates.bind_ok rightElements, notBoth]
  exact Violates.not_ok _

include leftTyped rightTyped in
/-- On operands of its types, a diadic operator violates the check if it refuses the types, and only
then. -/
theorem violates_diadic_iff (op : DiadicOp) :
    Violates (diadic heap op leftType rightType left right) ↔
      refusesDiadic op leftType rightType = true := by
  cases both : leftType.isNumericShape && rightType.isNumericShape with
  | true =>
      rw [Bool.and_eq_true] at both
      obtain ⟨leftNumeric, rfl⟩ := StaticType.exists_numericType both.1
      obtain ⟨rightNumeric, rfl⟩ := StaticType.exists_numericType both.2
      have valid := (yields_diadic op leftTyped.ofType rightTyped.ofType false).not_violates
      exact iff_of_false valid (by simp [refusesDiadic_static])
  | false =>
      rw [diadic, refusesDiadic]
      cases rule : ruleFor op leftType rightType with
      | none => exact iff_of_true (.raise _) rfl
      | lift =>
          have violates := violates_ofOperands leftTyped both right
          exact iff_of_true (violates.bind _) (by simp [both])
      | compute =>
          rw [isNumericShape_of_compute rule] at both
          cases both
      | layOut =>
          exact iff_of_false (not_violates_layOut leftTyped rightTyped both) Bool.false_ne_true
      | join => exact iff_of_false (Violates.not_ok _) Bool.false_ne_true
      | equality => exact iff_of_false (Violates.not_ok _) Bool.false_ne_true
      | inequality => exact iff_of_false (Violates.not_ok _) Bool.false_ne_true

end

/-! ### Monadic operators -/

/-- Whether a monadic operator refuses operands of a type: it needs numbers, and on an array of any
other values nothing but the number of elements and the last one can be asked. -/
def refusesMonadic (op : MonadicOp) : StaticType → Bool
  | .array component => op != .last && op != .count && !component.isNumeric
  | type => !type.isNumeric

/-- No monadic operator refuses numbers. -/
theorem refusesMonadic_static (op : MonadicOp) (type : NumericType) :
    refusesMonadic op type.static = false := by
  rcases type with ⟨_ | _, _ | _⟩ <;> simp [refusesMonadic, NumericType.static,
    NumericType.component, StaticType.isNumeric]

/-- The empty array violates nothing. -/
theorem not_violates_onEmpty (α : Type) [Domain α] (op : MonadicOp) :
    ¬ Violates (onEmpty α op) :=
  (yields_onEmpty op false false).not_violates

/-- Asking for an element violates nothing. -/
theorem not_violates_element (heap : Heap) (operand : Operand) (place : Nat) :
    ¬ Violates (operand.element heap place) := by
  rintro ⟨violation, isViolation⟩
  cases operand with
  | item copy =>
      refine Violates.not_map ?_ Nested.item ⟨violation, isViolation⟩
      rintro ⟨violation, isViolation⟩
      unfold Heap.element at isViolation
      split at isViolation
      · split at isViolation <;> cases isViolation
      · split at isViolation
        · split at isViolation <;> cases isViolation
        · cases isViolation
  | row parts =>
      simp only [Operand.element] at isViolation
      split at isViolation <;> cases isViolation

/-- Elements that are no numbers are refused if there are any. -/
theorem violates_onItems_iff (α : Type) [Domain α] (heap : Heap) (op : MonadicOp)
    {component : StaticType} (other : component.isNumeric = false) (items : List Operand) :
    Violates (onItems α heap op component items) ↔ items ≠ [] := by
  rw [onItems, other]
  cases items with
  | nil =>
      simp only [List.isEmpty_nil, if_true, ne_eq, not_true_eq_false, iff_false]
      exact Violates.not_map (not_violates_onEmpty α op) _
  | cons item items =>
      simp only [List.isEmpty_cons, Bool.false_eq_true, if_false, ne_eq, reduceCtorEq,
        not_false_eq_true, iff_true]
      exact .raise _

/-- On an array whose elements are no numbers, an operator violates the check if it needs numbers
and there are elements. -/
theorem violates_onArray_iff [NumericLibrary] {heap : Heap} {component : StaticType} {operand : Operand}
    (typed : operand.HasType heap (.array component)) (other : component.isNumeric = false)
    (op : MonadicOp) :
    Violates (onArray heap op component operand) ↔
      refusesMonadic op (.array component) = true ∧
        operand.elements heap (.array component) ≠ .ok [] := by
  obtain ⟨items, elements⟩ := typed.exists_elements
  have reads (notLast : op ≠ .last) (notCount : op ≠ .count) :
      Violates (if component = .float then onItems Float heap op component items
        else onItems Int heap op component items) ↔
      refusesMonadic op (.array component) = true ∧ (.ok items : Except Failure _) ≠ .ok [] := by
    have refused : refusesMonadic op (.array component) = true := by
      simp [refusesMonadic, notLast, notCount, other]
    rw [refused]
    split
    · rw [violates_onItems_iff Float heap op other]
      simp
    · rw [violates_onItems_iff Int heap op other]
      simp
  rw [onArray, Violates.bind_ok elements, elements]
  cases op with
  | pointwise op => exact reads (by simp) (by simp)
  | quantifier op => exact reads (by simp) (by simp)
  | fold op => exact reads (by simp) (by simp)
  | count => simp [refusesMonadic, Violates.not_ok]
  | last =>
      simp only [refusesMonadic, bne_self_eq_false, Bool.false_and, Bool.false_eq_true, false_and,
        iff_false]
      split
      · exact Violates.not_raise _
      · exact not_violates_element heap operand _

/-- On an operand of its type, a monadic operator violates the check if it refuses the type and the
operand is no empty array. -/
theorem violates_monadic_iff [NumericLibrary] {heap : Heap} {type : StaticType} {operand : Operand}
    (typed : operand.HasType heap type) (op : MonadicOp) :
    Violates (monadic heap op type operand) ↔
      refusesMonadic op type = true ∧ operand.elements heap type ≠ .ok [] := by
  cases numeric : type.isNumericShape with
  | true =>
      obtain ⟨numericType, rfl⟩ := StaticType.exists_numericType numeric
      have valid := (yields_monadic op typed.ofType false).not_violates
      exact iff_of_false valid (by simp [refusesMonadic_static])
  | false =>
      cases type with
      | array component => exact violates_onArray_iff typed numeric op
      | int => cases numeric
      | float => cases numeric
      | _ => simp [monadic, refusesMonadic, StaticType.isNumeric, Violates.raise,
          Operand.elements, StaticType.isArray]

/-! ### All operators -/

/-- **Violations are decided by types, but for one case.** For operands of their static types,

`Violates (diadic heap op leftType rightType left right) ↔ refusesDiadic op leftType rightType =
true`

and `Violates (monadic heap op type operand)` if and only if `refusesMonadic op type = true` and
`operand.elements heap type ≠ .ok []`: an operator that refuses arrays of some component type lets
the empty array pass. -/
theorem violates_iff_refuses [NumericLibrary] (heap : Heap) :
    (∀ (op : DiadicOp) (leftType rightType : StaticType) (left right : Operand),
      left.HasType heap leftType → right.HasType heap rightType →
        (Violates (diadic heap op leftType rightType left right) ↔
          refusesDiadic op leftType rightType = true)) ∧
    (∀ (op : MonadicOp) (type : StaticType) (operand : Operand), operand.HasType heap type →
      (Violates (monadic heap op type operand) ↔
        refusesMonadic op type = true ∧ operand.elements heap type ≠ .ok [])) :=
  ⟨fun op _ _ _ _ leftTyped rightTyped => violates_diadic_iff leftTyped rightTyped op,
    fun op _ _ typed => violates_monadic_iff typed op⟩

/-- A text as the only element of an array. -/
def oneText : Operand :=
  .row [.item (.new (.string "a"))]

/-- The operand is an array of texts. -/
theorem hasType_oneText : oneText.HasType .empty (.array .string) := by
  refine .row fun part isIn => ?_
  obtain rfl := List.mem_singleton.mp isIn
  exact .item (.text "a")

/-- A word and an array of texts cannot be added, and an array of texts has no sum. -/
theorem violates_iff_refuses_oneText :
    letI : NumericLibrary := .standard
    (Violates (diadic .empty (.arithmetic .add) .int (.array .string) (.item (.new (.int 1)))
        oneText) ↔
      refusesDiadic (.arithmetic .add) .int (.array .string) = true) ∧
    (Violates (monadic .empty (.fold .sum) (.array .string) oneText) ↔
      refusesMonadic (.fold .sum) (.array .string) = true ∧
        oneText.elements .empty (.array .string) ≠ .ok []) :=
  letI : NumericLibrary := .standard
  ⟨(violates_iff_refuses .empty).1 (.arithmetic .add) .int (.array .string) (.item (.new (.int 1)))
      oneText (.item (.word (by decide))) hasType_oneText,
    (violates_iff_refuses .empty).2 (.fold .sum) (.array .string) oneText hasType_oneText⟩

/-- The types do not always decide: the sum of no texts is zero, and the sum of one text is a
violation. -/
theorem sum_of_texts_not_by_type :
    letI : NumericLibrary := .standard
    ¬ ∀ (op : MonadicOp) (type : StaticType),
      (∀ heap operand, operand.HasType heap type → Violates (monadic heap op type operand)) ∨
      ∀ heap operand, operand.HasType heap type → ¬ Violates (monadic heap op type operand) := by
  let : NumericLibrary := .standard
  have noTexts : (Operand.HasType .empty (.row []) (.array .string)) :=
    .row fun part isIn => absurd isIn List.not_mem_nil
  have sumOfNone : monadic .empty (.fold .sum) (.array .string) (.row []) =
      .ok (.item (.new (.int 0))) := rfl
  have sumOfOne : monadic .empty (.fold .sum) (.array .string) oneText =
      (Violation.nonNumericArray (.array .string)).raise := rfl
  intro decided
  rcases decided (.fold .sum) (.array .string) with always | never
  · have violates := always .empty (.row []) noTexts
    rw [sumOfNone] at violates
    exact Violates.not_ok _ violates
  · refine never .empty oneText hasType_oneText ?_
    rw [sumOfOne]
    exact .raise _

end Operation

end ArrayForks
