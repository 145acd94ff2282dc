import ArrayForks.Operation.Fork
import ArrayForks.Proofs.Renaming

/-! # Operators on renamed operands

Operators read the objects of a heap and compare copies, but they do nothing else with a place or a
number. On renamed operands in a renamed heap an operator therefore fails as it does on the operands
themselves, or its result is the result on the operands themselves, renamed.

* **`diadic_rename`**, **`monadic_rename`**, **`monadicFork_rename`**, **`diadicFork_rename`**:
  for heaps that are `Heap.Renamed mapping`, an operator of `operand.rename mapping` is
  `(op of operand).map (Operand.rename mapping)`. -/

namespace ArrayForks

variable {mapping : Renaming}

/-! ### Numbers -/

/-- A domain whose numbers are read and shown without regard to places. -/
class Domain.Nameless (α : Type) [Domain α] : Prop where
  ofDatum_rename (mapping : Renaming) (datum : Datum) :
    (ofDatum (datum.rename mapping) : Except Failure (Nested α)) = ofDatum datum
  ofData_rename (mapping : Renaming) (data : List Datum) :
    (ofData (Datum.renameAll mapping data) : Except Failure (Nested α)) = ofData data
  rename_toValue (mapping : Renaming) (number : α) :
    (toValue number).rename mapping = toValue number

/-- Numbers are shown by no object. -/
theorem Domain.Nameless.toValue_ne_object {α : Type} [Domain α] [Domain.Nameless α] (number : α)
    (ref : Ref) : (toValue number) ≠ .object ref := by
  -- Otherwise another place would have to be the same place.
  let next : Renaming := ⟨(· + 1), id, Nat.succ_injective, Function.injective_id⟩
  intro isObject
  have same := rename_toValue next number
  rw [isObject] at same
  exact Nat.succ_ne_self ref (Value.object.inj same)

namespace Word

/-- An object is no word wherever it is, so `Word.ofValue` reads the same. -/
@[simp] theorem ofValue_rename (value : Value) : ofValue (value.rename mapping) = ofValue value := by
  cases value <;> rfl

mutual

/-- `Word.readDatum` reads the same from a renamed datum, by induction on the datum. -/
theorem readDatum_rename : (datum : Datum) → readDatum (datum.rename mapping) = readDatum datum
  | .atom value => by simp only [Datum.rename, readDatum, ofValue_rename]
  | .array items => by simp only [Datum.rename, readDatum, readData_rename items]
  | .record _ => rfl
  | .constructor _ _ => rfl

/-- `Word.readData` reads the same from renamed data, by the same induction. -/
theorem readData_rename :
    (items : List Datum) → readData (Datum.renameAll mapping items) = readData items
  | [] => rfl
  | item :: items => by
      simp only [Datum.renameAll, readData, readDatum_rename item, readData_rename items]

end

/-- `Word.ofDatum` checks and reads the same. -/
theorem ofDatum_rename (datum : Datum) : ofDatum (datum.rename mapping) = ofDatum datum := by
  simp only [ofDatum, Datum.holdsNull_rename, Datum.shape?_rename, readDatum_rename]

variable [NumericLibrary]

instance : Domain.Nameless Int where
  ofDatum_rename _ datum := ofDatum_rename datum
  ofData_rename _ data := ofDatum_rename (.array data)
  rename_toValue _ _ := rfl

end Word

namespace Floating

/-- `Floating.readDatum` reads the same from a renamed datum. -/
theorem readDatum_rename (datum : Datum) : readDatum (datum.rename mapping) = readDatum datum := by
  cases datum with
  | atom value => cases value <;> rfl
  | _ => rfl

variable [NumericLibrary]

instance : Domain.Nameless Float where
  ofDatum_rename mapping datum := by
    change (readDatum (datum.rename mapping)).map _ = (readDatum datum).map _
    rw [readDatum_rename]
  ofData_rename mapping data := by
    change ((Datum.renameAll mapping data).mapM readDatum).map _ = (data.mapM readDatum).map _
    have each : readDatum ∘ Datum.rename mapping = readDatum := funext readDatum_rename
    rw [Datum.renameAll_eq_map, List.mapM_map, each]
  rename_toValue _ _ := rfl

end Floating

/-! ### Operands -/

/-- The text of a renamed copy has the renamed origin. -/
theorem Copy.textOrigin_rename (copy : Copy) :
    (copy.rename mapping).textOrigin = copy.textOrigin.rename mapping := by
  have written (node : NodeId) (name : String) :
      (Copy.written node (.string name)).origin =
        (Copy.written node (.string name)).origin.rename mapping :=
    congrArg Copy.origin (Copy.rename_written node (.string name)).symm
  obtain ⟨value, origin⟩ := copy
  cases value with
  | function name declaration => exact written declaration name
  | type name declaration => exact written declaration name
  | builtin name identity => exact written identity name
  | _ => rfl

namespace Operand

variable {left right : Heap}

/-- An operand with all copies in it renamed. -/
def rename (mapping : Renaming) (operand : Operand) : Operand :=
  Nested.map (Copy.rename mapping) operand

/-- Renaming an operand that is a copy renames the copy. -/
@[simp] theorem rename_item (copy : Copy) :
    rename mapping (.item copy) = .item (copy.rename mapping) :=
  rfl

/-- Renaming a row renames its parts. -/
theorem rename_row (parts : List Operand) :
    rename mapping (.row parts) = .row (parts.map (rename mapping)) := by
  change Nested.row (Nested.mapAll _ parts) = _
  congr 1
  induction parts with
  | nil => rfl
  | cons part parts inductionHypothesis =>
      rw [Nested.mapAll, inductionHypothesis, List.map_cons, rename]

/-- Renaming a row of copies renames the copies. -/
@[simp] theorem rename_ofList (copies : List Copy) :
    rename mapping (.ofList copies) = .ofList (copies.map (Copy.rename mapping)) :=
  Nested.map_ofList _ _

/-- A copy that is not kept yet has no name if its value has none. -/
theorem ok_new_eq {value : Value} (nameless : value.rename mapping = value) :
    (.ok (.item (.new value)) : Except Failure Operand) =
      (Except.ok (.item (.new value))).map (rename mapping) := by
  rw [Except.map, rename_item, Copy.rename_new, nameless]

/-- Numbers have no names. -/
@[simp] theorem rename_ofNumbers {α : Type} [Domain α] [Domain.Nameless α] (numbers : Nested α) :
    rename mapping (ofNumbers numbers) = ofNumbers numbers := by
  rw [rename, ofNumbers, Nested.map_map]
  congr 1
  funext number
  rw [Function.comp_apply, Copy.rename_new, Domain.Nameless.rename_toValue]

mutual

/-- A renamed operand unfolds to the renamed datum. -/
theorem unfold_rename (heaps : Heap.Renamed mapping left right) : (operand : Operand) →
    (operand.rename mapping).unfold right = (operand.unfold left).rename mapping
  | .item copy => heaps.unfold_eq copy.value
  | .row parts => by
      simp only [rename_row, unfold, unfoldAll_rename heaps parts, Datum.rename]

/-- Renamed parts unfold to the renamed data, by the same induction. -/
theorem unfoldAll_rename (heaps : Heap.Renamed mapping left right) : (parts : List Operand) →
    unfoldAll right (parts.map (rename mapping)) = Datum.renameAll mapping (unfoldAll left parts)
  | [] => rfl
  | part :: parts => by
      simp only [List.map_cons, unfoldAll, Datum.renameAll, unfold_rename heaps part,
        unfoldAll_rename heaps parts]

end

section

variable (heaps : Heap.Renamed mapping left right)

include heaps

/-- The elements of a renamed operand are the renamed elements. -/
theorem items?_rename (operand : Operand) :
    (operand.rename mapping).items? right = (operand.items? left).map (List.map (rename mapping)) := by
  cases operand with
  | item copy =>
      simp only [rename_item, items?, Copy.value_rename, heaps.items?_eq, Option.map_map]
      congr 1
      funext items
      simp
  | row parts =>
      rw [rename_row]
      rfl

/-- The element of a renamed operand at a place is the renamed element. -/
theorem element_rename (operand : Operand) (place : Nat) :
    (operand.rename mapping).element right place =
      (operand.element left place).map (rename mapping) := by
  cases operand with
  | item copy =>
      simp only [rename_item, element, Copy.value_rename, heaps.element_eq]
      cases left.element copy.value (.word place) <;> rfl
  | row parts =>
      simp only [rename_row, element, List.getElem?_map]
      cases parts[place]? <;> rfl

/-- The text of an operand does not depend on names. -/
theorem text_rename (operand : Operand) :
    (operand.rename mapping).text right = operand.text left := by
  rw [text, text, unfold_rename heaps, Datum.text_rename]

/-- The text that an operand shows does not depend on names, and its origin is renamed. -/
theorem shown_rename (operand : Operand) :
    (operand.rename mapping).shown right = (operand.shown left).rename mapping := by
  cases operand with
  | item copy =>
      simp only [rename_item, shown, Copy.shown, Copy.value_rename, heaps.unfold_eq,
        Datum.text_rename, Copy.textOrigin_rename]
      rfl
  | row parts =>
      have same := text_rename heaps (.row parts)
      rw [rename_row] at same ⊢
      simp only [shown, same, Copy.rename_new, Value.rename_string]

/-- The type that an operand shows does not depend on names. -/
theorem type_rename (operand : Operand) :
    (operand.rename mapping).type right = operand.type left := by
  rw [type, type, unfold_rename heaps, Datum.type_rename]

/-- Renaming does not change which operands are equal. -/
theorem equal_rename (first second : Operand) :
    (first.rename mapping).equal right (second.rename mapping) = first.equal left second := by
  cases first with
  | item first =>
      cases second with
      | item second => exact heaps.equal_eq first.value second.value
      | row parts => rfl
  | row parts => cases second <;> rfl

/-- `Operand.elements` gives the renamed elements. -/
theorem elements_rename (type : StaticType) (operand : Operand) :
    (operand.rename mapping).elements right type =
      (operand.elements left type).map (List.map (rename mapping)) := by
  unfold elements
  split
  · rw [items?_rename heaps]
    cases operand.items? left <;> rfl
  · rfl

/-- Renamed operands unfold to the renamed data. -/
theorem map_unfold_rename (items : List Operand) :
    (items.map (rename mapping)).map (unfold right) =
      Datum.renameAll mapping (items.map (unfold left)) := by
  rw [Datum.renameAll_eq_map, List.map_map, List.map_map]
  exact List.map_congr_left fun item _ => unfold_rename heaps item

/-- Renamed operands hold the same numbers. -/
theorem numbers_rename {α : Type} [Domain α] [Domain.Nameless α] (type : StaticType)
    (operand : Operand) :
    ((operand.rename mapping).numbers right type : Except Failure (Nested α)) =
      operand.numbers left type := by
  have ofOne : (Domain.ofDatum ((operand.rename mapping).unfold right) :
      Except Failure (Nested α)) = Domain.ofDatum (operand.unfold left) := by
    rw [unfold_rename heaps, Domain.Nameless.ofDatum_rename]
  cases type with
  | array component =>
      simp only [numbers, elements_rename heaps]
      split
      · cases operand.elements left (.array component) with
        | error failure => rfl
        | ok items =>
            change Domain.ofData ((items.map (rename mapping)).map (unfold right)) =
              Domain.ofData (items.map (unfold left))
            rw [map_unfold_rename heaps, Domain.Nameless.ofData_rename]
      · rfl
  | _ => simp only [numbers, ofOne]

/-- `Operand.asDouble` gives the renamed copy: a double stays the copy that it was. -/
theorem asDouble_rename (operand : Operand) :
    (operand.rename mapping).asDouble right = (operand.asDouble left).map (Copy.rename mapping) := by
  have read : (Floating.readDatum ((operand.rename mapping).unfold right)).map
        (fun x => Copy.new (.float x)) =
      ((Floating.readDatum (operand.unfold left)).map fun x => Copy.new (.float x)).map
        (Copy.rename mapping) := by
    rw [unfold_rename heaps, Floating.readDatum_rename]
    cases Floating.readDatum (operand.unfold left) with
    | error failure => rfl
    | ok x => exact congrArg Except.ok (Copy.rename_new (.float x)).symm
  cases operand with
  | row parts =>
      rw [rename_row] at read ⊢
      exact read
  | item copy =>
      obtain ⟨value, origin⟩ := copy
      cases value with
      | float x => rfl
      | _ => exact read

end

/-- Renaming does not change which operands are one copy. -/
theorem same_rename (first second : Operand) :
    (first.rename mapping).same (second.rename mapping) = first.same second := by
  cases first with
  | item first =>
      cases second with
      | item second => exact Copy.same_rename first second
      | row parts => rfl
  | row parts => cases second <;> rfl

end Operand

/-! ### Results -/

/-- What follows a result may be renamed if the result may be. -/
theorem bind_eq_map_bind {α β α' β' : Type} {result : Except Failure α} {result' : Except Failure α'}
    {next : α → Except Failure β} {next' : α' → Except Failure β'} {renameFirst : α → α'}
    {renameLast : β → β'} (first : result' = result.map renameFirst)
    (rest : ∀ value, next' (renameFirst value) = (next value).map renameLast) :
    result' >>= next' = (result >>= next).map renameLast := by
  rw [first]
  cases result with
  | error failure => rfl
  | ok value => exact rest value

/-- What follows a result without names may be renamed. -/
theorem bind_eq_map_bind_of_eq {α β β' : Type} {result result' : Except Failure α}
    {next : α → Except Failure β} {next' : α → Except Failure β'} {rename : β → β'}
    (same : result' = result) (rest : ∀ value, next' value = (next value).map rename) :
    result' >>= next' = (result >>= next).map rename := by
  rw [same]
  cases result with
  | error failure => rfl
  | ok value => exact rest value

/-- Several steps may be renamed if each of them may be. -/
theorem mapM_map_eq_map {α β α' β' : Type} {step : α → Except Failure β}
    {step' : α' → Except Failure β'} {renameFirst : α → α'} {renameLast : β → β'}
    (each : ∀ value, step' (renameFirst value) = (step value).map renameLast) (values : List α) :
    (values.map renameFirst).mapM step' = (values.mapM step).map (List.map renameLast) := by
  induction values with
  | nil => rfl
  | cons value values inductionHypothesis =>
      rw [List.map_cons, List.mapM_cons, List.mapM_cons]
      exact bind_eq_map_bind (each value) fun first =>
        bind_eq_map_bind inductionHypothesis fun rest => rfl

/-! ### Diadic operators -/

namespace Coerced

variable [NumericLibrary]

/-- Renamed operands are coerced to the same numbers. -/
theorem ofOperands_rename {left right : Heap} (heaps : Heap.Renamed mapping left right)
    (leftType rightType : StaticType) (first second : Operand) :
    ofOperands right leftType rightType (first.rename mapping) (second.rename mapping) =
      ofOperands left leftType rightType first second := by
  simp only [ofOperands, Operand.numbers_rename heaps]

/-- The result of a numeric operator has no names. -/
theorem map_rename_apply (op : DiadicOp) (pair : Coerced) :
    (pair.apply op).map (Operand.rename mapping) = pair.apply op := by
  have nameless {α : Type} [Domain α] [Domain.Nameless α] (numbers : Except Failure (Nested α)) :
      (numbers.map Operand.ofNumbers).map (Operand.rename mapping) =
        numbers.map Operand.ofNumbers := by
    cases numbers with
    | error failure => rfl
    | ok numbers => exact congrArg Except.ok (Operand.rename_ofNumbers numbers)
  cases pair with
  | words left right => exact nameless _
  | doubles left right => exact nameless _

end Coerced

namespace Operation

variable {left right : Heap} (heaps : Heap.Renamed mapping left right)

include heaps

/-- Renamed operands are joined to the same text. -/
theorem join_rename (first second : Operand) :
    join right (first.rename mapping) (second.rename mapping) =
      (join left first second).rename mapping := by
  simp only [join, Operand.text_rename heaps, Operand.shown_rename heaps]
  split
  · rfl
  · split
    · rfl
    · rw [Copy.rename_new, Value.rename_string]

/-- Renamed operands are laid out as renamed elements. -/
theorem layOut_rename (leftType rightType : StaticType) (first second : Operand) :
    layOut right leftType rightType (first.rename mapping) (second.rename mapping) =
      (layOut left leftType rightType first second).map (Operand.rename mapping) := by
  refine bind_eq_map_bind (Operand.elements_rename heaps leftType first) fun leftItems => ?_
  refine bind_eq_map_bind (Operand.elements_rename heaps rightType second) fun rightItems => ?_
  dsimp only
  rw [← List.map_append]
  split
  · refine bind_eq_map_bind (mapM_map_eq_map (Operand.asDouble_rename heaps) _) fun doubles => ?_
    exact congrArg Except.ok (Operand.rename_ofList doubles).symm
  · exact congrArg Except.ok (Operand.rename_row _).symm

/-- `Operation.lift` gives the same numbers for renamed operands, or fails alike. -/
theorem lift_rename [NumericLibrary] (op : DiadicOp) (leftType rightType : StaticType)
    (first second : Operand) :
    lift right op leftType rightType (first.rename mapping) (second.rename mapping) =
      (lift left op leftType rightType first second).map (Operand.rename mapping) := by
  have numbers := Coerced.ofOperands_rename heaps leftType rightType first second
  refine bind_eq_map_bind_of_eq numbers fun pair => ?_
  dsimp only
  split
  · rfl
  · exact (Coerced.map_rename_apply op pair).symm

/-- `Operation.areEqual` gives the same for renamed operands. -/
theorem areEqual_rename (leftType : StaticType) (first second : Operand) :
    areEqual right leftType (first.rename mapping) (second.rename mapping) =
      areEqual left leftType first second := by
  rw [areEqual, areEqual, Operand.equal_rename heaps, Operand.same_rename]

/-- A diadic operator on renamed operands. -/
theorem diadic_rename [NumericLibrary] (op : DiadicOp) (leftType rightType : StaticType)
    (first second : Operand) :
    diadic right op leftType rightType (first.rename mapping) (second.rename mapping) =
      (diadic left op leftType rightType first second).map (Operand.rename mapping) := by
  unfold diadic
  split
  · exact congrArg (fun copy => Except.ok (Nested.item copy)) (join_rename heaps first second)
  · exact layOut_rename heaps leftType rightType first second
  · exact lift_rename heaps op leftType rightType first second
  · have numbers := Coerced.ofOperands_rename heaps leftType rightType first second
    exact bind_eq_map_bind_of_eq numbers fun pair => (Coerced.map_rename_apply op pair).symm
  · rw [areEqual_rename heaps]
    exact Operand.ok_new_eq rfl
  · rw [areEqual_rename heaps]
    exact Operand.ok_new_eq rfl
  · rfl

/-! ### Monadic operators -/

/-- `Operation.onNumber` gives the same numbers for a renamed operand. -/
theorem onNumber_rename (α : Type) [Domain α] [Domain.Nameless α] (op : MonadicOp)
    (operand : Operand) :
    onNumber α right op (operand.rename mapping) =
      (onNumber α left op operand).map (Operand.rename mapping) := by
  unfold onNumber
  rw [Operand.unfold_rename heaps, Domain.Nameless.ofDatum_rename]
  refine bind_eq_map_bind_of_eq rfl fun numbers => bind_eq_map_bind_of_eq rfl fun result => ?_
  exact congrArg Except.ok (Operand.rename_ofNumbers result).symm

/-- `Operation.onItems` gives the same numbers for renamed elements. -/
theorem onItems_rename (α : Type) [Domain α] [Domain.Nameless α] (op : MonadicOp)
    (component : StaticType) (items : List Operand) :
    onItems α right op component (items.map (Operand.rename mapping)) =
      (onItems α left op component items).map (Operand.rename mapping) := by
  unfold onItems
  rw [List.isEmpty_map, Operand.map_unfold_rename heaps, Domain.Nameless.ofData_rename]
  split
  · cases onEmpty α op with
    | error failure => rfl
    | ok result => exact congrArg Except.ok (Operand.rename_ofNumbers result).symm
  · split
    · refine bind_eq_map_bind_of_eq rfl fun numbers => bind_eq_map_bind_of_eq rfl fun result => ?_
      exact congrArg Except.ok (Operand.rename_ofNumbers result).symm
    · rfl

variable [NumericLibrary]

/-- `Operation.onScalar` on a renamed operand: the folds give the renamed operand back. -/
theorem onScalar_rename (op : MonadicOp) (type : StaticType) (operand : Operand) :
    onScalar right op type (operand.rename mapping) =
      (onScalar left op type operand).map (Operand.rename mapping) := by
  unfold onScalar
  split
  · refine bind_eq_map_bind (Operand.asDouble_rename heaps operand) fun double => ?_
    cases op with
    | fold op => rfl
    | last => rfl
    | count => rfl
    | pointwise op => exact onNumber_rename heaps Float _ (.item double)
    | quantifier op => exact onNumber_rename heaps Float _ (.item double)
  · cases op with
    | fold op => rfl
    | last => rfl
    | count => exact Operand.ok_new_eq rfl
    | pointwise op => exact onNumber_rename heaps Int _ operand
    | quantifier op => exact onNumber_rename heaps Int _ operand

/-- `Operation.onArray` on a renamed operand: the last element is renamed with it. -/
theorem onArray_rename (op : MonadicOp) (component : StaticType) (operand : Operand) :
    onArray right op component (operand.rename mapping) =
      (onArray left op component operand).map (Operand.rename mapping) := by
  refine bind_eq_map_bind (Operand.elements_rename heaps _ operand) fun items => ?_
  have ofItems : (if component = .float then
        onItems Float right op component (items.map (Operand.rename mapping))
      else onItems Int right op component (items.map (Operand.rename mapping))) =
      (if component = .float then onItems Float left op component items
      else onItems Int left op component items).map (Operand.rename mapping) := by
    split
    · exact onItems_rename heaps Float op component items
    · exact onItems_rename heaps Int op component items
  cases op with
  | count =>
      simp only [List.length_map]
      exact Operand.ok_new_eq rfl
  | last =>
      simp only [List.isEmpty_map, List.length_map]
      split
      · rfl
      · exact Operand.element_rename heaps operand _
  | fold op => exact ofItems
  | pointwise op => exact ofItems
  | quantifier op => exact ofItems

/-- A monadic operator on a renamed operand. -/
theorem monadic_rename (op : MonadicOp) (type : StaticType) (operand : Operand) :
    monadic right op type (operand.rename mapping) =
      (monadic left op type operand).map (Operand.rename mapping) := by
  unfold monadic
  split
  · next component => exact onArray_rename heaps op component operand
  · split
    · exact onScalar_rename heaps op type operand
    · rfl

/-! ### Forks -/

/-- The middle operator of a fork finds the same types and is applied to the renamed results. -/
theorem combine_rename (middle : DiadicOp) (first second : Operand) :
    combine right middle (first.rename mapping) (second.rename mapping) =
      (combine left middle first second).map (Operand.rename mapping) := by
  unfold combine
  refine bind_eq_map_bind_of_eq (Operand.type_rename heaps first) fun leftType => ?_
  refine bind_eq_map_bind_of_eq (Operand.type_rename heaps second) fun rightType => ?_
  exact diadic_rename heaps middle leftType rightType first second

/-- A monadic fork of a renamed operand. -/
theorem monadicFork_rename (fork : MonadicFork) (type : StaticType) (operand : Operand) :
    monadicFork right fork type (operand.rename mapping) =
      (monadicFork left fork type operand).map (Operand.rename mapping) :=
  bind_eq_map_bind (monadic_rename heaps fork.left type operand) fun first =>
    bind_eq_map_bind (monadic_rename heaps fork.right type operand) fun second =>
      combine_rename heaps fork.middle first second

/-- A diadic fork of renamed operands. -/
theorem diadicFork_rename (fork : DiadicFork) (leftType rightType : StaticType)
    (first second : Operand) :
    diadicFork right fork leftType rightType (first.rename mapping) (second.rename mapping) =
      (diadicFork left fork leftType rightType first second).map (Operand.rename mapping) :=
  bind_eq_map_bind (diadic_rename heaps fork.left leftType rightType first second) fun leftResult =>
    bind_eq_map_bind (diadic_rename heaps fork.right leftType rightType first second)
      fun rightResult => combine_rename heaps fork.middle leftResult rightResult

end Operation

end ArrayForks
