import ArrayForks.Evaluation

/-! # Numeric types

The types `Int`, `Float`, `Int[]` and `Float[]`, the rules by which operators give one of them for
others, and the values that conform to them. An operand of a numeric type shows its numbers, a
single one or a row of them, and these are what the operators read, in whichever domain they are
wide enough for. -/

namespace ArrayForks

/-! ### Types and rules -/

/-- One of the types `Int`, `Float`, `Int[]` and `Float[]`. -/
structure NumericType where
  /-- Whether it is a type of arrays. -/
  isArray : Bool
  /-- Whether its numbers are doubles. -/
  isFloating : Bool
  deriving DecidableEq, Repr

namespace NumericType

/-- The type of the numbers themselves. -/
def component (type : NumericType) : StaticType :=
  if type.isFloating then .float else .int

/-- A numeric type among all types. -/
def static (type : NumericType) : StaticType :=
  if type.isArray then .array type.component else type.component

/-- The type of a diadic operator's result. Laying out gives an array, and any other operator does if
it is given one; the numbers are doubles if they are on either side. -/
def ofDiadic (op : DiadicOp) (left right : NumericType) : NumericType where
  isArray := op = .concat || left.isArray || right.isArray
  isFloating := left.isFloating || right.isFloating

/-- The type of a monadic operator's result. A single number gives one of its own type. An array
gives an array under the operators that work on each element, a word for the number of its elements,
and a number of its own type otherwise. -/
def ofMonadic (op : MonadicOp) (type : NumericType) : NumericType :=
  match op with
  | .pointwise _ => type
  | .count => ⟨false, !type.isArray && type.isFloating⟩
  | .fold _ | .quantifier _ | .last => ⟨false, type.isFloating⟩

/-- The type of a monadic fork's result. -/
def ofMonadicFork (fork : MonadicFork) (type : NumericType) : NumericType :=
  ofDiadic fork.middle (ofMonadic fork.left type) (ofMonadic fork.right type)

/-- The type of a diadic fork's result. -/
def ofDiadicFork (fork : DiadicFork) (left right : NumericType) : NumericType :=
  ofDiadic fork.middle (ofDiadic fork.left left right) (ofDiadic fork.right left right)

/-- `type.static.isArray = type.isArray`. -/
@[simp] theorem isArray_static (type : NumericType) : type.static.isArray = type.isArray := by
  rcases type with ⟨_ | _, _ | _⟩ <;> rfl

/-- `type.static.isFloating = type.isFloating`. -/
@[simp] theorem isFloating_static (type : NumericType) :
    type.static.isFloating = type.isFloating := by
  rcases type with ⟨_ | _, _ | _⟩ <;> rfl

/-- `type.static` is a number or an array of numbers. -/
@[simp] theorem isNumericShape_static (type : NumericType) :
    type.static.isNumericShape = true := by
  rcases type with ⟨_ | _, _ | _⟩ <;> rfl

/-- `type.component` is `.int` or `.float`. -/
@[simp] theorem isNumeric_component (type : NumericType) : type.component.isNumeric = true := by
  rcases type with ⟨_ | _, _ | _⟩ <;> rfl

/-- The static types are floating together if either type is. -/
@[simp] theorem floatingWith_static (left right : NumericType) :
    left.static.floatingWith right.static = (left.isFloating || right.isFloating) := by
  rw [StaticType.floatingWith, isFloating_static, isFloating_static]

/-- The static type of a single number is its component type. -/
theorem static_of_scalar {type : NumericType} (scalar : type.isArray = false) :
    type.static = type.component := by
  rw [static, scalar]
  rfl

/-- The static type of an array is that of arrays of its component type. -/
theorem static_of_array {type : NumericType} (array : type.isArray = true) :
    type.static = .array type.component := by
  rw [static, array]
  rfl

/-- No numeric type is that of texts. -/
theorem static_ne_string (type : NumericType) : type.static ≠ .string := by
  rcases type with ⟨_ | _, _ | _⟩ <;> simp [static, component]

end NumericType

/-! ### Numbers -/

/-- Whether a value is a double, or else a word. -/
def Value.IsNumber (floating : Bool) : Value → Prop
  | .int _ => floating = false
  | .float _ => floating = true
  | _ => False

/-- Whether a value is a number that can be read as a double, or else as a word. -/
def Value.FitsInto (floating : Bool) (value : Value) : Prop :=
  ∃ own, value.IsNumber own ∧ (own = true → floating = true)

/-- A number fits into its own domain, and a word into that of doubles as well. -/
theorem Value.IsNumber.fitsInto {value : Value} {own floating : Bool}
    (isNumber : value.IsNumber own) (wide : own = true → floating = true) :
    value.FitsInto floating :=
  ⟨own, isNumber, wide⟩

/-- Words fit into the words. -/
theorem Value.FitsInto.word {value : Value} (fits : value.FitsInto false) :
    ∃ n, value = .int n := by
  obtain ⟨own, isNumber, wide⟩ := fits
  cases value with
  | int n => exact ⟨n, rfl⟩
  | float x => exact absurd (wide isNumber) Bool.false_ne_true
  | _ => cases isNumber

/-- Words and doubles fit into the doubles. -/
theorem Value.FitsInto.wordOrDouble {value : Value} {floating : Bool}
    (fits : value.FitsInto floating) : (∃ n, value = .int n) ∨ ∃ x, value = .float x := by
  obtain ⟨own, isNumber, -⟩ := fits
  cases value with
  | int n => exact .inl ⟨n, rfl⟩
  | float x => exact .inr ⟨x, rfl⟩
  | _ => cases isNumber

/-- A number refers to nothing. -/
theorem Heap.unfoldTo_number (heap : Heap) {value : Value} {floating : Bool}
    (fits : value.FitsInto floating) (depth : Nat) (around : List Ref) :
    heap.unfoldTo depth around value = .atom value := by
  rcases fits.wordOrDouble with ⟨n, rfl⟩ | ⟨x, rfl⟩ <;> cases depth <;> rfl

/-- A number by itself is all that it refers to. -/
theorem Heap.unfold_number (heap : Heap) {value : Value} {floating : Bool}
    (fits : value.FitsInto floating) : heap.unfold value = .atom value :=
  heap.unfoldTo_number fits _ _

/-- An array of numbers refers to nothing beyond them. -/
theorem Heap.unfold_array {heap : Heap} {ref : Ref} {items : List Copy} {floating : Bool}
    (found : heap.get? ref = some (.array items))
    (fit : ∀ item ∈ items, item.value.FitsInto floating) :
    heap.unfold (.object ref) = .array ((items.map Copy.value).map .atom) := by
  simp only [unfold, unfoldTo, List.not_mem_nil, if_false, found, List.map_map]
  congr 1
  refine List.map_congr_left fun item isIn => ?_
  exact heap.unfoldTo_number (fit item isIn) _ _

/-- Parts are unfolded one by one. -/
theorem Operand.unfoldAll_eq_map (heap : Heap) (parts : List Operand) :
    unfoldAll heap parts = parts.map (unfold heap) := by
  induction parts with
  | nil => rfl
  | cons part parts inductionHypothesis => rw [unfoldAll, inductionHypothesis, List.map_cons]

namespace Domain

/-- A domain that reads each number that fits into it as one of its own. -/
class Reads (α : Type) [Domain α] where
  /-- Whether the domain is that of doubles. -/
  floating : Bool
  /-- The number that a value is read as. -/
  number : Value → α
  /-- A number is read by itself. -/
  ofDatum_atom {value : Value} (fits : value.FitsInto floating) :
    Domain.ofDatum (.atom value) = .ok (.item (number value))
  /-- The numbers of an array are read one by one. -/
  ofData_atoms {values : List Value} (fit : ∀ value ∈ values, value.FitsInto floating) :
    Domain.ofData (values.map .atom) = .ok (.ofList (values.map number))
  /-- A number of the domain is one as a value. -/
  isNumber_toValue (n : α) : (Domain.toValue n).IsNumber floating

end Domain

namespace Word

/-- The word that a value is. -/
def number : Value → Int
  | .int n => n
  | _ => 0

section

variable {values : List Value} (fit : ∀ value ∈ values, value.FitsInto false)

include fit

/-- Words beside each other are of one shape. -/
theorem haveShape_words : Datum.haveShape [] (values.map .atom) = true := by
  induction values with
  | nil => rfl
  | cons value values inductionHypothesis =>
      have rest := inductionHypothesis fun other inRest => fit other (List.mem_cons_of_mem _ inRest)
      rw [List.map_cons, Datum.haveShape, rest]
      rfl

/-- None of several words is `null`. -/
theorem anyHoldsNull_words : Datum.anyHoldsNull (values.map .atom) = false := by
  induction values with
  | nil => rfl
  | cons value values inductionHypothesis =>
      have rest := inductionHypothesis fun other inRest => fit other (List.mem_cons_of_mem _ inRest)
      obtain ⟨n, rfl⟩ := (fit value List.mem_cons_self).word
      rw [List.map_cons, Datum.anyHoldsNull, rest]
      rfl

/-- Words are read one by one. -/
theorem readData_words :
    readData (values.map .atom) = .ok (values.map fun value => .item (number value)) := by
  induction values with
  | nil => rfl
  | cons value values inductionHypothesis =>
      have rest := inductionHypothesis fun other inRest => fit other (List.mem_cons_of_mem _ inRest)
      obtain ⟨n, rfl⟩ := (fit value List.mem_cons_self).word
      rw [List.map_cons, readData, rest]
      rfl

/-- The words of an array are read one by one. -/
theorem ofDatum_words :
    ofDatum (.array (values.map .atom)) = .ok (.ofList (values.map number)) := by
  have noNull : (Datum.array (values.map .atom)).holdsNull = false := anyHoldsNull_words fit
  -- The first word has the shape of a single number, and all others are compared with it.
  have oneShape : (Datum.array (values.map .atom)).shape?.isNone = false := by
    cases values with
    | nil => rfl
    | cons value values =>
        have rest := haveShape_words fun other inRest => fit other (List.mem_cons_of_mem _ inRest)
        simp [Datum.shape?, rest]
  rw [ofDatum, noNull, oneShape, readDatum, readData_words fit, Nested.ofList, List.map_map]
  rfl

end

end Word

instance [NumericLibrary] : Domain.Reads Int where
  floating := false
  number := Word.number
  ofDatum_atom fits := by
    obtain ⟨n, rfl⟩ := fits.word
    rfl
  ofData_atoms fit := Word.ofDatum_words fit
  isNumber_toValue _ := rfl

namespace Floating

/-- The double that a number is read as. -/
def number : Value → Float
  | .int n => Float.ofInt n
  | .float x => x
  | _ => 0.0

/-- A number is read as a double. -/
theorem readDatum_number {value : Value} (fits : value.FitsInto true) :
    readDatum (.atom value) = .ok (number value) := by
  rcases fits.wordOrDouble with ⟨n, rfl⟩ | ⟨x, rfl⟩
  · rfl
  · rfl

/-- Numbers are read as doubles one by one. -/
theorem mapM_readDatum_numbers {values : List Value}
    (fit : ∀ value ∈ values, value.FitsInto true) :
    (values.map Datum.atom).mapM readDatum = .ok (values.map number) := by
  induction values with
  | nil => rfl
  | cons value values inductionHypothesis =>
      have rest := inductionHypothesis fun other inRest => fit other (List.mem_cons_of_mem _ inRest)
      rw [List.map_cons, List.mapM_cons, readDatum_number (fit value List.mem_cons_self), rest]
      rfl

end Floating

instance [NumericLibrary] : Domain.Reads Float where
  floating := true
  number := Floating.number
  ofDatum_atom fits := by
    change (Floating.readDatum _).map Nested.item = _
    rw [Floating.readDatum_number fits]
    rfl
  ofData_atoms {values} fit := by
    change ((values.map Datum.atom).mapM Floating.readDatum).map Nested.ofList = _
    rw [Floating.mapM_readDatum_numbers fit]
    rfl
  isNumber_toValue _ := rfl

/-! ### Conforming values and operands -/

/-- All objects are still there, and are what they were. -/
def Heap.Extends (before after : Heap) : Prop :=
  ∀ ref object, before.get? ref = some object → after.get? ref = some object

/-- The values of a numeric type: numbers, or arrays of numbers. -/
inductive Heap.Conforms (heap : Heap) (type : NumericType) : Value → Prop where
  /-- A number. -/
  | number {value : Value} (scalar : type.isArray = false)
      (isNumber : value.IsNumber type.isFloating) : Conforms heap type value
  /-- An array of numbers. -/
  | array {ref : Ref} {items : List Copy} (array : type.isArray = true)
      (found : heap.get? ref = some (.array items))
      (areNumbers : ∀ item ∈ items, item.value.IsNumber type.isFloating) :
      Conforms heap type (.object ref)

/-- The operands of a numeric type, with the copies that they show. -/
inductive Operand.Shows (heap : Heap) (type : NumericType) : Operand → Nested Copy → Prop where
  /-- A number. -/
  | number {copy : Copy} (scalar : type.isArray = false)
      (isNumber : copy.value.IsNumber type.isFloating) : Shows heap type (.item copy) (.item copy)
  /-- An array in the heap. -/
  | array {ref : Ref} {origin : Origin} {items : List Copy} (array : type.isArray = true)
      (found : heap.get? ref = some (.array items))
      (areNumbers : ∀ item ∈ items, item.value.IsNumber type.isFloating) :
      Shows heap type (.item ⟨.object ref, origin⟩) (.ofList items)
  /-- An array that is no object yet. -/
  | row {items : List Copy} (array : type.isArray = true)
      (areNumbers : ∀ item ∈ items, item.value.IsNumber type.isFloating) :
      Shows heap type (.ofList items) (.ofList items)

/-- The values of an operand. -/
def Operand.values : Operand → Nested Value :=
  Nested.map Copy.value

namespace Heap

/-- A heap extends itself. -/
theorem Extends.refl (heap : Heap) : heap.Extends heap :=
  fun _ _ found => found

/-- An extension of an extension is one. -/
theorem Extends.trans {first middle last : Heap} (start : first.Extends middle)
    (rest : middle.Extends last) : first.Extends last :=
  fun ref object found => rest ref object (start ref object found)

/-- A new object changes none. -/
theorem extends_alloc (heap : Heap) (object : Object) : heap.Extends (heap.alloc object).2 := by
  intro ref old found
  rw [get?_alloc_of_lt heap object (lt_size_of_get? found), found]

/-- A value that conforms to a type does so in any larger heap. -/
theorem Conforms.mono {before after : Heap} {type : NumericType} {value : Value}
    (conforms : before.Conforms type value) (extended : before.Extends after) :
    after.Conforms type value := by
  cases conforms with
  | number scalar isNumber => exact .number scalar isNumber
  | array array found areNumbers => exact .array array (extended _ _ found) areNumbers

/-- A value of a number's type is a number. -/
theorem Conforms.isNumber {heap : Heap} {type : NumericType} {value : Value}
    (conforms : heap.Conforms type value) (scalar : type.isArray = false) :
    value.IsNumber type.isFloating := by
  cases conforms with
  | number _ isNumber => exact isNumber
  | array array found areNumbers =>
      rw [array] at scalar
      cases scalar

/-- A value of an array's type is an array of numbers in the heap. -/
theorem Conforms.isArray {heap : Heap} {type : NumericType} {value : Value}
    (conforms : heap.Conforms type value) (array : type.isArray = true) :
    ∃ ref items, value = .object ref ∧ heap.get? ref = some (.array items) ∧
      ∀ item ∈ items, item.value.IsNumber type.isFloating := by
  cases conforms with
  | number scalar isNumber =>
      rw [array] at scalar
      cases scalar
  | array _ found areNumbers => exact ⟨_, _, rfl, found, areNumbers⟩

/-- A copy of a value that conforms to a type shows its numbers. -/
theorem Conforms.shows {heap : Heap} {type : NumericType} {copy : Copy}
    (conforms : heap.Conforms type copy.value) :
    ∃ content, Operand.Shows heap type (.item copy) content := by
  obtain ⟨value, origin⟩ := copy
  cases conforms with
  | number scalar isNumber => exact ⟨_, .number scalar isNumber⟩
  | array array found areNumbers => exact ⟨_, .array array found areNumbers⟩

end Heap

namespace Operand.Shows

variable {heap : Heap} {type : NumericType} {operand : Operand} {content : Nested Copy}

/-- An operand shows the same copies in any larger heap. -/
theorem mono {after : Heap} (shown : Operand.Shows heap type operand content)
    (extended : heap.Extends after) : Operand.Shows after type operand content := by
  cases shown with
  | number scalar isNumber => exact .number scalar isNumber
  | array array found areNumbers => exact .array array (extended _ _ found) areNumbers
  | row array areNumbers => exact .row array areNumbers

/-- A copy that shows numbers of a type conforms to it. -/
theorem conforms {copy : Copy} (shown : Operand.Shows heap type (.item copy) content) :
    heap.Conforms type copy.value := by
  cases shown with
  | number scalar isNumber => exact .number scalar isNumber
  | array array found areNumbers => exact .array array found areNumbers

/-- All copies that are shown are numbers of the type. -/
theorem areNumbers (shown : Operand.Shows heap type operand content) :
    ∀ copy ∈ content.items, copy.value.IsNumber type.isFloating := by
  cases shown with
  | number scalar isNumber => simpa using isNumber
  | array array found areNumbers => simpa using areNumbers
  | row array areNumbers => simpa using areNumbers

/-- An operand of a numeric type has the elements that it shows. -/
theorem elements_eq (shown : Operand.Shows heap type operand content) :
    operand.elements heap type.static = .ok (content.items.map .item) := by
  rw [Operand.elements, NumericType.isArray_static]
  cases shown with
  | number scalar isNumber => rw [scalar]; rfl
  | array array found areNumbers =>
      rw [array, Nested.items_ofList]
      simp [Operand.items?, Heap.items?, Heap.object?, found]
  | row array areNumbers =>
      rw [array, Nested.items_ofList]
      rfl

/-- Numbers that are shown refer to nothing. -/
theorem map_unfold {copies : List Copy} {floating : Bool}
    (fit : ∀ copy ∈ copies, copy.value.FitsInto floating) :
    (copies.map .item).map (Operand.unfold heap) = (copies.map Copy.value).map .atom := by
  rw [List.map_map, List.map_map]
  refine List.map_congr_left fun copy isIn => ?_
  exact heap.unfold_number (fit copy isIn)

/-- A number is read in the way of its domain. -/
theorem numbers_component {α : Type} [Domain α] (type : NumericType) (operand : Operand) :
    (operand.numbers heap type.component : Except Failure (Nested α)) =
      Domain.ofDatum (operand.unfold heap) := by
  rw [NumericType.component]
  split
  · rfl
  · rfl

section

variable {α : Type} [Domain α] [Domain.Reads α]

/-- The elements of an array are read in the way of their domain. -/
theorem numbers_array {items : List Copy} (array : type.isArray = true)
    (elements : operand.elements heap type.static = .ok (items.map .item))
    (fit : ∀ item ∈ items, item.value.FitsInto (Domain.Reads.floating α)) :
    operand.numbers heap type.static =
      .ok (.ofList (items.map fun item => (Domain.Reads.number item.value : α))) := by
  rw [NumericType.static_of_array array] at elements ⊢
  simp only [Operand.numbers, NumericType.isNumeric_component, if_true, elements]
  change Domain.ofData ((items.map .item).map (Operand.unfold heap)) = _
  have values : ∀ value ∈ items.map Copy.value, value.FitsInto (Domain.Reads.floating α) := by
    simpa using fit
  rw [map_unfold fit, Domain.Reads.ofData_atoms values, List.map_map]
  rfl

/-- An operand is read as the numbers that it shows, in every domain that they fit into. -/
theorem numbers_eq (shown : Operand.Shows heap type operand content)
    (wide : type.isFloating = true → Domain.Reads.floating α = true) :
    operand.numbers heap type.static =
      .ok (content.map fun copy => (Domain.Reads.number copy.value : α)) := by
  have elements := shown.elements_eq
  have fit : ∀ copy ∈ content.items, copy.value.FitsInto (Domain.Reads.floating α) :=
    fun copy isIn => (shown.areNumbers copy isIn).fitsInto wide
  cases shown with
  | @number copy scalar isNumber =>
      have fits := isNumber.fitsInto wide
      rw [NumericType.static_of_scalar scalar, numbers_component]
      change Domain.ofDatum (heap.unfold copy.value) = _
      rw [heap.unfold_number fits, Domain.Reads.ofDatum_atom fits]
      rfl
  | array array found areNumbers =>
      rw [Nested.items_ofList] at elements fit
      rw [numbers_array array elements fit, Nested.map_ofList]
  | row array areNumbers =>
      rw [Nested.items_ofList] at elements fit
      rw [numbers_array array elements fit, Nested.map_ofList]

end

/-- A number shows its own type. -/
theorem type_atom {value : Value} (scalar : type.isArray = false)
    (isNumber : value.IsNumber type.isFloating) : (Datum.atom value).type = .ok type.static := by
  rw [NumericType.static_of_scalar scalar, NumericType.component]
  cases value with
  | int n => rw [show type.isFloating = false from isNumber]; rfl
  | float x => rw [show type.isFloating = true from isNumber]; rfl
  | _ => cases isNumber

/-- An array of numbers shows its type unless it is empty. -/
theorem type_array {items : List Copy} (array : type.isArray = true)
    (areNumbers : ∀ item ∈ items, item.value.IsNumber type.isFloating) :
    (Datum.array ((items.map Copy.value).map .atom)).type =
      if items.isEmpty then .error .emptyIntermediate else .ok type.static := by
  cases items with
  | nil => simp [Datum.type, Datum.componentType, Except.map]
  | cons item items =>
      have isNumber := areNumbers item List.mem_cons_self
      rw [NumericType.static_of_array array, NumericType.component, List.map_cons, List.map_cons]
      cases value : item.value with
      | int n =>
          rw [value] at isNumber
          rw [show type.isFloating = false from isNumber]
          simp [Datum.type, Datum.componentType, Except.map]
      | float x =>
          rw [value] at isNumber
          rw [show type.isFloating = true from isNumber]
          simp [Datum.type, Datum.componentType, Except.map]
      | _ =>
          rw [value] at isNumber
          cases isNumber

/-- The type that an operand shows is its own, unless it shows no number at all. -/
theorem type_eq (shown : Operand.Shows heap type operand content) :
    operand.type heap =
      if content.items.isEmpty then .error (.violation .emptyIntermediate)
      else .ok type.static := by
  have itself {items : List Copy} (areNumbers : ∀ item ∈ items, item.value.IsNumber type.isFloating) :
      ∀ item ∈ items, item.value.FitsInto type.isFloating :=
    fun item isIn => (areNumbers item isIn).fitsInto id
  rw [Operand.type]
  cases shown with
  | number scalar isNumber =>
      rw [Operand.unfold, heap.unfold_number (isNumber.fitsInto id), type_atom scalar isNumber]
      rfl
  | array array found areNumbers =>
      rw [Operand.unfold, Heap.unfold_array found (itself areNumbers),
        type_array array areNumbers, Nested.items_ofList]
      split <;> rfl
  | row array areNumbers =>
      rw [Nested.items_ofList, Nested.ofList, Operand.unfold, Operand.unfoldAll_eq_map,
        map_unfold (itself areNumbers), type_array array areNumbers]
      split <;> rfl

/-- The element of an array at a place is the copy that the array shows there. -/
theorem element_eq (shown : Operand.Shows heap type operand content) (array : type.isArray = true)
    {place : Nat} (inside : place < content.items.length) :
    operand.element heap place = .ok (.item content.items[place]) := by
  cases shown with
  | number scalar isNumber => rw [array] at scalar; cases scalar
  | array array found areNumbers =>
      simp only [Nested.items_ofList] at inside ⊢
      simp [Operand.element, Heap.element, Heap.object?, Heap.items?, found, inside, Except.map]
  | row array areNumbers =>
      simp only [Nested.items_ofList] at inside ⊢
      simp [Operand.element, Nested.ofList, inside]

end Operand.Shows

end ArrayForks
