import Mathlib.Data.List.Zip
import Mathlib.Logic.Basic
import ArrayForks.Proofs.SingleSteps
import ArrayForks.Proofs.TypeViolations

/-! # Laws of equality

Operands are compared for equality in one of three ways, as their types say: arrays of numbers and
numbers element by element, anything else by its content or by which object it is. The last choice
looks at the left type alone. Still, where no doubles are involved, equality is symmetric: it holds
of two values exactly if these are one value, since a value that is compared by its object exists
only once, and one that is compared by its content equals no other value. So equality is reflexive
as well, and inequality is its complement.

* **`areEqual_eq_decide`**: `areEqual` of two copies, neither array nor double, is
  `decide (left.value = right.value)`, whether content or identity decides.
* **`comparesAs_words`**, **`comparesAs_values`**: so `==` and `!=` are `equalities pairs` and its
  complement, `ComparesAs`.
* **`comparedAlike`**, **`equal_self`**: symmetry with the complement, and reflexivity. -/

namespace ArrayForks

/-! ### Values of a type -/

/-- Whether a value is one thing, wherever it occurs. Numbers and texts may occur in several
copies. -/
def Value.isThing : Value → Bool
  | .int _ | .float _ | .string _ => false
  | _ => true

/-- A thing exists only once. -/
theorem Value.isUnique_of_isThing {value : Value} (thing : value.isThing = true) :
    value.isUnique = true := by
  cases value with
  | int n => cases thing
  | float x => cases thing
  | string text => cases thing
  | _ => rfl

/-- A copy of a thing is the common one. -/
def Copy.IsProper (copy : Copy) : Prop :=
  copy.value.isThing = true → copy.origin = .common

namespace Copy

/-- A new copy is proper. -/
theorem isProper_new (value : Value) : (new value).IsProper := by
  intro thing
  exact if_pos (Value.isUnique_of_isThing thing)

/-- A copy of a literal is proper. -/
theorem isProper_written (node : NodeId) (value : Value) : (written node value).IsProper := by
  intro thing
  exact if_pos (Value.isUnique_of_isThing thing)

/-- The text of a copy is no thing. -/
theorem isProper_shown (heap : Heap) (copy : Copy) : (copy.shown heap).IsProper := by
  intro thing
  rw [value_shown] at thing
  cases thing

/-- A copy that is kept is the common one if it was. -/
theorem IsProper.keep {copy : Copy} (proper : copy.IsProper) (number : Nat) :
    (copy.keep number).IsProper := by
  intro thing
  rw [value_keep] at thing
  have common := proper thing
  have old : copy.origin ≠ .fresh := by simp [common]
  rw [keep_eq_self old, common]

/-- A thing and a value are one copy exactly if they are equal. -/
theorem same_eq_decide {left right : Copy} (leftProper : left.IsProper)
    (rightProper : right.IsProper) (thing : left.value.isThing = true) :
    left.same right = decide (left.value = right.value) := by
  have leftCommon := leftProper thing
  by_cases equal : left.value = right.value
  · have rightCommon := rightProper (equal ▸ thing)
    have one : left = right := by
      obtain ⟨value, origin⟩ := left
      obtain ⟨other, otherOrigin⟩ := right
      exact congrArg₂ Copy.mk equal (leftCommon.trans rightCommon.symm)
    have notFresh : left.origin ≠ .fresh := by simp [leftCommon]
    rw [decide_eq_true equal, same_iff.mpr ⟨one, notFresh⟩]
  · rw [decide_eq_false equal, Bool.eq_false_iff]
    intro same
    exact equal (congrArg Copy.value (same_iff.mp same).1)

end Copy

/-- The values of each type where `null` may stand for anything but words and arrays. -/
inductive Heap.HasTypeOrNull (heap : Heap) : Value → StaticType → Prop where
  /-- A value of the type. -/
  | typed {value : Value} {type : StaticType} (typed : heap.HasType value type) :
      HasTypeOrNull heap value type
  /-- `null` in place of a value. -/
  | null {type : StaticType} (notArray : type.isArray = false) (notWord : type ≠ .int) :
      HasTypeOrNull heap .null type
  /-- An array of values of the component type, or of `null` in their places. -/
  | array {ref : Ref} {items : List Copy} {component : StaticType}
      (found : heap.get? ref = some (.array items))
      (areTyped : ∀ item ∈ items, HasTypeOrNull heap item.value component) :
      HasTypeOrNull heap (.object ref) (.array component)

/-- The operands of each type where `null` may stand for anything but words and arrays. -/
inductive Operand.HasTypeOrNull (heap : Heap) : Operand → StaticType → Prop where
  /-- A copy of a value. -/
  | item {copy : Copy} {type : StaticType} (proper : copy.IsProper)
      (typed : heap.HasTypeOrNull copy.value type) : HasTypeOrNull heap (.item copy) type
  /-- An array that is no object yet. -/
  | row {parts : List Operand} {component : StaticType}
      (areTyped : ∀ part ∈ parts, HasTypeOrNull heap part component) :
      HasTypeOrNull heap (.row parts) (.array component)

/-- The types of arrays of words and of words are those that are numeric in shape but not
floating. -/
theorem StaticType.exists_words {type : StaticType} (numeric : type.isNumericShape = true)
    (words : type.isFloating = false) :
    ∃ isArray, NumericType.static ⟨isArray, false⟩ = type := by
  obtain ⟨⟨isArray, isFloating⟩, rfl⟩ := exists_numericType numeric
  rw [NumericType.isFloating_static] at words
  cases words
  exact ⟨isArray, rfl⟩

/-- `null` does not stand for a word. -/
theorem Heap.HasTypeOrNull.word {heap : Heap} {value : Value}
    (typed : heap.HasTypeOrNull value .int) : heap.HasType value .int := by
  cases typed with
  | typed typed => exact typed
  | null notArray notWord => exact absurd rfl notWord

/-- No array is of the type of words. -/
theorem Operand.HasTypeOrNull.word {heap : Heap} {operand : Operand}
    (typed : operand.HasTypeOrNull heap .int) : operand.HasType heap .int := by
  cases typed with
  | item proper typed => exact .item typed.word

/-- Among words and in arrays of words there is no `null`. -/
theorem Operand.HasTypeOrNull.hasType {heap : Heap} {operand : Operand} {type : StaticType}
    (typed : operand.HasTypeOrNull heap type) (numeric : type.isNumericShape = true)
    (words : type.isFloating = false) : operand.HasType heap type := by
  obtain ⟨isArray, rfl⟩ := StaticType.exists_words numeric words
  cases isArray with
  | false => exact typed.word
  | true => cases typed with
    | @item copy _ proper typed =>
        obtain ⟨value, origin⟩ := copy
        refine .item ?_
        cases typed with
        | typed typed => exact typed
        | null notArray notWord => cases notArray
        | array found areTyped => exact .array found fun item isIn => (areTyped item isIn).word
    | row areTyped => exact .row fun part isIn => (areTyped part isIn).word

/-- An operand of a type that is not that of arrays is a copy of a value. -/
theorem Operand.HasTypeOrNull.exists_item {heap : Heap} {operand : Operand} {type : StaticType}
    (typed : operand.HasTypeOrNull heap type) (notArray : type.isArray = false) :
    ∃ copy, operand = .item copy ∧ copy.IsProper ∧ heap.HasTypeOrNull copy.value type := by
  cases typed with
  | item proper typed => exact ⟨_, rfl, proper, typed⟩
  | row areTyped => cases notArray

/-- A value of a type without doubles that is no array is no double. -/
theorem Heap.HasTypeOrNull.ne_float {heap : Heap} {value : Value} {type : StaticType}
    (typed : heap.HasTypeOrNull value type) (plain : type.isFloating = false) (x : Float) :
    value ≠ .float x := by
  rintro rfl
  cases typed with
  | typed typed => cases typed with
    | double x => cases plain

/-- A value of a primitive type is no object. -/
theorem Heap.HasTypeOrNull.ne_object {heap : Heap} {value : Value} {type : StaticType}
    (typed : heap.HasTypeOrNull value type) (primitive : type.isPrimitive = true) (ref : Ref) :
    value ≠ .object ref := by
  rintro rfl
  cases typed with
  | typed typed => cases typed <;> cases primitive
  | array found areTyped => cases primitive

/-- A value of a type that is not primitive is one thing. -/
theorem Heap.HasTypeOrNull.isThing {heap : Heap} {value : Value} {type : StaticType}
    (typed : heap.HasTypeOrNull value type) (other : type.isPrimitive = false) :
    value.isThing = true := by
  cases typed with
  | typed typed => cases typed with
    | word inRange => cases other
    | double x => cases other
    | text text => cases other
    | _ => rfl
  | null notArray notWord => rfl
  | array found areTyped => rfl

/-! ### Equality of values -/

/-- By its content, a value that is neither an object nor a double equals itself alone. -/
theorem Heap.equal_eq_decide (heap : Heap) {value other : Value}
    (notObject : ∀ ref, value ≠ .object ref) (notDouble : ∀ x, value ≠ .float x)
    (otherNotDouble : ∀ x, other ≠ .float x) : heap.equal value other = decide (value = other) := by
  have noObject : heap.object? value = none := by
    cases value with
    | object ref => exact absurd rfl (notObject ref)
    | _ => rfl
  cases otherObject : heap.object? other with
  | none =>
      rw [equal_of_object?_eq_none noObject otherObject]
      cases value with
      | float x => exact absurd rfl (notDouble x)
      | _ =>
          cases other with
          | float x => exact absurd rfl (otherNotDouble x)
          | _ => rfl
  | some object =>
      obtain ⟨ref, rfl, -⟩ := object?_eq_some otherObject
      rw [decide_eq_false (notObject ref), equal, equalTo, noObject, otherObject]

namespace Operation

/-- Whether content or identity decides, two values that are no arrays and no doubles are equal
exactly if they are one value. -/
theorem areEqual_eq_decide {heap : Heap} {leftType rightType : StaticType} {left right : Copy}
    (leftPlain : leftType.isFloating = false) (rightPlain : rightType.isFloating = false)
    (leftProper : left.IsProper) (rightProper : right.IsProper)
    (leftTyped : heap.HasTypeOrNull left.value leftType)
    (rightTyped : heap.HasTypeOrNull right.value rightType) :
    areEqual heap leftType (.item left) (.item right) = decide (left.value = right.value) := by
  cases primitive : leftType.isPrimitive with
  | true =>
      rw [areEqual, if_pos primitive]
      exact heap.equal_eq_decide (leftTyped.ne_object primitive) (leftTyped.ne_float leftPlain)
        (rightTyped.ne_float rightPlain)
  | false =>
      rw [areEqual, primitive, if_neg Bool.false_ne_true]
      exact Copy.same_eq_decide leftProper rightProper (leftTyped.isThing primitive)

end Operation

/-! ### Pairs -/

namespace Nested

variable {α β : Type}

/-- A layout is paired up with itself item by item. -/
theorem Flat.pairs?_self {nested : Nested α} {isRow : Bool} (flat : nested.Flat isRow) :
    nested.pairs? nested = some (nested.map fun value => (value, value)) := by
  cases flat with
  | item value => rfl
  | list values =>
      have zipped : values.zip values = values.map fun value => (value, value) := by
        simpa using List.zip_map' (f := id) (g := id) (l := values)
      rw [pairs?_ofList rfl, map_ofList, zipped]

/-- Layouts are paired up alike from both sides. -/
theorem Flat.pairs?_swap {left : Nested α} {right : Nested β} {leftIsRow rightIsRow : Bool}
    (leftFlat : left.Flat leftIsRow) (rightFlat : right.Flat rightIsRow)
    (same : leftIsRow = true → rightIsRow = true → left.length = right.length)
    {pairs : Nested (α × β)} (paired : left.pairs? right = some pairs) :
    right.pairs? left = some (pairs.map Prod.swap) := by
  cases leftFlat with
  | item value =>
      cases rightFlat with
      | item other =>
          cases paired
          rfl
      | list rights =>
          rw [pairs?_item_ofList] at paired
          cases paired
          rw [pairs?_ofList_item, map_ofList, List.map_map]
          rfl
  | list lefts =>
      cases rightFlat with
      | item other =>
          rw [pairs?_ofList_item] at paired
          cases paired
          rw [pairs?_item_ofList, map_ofList, List.map_map]
          rfl
      | list rights =>
          have lengths : lefts.length = rights.length := by simpa using same rfl rfl
          rw [pairs?_ofList lengths] at paired
          cases paired
          rw [pairs?_ofList lengths.symm, map_ofList, List.zip_swap]

end Nested

/-- Whether the two sides of each pair are equal, as words. -/
def equalities {α : Type} [DecidableEq α] (pairs : Nested (α × α)) : Nested Int :=
  pairs.map fun pair => if pair.1 = pair.2 then 1 else 0

section

variable {α : Type} [DecidableEq α]

/-- Equality of the two sides does not depend on which one comes first. -/
theorem equalities_swap (pairs : Nested (α × α)) :
    equalities (pairs.map Prod.swap) = equalities pairs := by
  rw [equalities, equalities, Nested.map_map]
  congr 1
  funext pair
  exact if_congr eq_comm rfl rfl

/-- An equality is zero or one. -/
theorem zero_or_one_of_mem_equalities {pairs : Nested (α × α)} {n : Int}
    (isIn : n ∈ (equalities pairs).items) : n = 0 ∨ n = 1 := by
  rw [equalities, Nested.items_map] at isIn
  obtain ⟨pair, -, rfl⟩ := List.mem_map.mp isIn
  by_cases equal : pair.1 = pair.2
  · exact .inr (if_pos equal)
  · exact .inl (if_neg equal)

/-- Everything is equal to itself. -/
theorem equalities_self (values : Nested α) :
    equalities (values.map fun value => (value, value)) = values.map fun _ => 1 := by
  rw [equalities, Nested.map_map]
  congr 1
  funext value
  exact if_pos rfl

end

/-! ### The operators -/

namespace Operation

variable [NumericLibrary]

/-- Comparing two operands of two types looks at some pairs: equality gives one for the pairs of
equal sides and zero for the others, and inequality the complement. -/
structure ComparesAs (heap : Heap) (leftType rightType : StaticType) (left right : Operand)
    {α : Type} [DecidableEq α] (pairs : Nested (α × α)) : Prop where
  equal : diadic heap (.comparison .equal) leftType rightType left right =
    .ok (.ofNumbers (equalities pairs))
  notEqual : diadic heap (.comparison .notEqual) leftType rightType left right =
    .ok (.ofNumbers ((equalities pairs).map fun n => 1 - n))

/-- How the equality of two operands, the same from the other side, and their inequality go
together. -/
inductive ComparedAlike (heap : Heap) (leftType rightType : StaticType) (left right : Operand) :
    Prop where
  /-- All of them violate the check. -/
  | refused (equal : Violates (diadic heap (.comparison .equal) leftType rightType left right))
      (back : Violates (diadic heap (.comparison .equal) rightType leftType right left))
      (unequal : Violates (diadic heap (.comparison .notEqual) leftType rightType left right))
  /-- All of them fail since the lengths differ. -/
  | mismatch (leftLength rightLength : Nat)
      (equal : diadic heap (.comparison .equal) leftType rightType left right =
        (RuntimeError.lengthMismatch leftLength rightLength).raise)
      (back : diadic heap (.comparison .equal) rightType leftType right left =
        (RuntimeError.lengthMismatch rightLength leftLength).raise)
      (unequal : diadic heap (.comparison .notEqual) leftType rightType left right =
        (RuntimeError.lengthMismatch leftLength rightLength).raise)
  /-- Both equalities give the same truth values, and the inequality gives their complements. -/
  | compared (truths : Nested Int) (areTruths : ∀ n ∈ truths.items, n = 0 ∨ n = 1)
      (equal : diadic heap (.comparison .equal) leftType rightType left right =
        .ok (.ofNumbers truths))
      (back : diadic heap (.comparison .equal) rightType leftType right left =
        .ok (.ofNumbers truths))
      (unequal : diadic heap (.comparison .notEqual) leftType rightType left right =
        .ok (.ofNumbers (truths.map fun n => 1 - n)))

/-- Pairs that are the same from both sides up to swapping are compared alike. -/
theorem ComparesAs.comparedAlike {heap : Heap} {leftType rightType : StaticType}
    {left right : Operand} {α : Type} [DecidableEq α] {pairs : Nested (α × α)}
    (compares : ComparesAs heap leftType rightType left right pairs)
    (back : ComparesAs heap rightType leftType right left (pairs.map Prod.swap)) :
    ComparedAlike heap leftType rightType left right := by
  have backEqual := back.equal
  rw [equalities_swap] at backEqual
  exact .compared (equalities pairs) (fun n => zero_or_one_of_mem_equalities) compares.equal
    backEqual compares.notEqual

/-- The equality of an operand with itself gives one for each of its elements, or the word one for
an operand that is no array. -/
def GivesOnes (heap : Heap) (type : StaticType) (operand result : Operand) : Prop :=
  ∃ (items : List Operand) (ones : Nested Int), operand.elements heap type = .ok items ∧
    ones.Flat type.isArray ∧ ones.items = List.replicate items.length 1 ∧ result = .ofNumbers ones

/-- Whether something holds, as a word. -/
theorem ofBool_decide (p : Prop) [Decidable p] :
    (Domain.ofBool (decide p) : Int) = if p then 1 else 0 := by
  by_cases holds : p
  · rw [decide_eq_true holds, if_pos holds]
    rfl
  · rw [decide_eq_false holds, if_neg holds]
    rfl

/-- Whether something does not hold, as a word. -/
theorem ofBool_not_decide (p : Prop) [Decidable p] :
    (Domain.ofBool (!decide p) : Int) = 1 - if p then 1 else 0 := by
  by_cases holds : p
  · rw [decide_eq_true holds, if_pos holds]
    rfl
  · rw [decide_eq_false holds, if_neg holds]
    rfl

/-- A comparison of words looks at all pairs and never traps. -/
theorem applyIn_comparison (op : Comparison) {left right : Nested Int} {pairs : Nested (Int × Int)}
    (paired : left.pairs? right = some pairs) :
    Coerced.applyIn (.comparison op) left right =
      .ok (pairs.map fun pair => Domain.ofBool (Word.compare op pair.1 pair.2)) := by
  rw [Coerced.applyIn, paired]
  rfl

section

variable {heap : Heap} {leftType rightType : StaticType} {left right : Operand}

/-- The numbers of words and of arrays of words are compared pair by pair. -/
theorem comparesAs_words {leftIsArray rightIsArray : Bool} {leftContent rightContent : Nested Copy}
    (leftShown : Operand.Shows heap ⟨leftIsArray, false⟩ left leftContent)
    (rightShown : Operand.Shows heap ⟨rightIsArray, false⟩ right rightContent)
    (same : leftIsArray = true → rightIsArray = true → leftContent.length = rightContent.length)
    {pairs : Nested (Int × Int)}
    (paired : (leftContent.map fun copy => Word.number copy.value).pairs?
      (rightContent.map fun copy => Word.number copy.value) = some pairs) :
    ComparesAs heap (NumericType.static ⟨leftIsArray, false⟩)
      (NumericType.static ⟨rightIsArray, false⟩) left right pairs := by
  have noMismatch : ¬ (leftIsArray && rightIsArray &&
      leftContent.length != rightContent.length) = true := by
    rw [Bool.and_eq_true, Bool.and_eq_true, bne_iff_ne]
    rintro ⟨⟨leftArray, rightArray⟩, differ⟩
    exact differ (same leftArray rightArray)
  have compared (op : Comparison) :
      diadic heap (.comparison op) (NumericType.static ⟨leftIsArray, false⟩)
          (NumericType.static ⟨rightIsArray, false⟩) left right =
        .ok (.ofNumbers (pairs.map fun pair =>
          (Domain.ofBool (Word.compare op pair.1 pair.2) : Int))) := by
    rw [diadic_eq (by simp) leftShown rightShown, if_neg noMismatch]
    change (Coerced.applyIn (.comparison op)
      (leftContent.map fun copy => Word.number copy.value)
      (rightContent.map fun copy => Word.number copy.value)).map Operand.ofNumbers = _
    rw [applyIn_comparison op paired]
    rfl
  constructor
  · rw [compared, equalities]
    simp only [Word.compare, ofBool_decide]
  · rw [compared, equalities, Nested.map_map]
    simp only [Word.compare, ne_eq, decide_not, ofBool_not_decide, Function.comp_def]

/-- Whatever is left to be compared is a pair of values, none of them an array or a double. -/
theorem comparesAs_values {left right : Copy} (leftProper : left.IsProper)
    (rightProper : right.IsProper) (leftPlain : leftType.isFloating = false)
    (rightPlain : rightType.isFloating = false)
    (leftTyped : heap.HasTypeOrNull left.value leftType)
    (rightTyped : heap.HasTypeOrNull right.value rightType)
    (noArrays : (leftType.isArray || rightType.isArray) = false)
    (notBoth : (leftType.isNumericShape && rightType.isNumericShape) = false) :
    ComparesAs heap leftType rightType (.item left) (.item right)
      (.item (left.value, right.value)) := by
  have notNumbers : (leftType.isNumeric && rightType.isNumeric) = false := by
    rw [Bool.eq_false_iff, ne_eq, Bool.and_eq_true]
    rintro ⟨leftNumeric, rightNumeric⟩
    rw [leftType.isNumericShape_of_isNumeric leftNumeric,
      rightType.isNumericShape_of_isNumeric rightNumeric] at notBoth
    cases notBoth
  have equality : ruleFor (.comparison .equal) leftType rightType = .equality := by
    simp [ruleFor, noArrays, notNumbers]
  have inequality : ruleFor (.comparison .notEqual) leftType rightType = .inequality := by
    simp [ruleFor, noArrays, notNumbers]
  -- The left type alone chooses between content and identity, but both come to the same here.
  have decided := areEqual_eq_decide leftPlain rightPlain leftProper rightProper leftTyped
    rightTyped
  have asWord (b : Bool) : (.item (.new (.ofBool b)) : Operand) =
      Operand.ofNumbers (.item (Domain.ofBool b : Int)) := rfl
  constructor
  · rw [diadic, equality]
    dsimp only
    rw [decided, asWord, ofBool_decide]
    rfl
  · rw [diadic, inequality]
    dsimp only
    rw [decided, asWord, ofBool_not_decide]
    rfl

/-- Anything but numbers, lifted over an array, violates the check. -/
theorem violates_comparison (op : Comparison) (leftPlain : leftType.isFloating = false)
    (leftTyped : left.HasTypeOrNull heap leftType)
    (someArray : (leftType.isArray || rightType.isArray) = true)
    (notBoth : (leftType.isNumericShape && rightType.isNumericShape) = false) (right : Operand) :
    Violates (diadic heap (.comparison op) leftType rightType left right) := by
  have rule : ruleFor (.comparison op) leftType rightType = .lift := by
    simp [ruleFor, someArray]
  have violates : Violates (Coerced.ofOperands heap leftType rightType left right) := by
    cases leftNumeric : leftType.isNumericShape with
    | false => exact violates_ofOperands_of_left heap leftNumeric rightType left right
    | true => exact violates_ofOperands (leftTyped.hasType leftNumeric leftPlain) notBoth right
  rw [diadic, rule]
  exact violates.bind _

/-- Arrays of words of different lengths are not compared. -/
theorem comparison_of_lengths_ne (op : Comparison) {leftContent rightContent : Nested Copy}
    (leftShown : Operand.Shows heap ⟨true, false⟩ left leftContent)
    (rightShown : Operand.Shows heap ⟨true, false⟩ right rightContent)
    (differ : leftContent.length ≠ rightContent.length) :
    diadic heap (.comparison op) (NumericType.static ⟨true, false⟩)
        (NumericType.static ⟨true, false⟩) left right =
      (RuntimeError.lengthMismatch leftContent.length rightContent.length).raise := by
  rw [diadic_eq (by simp) leftShown rightShown, if_pos (by simpa using differ)]

/-- Words and arrays of words are compared alike from both sides. -/
theorem words_comparedAlike {leftIsArray rightIsArray : Bool}
    (leftTyped : Operand.OfType heap ⟨leftIsArray, false⟩ left)
    (rightTyped : Operand.OfType heap ⟨rightIsArray, false⟩ right) :
    ComparedAlike heap (NumericType.static ⟨leftIsArray, false⟩)
      (NumericType.static ⟨rightIsArray, false⟩) left right := by
  obtain ⟨leftContent, leftShown⟩ := leftTyped
  obtain ⟨rightContent, rightShown⟩ := rightTyped
  by_cases same : leftIsArray = true → rightIsArray = true →
      leftContent.length = rightContent.length
  · have leftFlat := leftShown.flat.map fun copy => Word.number copy.value
    have rightFlat := rightShown.flat.map fun copy => Word.number copy.value
    have sameNumbers : leftIsArray = true → rightIsArray = true →
        (leftContent.map fun copy => Word.number copy.value).length =
          (rightContent.map fun copy => Word.number copy.value).length := by
      rw [Nested.length_map, Nested.length_map]
      exact same
    obtain ⟨pairs, paired, -⟩ := leftFlat.pairs? rightFlat sameNumbers
    have back := leftFlat.pairs?_swap rightFlat sameNumbers paired
    exact (comparesAs_words leftShown rightShown same paired).comparedAlike
      (comparesAs_words rightShown leftShown
        (fun rightArray leftArray => (same leftArray rightArray).symm) back)
  · rw [Classical.not_imp, Classical.not_imp] at same
    obtain ⟨rfl, rfl, differ⟩ := same
    exact .mismatch leftContent.length rightContent.length
      (comparison_of_lengths_ne .equal leftShown rightShown differ)
      (comparison_of_lengths_ne .equal rightShown leftShown fun lengths => differ lengths.symm)
      (comparison_of_lengths_ne .notEqual leftShown rightShown differ)

/-- Words and arrays of words equal themselves. -/
theorem words_equal_self {isArray : Bool} {operand result : Operand}
    (typed : Operand.OfType heap ⟨isArray, false⟩ operand)
    (given : diadic heap (.comparison .equal) (NumericType.static ⟨isArray, false⟩)
      (NumericType.static ⟨isArray, false⟩) operand operand = .ok result) :
    GivesOnes heap (NumericType.static ⟨isArray, false⟩) operand result := by
  obtain ⟨content, shown⟩ := typed
  have flat := shown.flat.map fun copy => Word.number copy.value
  have compares := comparesAs_words shown shown (fun _ _ => rfl) flat.pairs?_self
  have ones := compares.equal
  rw [equalities_self, given] at ones
  refine ⟨_, _, shown.elements_eq, ?_, ?_, Except.ok.inj ones⟩
  · rw [NumericType.isArray_static]
    exact flat.map fun _ => 1
  · rw [Nested.map_map, Nested.items_map, List.length_map]
    exact List.map_const'

section

variable (leftPlain : leftType.isFloating = false) (rightPlain : rightType.isFloating = false)
  (leftTyped : left.HasTypeOrNull heap leftType) (rightTyped : right.HasTypeOrNull heap rightType)

include leftPlain rightPlain leftTyped rightTyped in
/-- Operands without doubles are compared alike from both sides. -/
theorem comparedAlike : ComparedAlike heap leftType rightType left right := by
  -- Numbers on both sides make pairs, and an array beside anything else is refused.
  cases both : leftType.isNumericShape && rightType.isNumericShape with
  | true =>
      rw [Bool.and_eq_true] at both
      have leftWords := leftTyped.hasType both.1 leftPlain
      have rightWords := rightTyped.hasType both.2 rightPlain
      obtain ⟨leftIsArray, rfl⟩ := StaticType.exists_words both.1 leftPlain
      obtain ⟨rightIsArray, rfl⟩ := StaticType.exists_words both.2 rightPlain
      exact words_comparedAlike leftWords.ofType rightWords.ofType
  | false =>
      have backBoth : (rightType.isNumericShape && leftType.isNumericShape) = false := by
        rw [Bool.and_comm]
        exact both
      cases arrays : leftType.isArray || rightType.isArray with
      | true =>
          have backArrays : (rightType.isArray || leftType.isArray) = true := by
            rw [Bool.or_comm]
            exact arrays
          exact .refused (violates_comparison .equal leftPlain leftTyped arrays both right)
            (violates_comparison .equal rightPlain rightTyped backArrays backBoth left)
            (violates_comparison .notEqual leftPlain leftTyped arrays both right)
      | false =>
          -- The left type alone says which equality decides, so from the other side it may be
          -- another one; yet both ask whether the values are one.
          have noArrays := Bool.or_eq_false_iff.mp arrays
          have backArrays : (rightType.isArray || leftType.isArray) = false :=
            Bool.or_eq_false_iff.mpr noArrays.symm
          obtain ⟨left, rfl, leftProper, leftTyped⟩ := leftTyped.exists_item noArrays.1
          obtain ⟨right, rfl, rightProper, rightTyped⟩ := rightTyped.exists_item noArrays.2
          exact (comparesAs_values leftProper rightProper leftPlain rightPlain leftTyped rightTyped
            arrays both).comparedAlike (comparesAs_values rightProper leftProper rightPlain
              leftPlain rightTyped leftTyped backArrays backBoth)

include leftPlain leftTyped in
/-- An operand without doubles equals itself if it is compared at all. -/
theorem equal_self {result : Operand}
    (given : diadic heap (.comparison .equal) leftType leftType left left = .ok result) :
    GivesOnes heap leftType left result := by
  cases numeric : leftType.isNumericShape with
  | true =>
      have words := leftTyped.hasType numeric leftPlain
      obtain ⟨isArray, rfl⟩ := StaticType.exists_words numeric leftPlain
      exact words_equal_self words.ofType given
  | false =>
      cases array : leftType.isArray with
      | true =>
          have refused : Violates (diadic heap (.comparison .equal) leftType leftType left left) :=
            violates_comparison .equal leftPlain leftTyped (by simp [array]) (by simp [numeric])
              left
          rw [given] at refused
          exact absurd refused (Violates.not_ok result)
      | false =>
          obtain ⟨left, rfl, proper, typed⟩ := leftTyped.exists_item array
          have compares : ComparesAs heap leftType leftType (.item left) (.item left)
              ((Nested.item left.value).map fun value => (value, value)) :=
            comparesAs_values proper proper leftPlain leftPlain typed typed (by simp [array])
              (by simp [numeric])
          have ones := compares.equal
          rw [equalities_self, given] at ones
          refine ⟨[.item left], .item 1, ?_, ?_, rfl, Except.ok.inj ones⟩
          · rw [Operand.elements, array]
            rfl
          · rw [array]
            exact .item 1

end

end

/-- **Laws of equality without doubles.** For operands of any types that are not floating,
`ComparedAlike heap leftType rightType left right`: `left == right`, `right == left` and
`left != right` all violate the check, or all fail for their lengths, or the first two give the same
truth values `n` and the last one gives `1 - n`. And `left == left`, where it has a result,
`GivesOnes`. -/
theorem equality_laws {heap : Heap} {leftType rightType : StaticType} {left right : Operand}
    (leftPlain : leftType.isFloating = false) (rightPlain : rightType.isFloating = false)
    (leftTyped : left.HasTypeOrNull heap leftType)
    (rightTyped : right.HasTypeOrNull heap rightType) :
    ComparedAlike heap leftType rightType left right ∧
    ∀ result, diadic heap (.comparison .equal) leftType leftType left left = .ok result →
      GivesOnes heap leftType left result :=
  ⟨comparedAlike leftPlain rightPlain leftTyped rightTyped,
    fun _ given => equal_self leftPlain leftTyped given⟩

/-- The operand `null`. -/
def nullOperand : Operand :=
  .item (.new .null)

omit [NumericLibrary] in
/-- No text and no structure are equal, by content on the one side and by identity on the other. -/
theorem equality_laws_null :
    letI : NumericLibrary := .standard
    diadic .empty (.comparison .equal) .string (.struct "Point") nullOperand nullOperand =
      .ok (.item (.new (.int 1))) ∧
    ComparedAlike .empty .string (.struct "Point") nullOperand nullOperand ∧
    ∀ result, diadic .empty (.comparison .equal) .string .string nullOperand nullOperand =
        .ok result →
      GivesOnes .empty .string nullOperand result :=
  letI : NumericLibrary := .standard
  ⟨rfl, equality_laws rfl rfl
    (.item (Copy.isProper_new .null) (.null rfl StaticType.noConfusion))
    (.item (Copy.isProper_new .null) (.typed (.noStruct "Point")))⟩

end Operation

end ArrayForks
