import ArrayForks.Proofs.OperatorTyping
import ArrayForks.Proofs.Standards

/-! # Good values

Operators compute numbers and texts. Whatever else their results hold has been passed on to them: it
is an operand, or an element of an operand in the heap. So a property of values that texts, doubles
and objects have is kept by all operators if the operators on words keep it. Then it is a standard
for copies, and runs keep to it. -/

namespace ArrayForks

/-- A computation without state gives nothing but good values. -/
abbrev GivesOnly {α : Type} (good : α → Prop) (result : Except Failure α) : Prop :=
  Yields good (fun _ => True) result

/-- An operand that shows only good values. -/
def Operand.All (good : Value → Prop) (operand : Operand) : Prop :=
  ∀ copy ∈ operand.items, good copy.value

/-- A datum with only good values in its arrays. -/
inductive Datum.All (good : Value → Prop) : Datum → Prop where
  | atom {value : Value} (isGood : good value) : All good (.atom value)
  | array {items : List Datum} (areGood : ∀ item ∈ items, All good item) : All good (.array items)
  | record (entries : List (Key × Datum)) : All good (.record entries)
  | constructor (of : Datum) (ref : Ref) : All good (.constructor of ref)

variable {good : Value → Prop}

/-! ### Numbers -/

namespace Domain

/-- A number of a domain that is good as a value. -/
def IsGood (good : Value → Prop) {α : Type} [Domain α] (n : α) : Prop :=
  good (Domain.toValue n)

/-- Numbers that are good one by one. -/
abbrev AllGood (good : Value → Prop) {α : Type} [Domain α] (numbers : Nested α) : Prop :=
  ∀ n ∈ numbers.items, IsGood good n

/-- The operators of a domain lead from good numbers to good numbers. Where the result is on the side
of the left operand, the right one does not matter. -/
structure Keeps (good : Value → Prop) (α : Type) [Domain α] : Prop where
  zero : IsGood good (Domain.zero : α)
  one : IsGood good (Domain.one : α)
  arithmetic (op : Arithmetic) {left : α} (isGood : IsGood good left) (right : α) :
    IsGood good (Domain.arithmetic op left right)
  spread (op : Arithmetic) {left : α} (isGood : IsGood good left) (right : α) :
    IsGood good (Domain.spread op left right)
  factorial (rounds : Nat) (n : α) : IsGood good (Domain.factorial rounds n)
  ofDatum {datum : Datum} (isGood : datum.All good) :
    GivesOnly (AllGood good) (Domain.ofDatum datum : Except Failure (Nested α))
  ofData {data : List Datum} (areGood : ∀ datum ∈ data, datum.All good) :
    GivesOnly (AllGood good) (Domain.ofData data : Except Failure (Nested α))

variable {α : Type} [Domain α]

/-- Operators keep what all numbers of the domain have. -/
theorem Keeps.of_all (all : ∀ n : α, IsGood good n) : Keeps good α where
  zero := all _
  one := all _
  arithmetic _ _ _ _ := all _
  spread _ _ _ _ := all _
  factorial _ _ := all _
  ofDatum _ := (Yields.any _).imp fun _ _ n _ => all n
  ofData _ := (Yields.any _).imp fun _ _ n _ => all n

/-- A single number is good if it is good by itself. -/
theorem allGood_item {n : α} (isGood : IsGood good n) : AllGood good (.item n) :=
  fun _ isIn => List.mem_singleton.mp isIn ▸ isGood

section

variable (keeps : Keeps good α)

include keeps

/-- Truth values as numbers are good, being `one` and `zero`. -/
theorem Keeps.ofBool (b : Bool) : IsGood good (ofBool b : α) := by
  cases b with
  | true => exact keeps.one
  | false => exact keeps.zero

/-- A diadic operator leads from a good number on its left to a good one, whatever is on its right.
-/
theorem Keeps.kernel {isSpread : Bool} {op : DiadicOp} {kernel : α → α → α}
    (isKernel : kernel? isSpread op = some kernel) {left : α} (isGood : IsGood good left)
    (right : α) : IsGood good (kernel left right) := by
  cases op with
  | arithmetic op =>
      cases isKernel
      split
      · exact keeps.spread op isGood right
      · exact keeps.arithmetic op isGood right
  | comparison op =>
      cases isKernel
      exact keeps.ofBool _
  | connective op =>
      cases isKernel
      exact keeps.ofBool _
  | concat => cases isKernel

/-- A fold gives a good number, since each step has an item of the row on its left. -/
theorem Keeps.foldRight (op : Fold) {values : List α} (areGood : ∀ value ∈ values, IsGood good value)
    {result : α} {hitZero : Bool} (folded : foldRight? op values = some (result, hitZero)) :
    IsGood good result := by
  cases values with
  | nil => cases folded
  | cons first rest =>
      have ofFirst := areGood first List.mem_cons_self
      rw [foldRight?_cons] at folded
      split at folded
      · cases folded
        exact ofFirst
      · cases folded
        exact keeps.arithmetic _ ofFirst _

/-- A function of each number leads from good numbers to good ones. -/
theorem Keeps.pointwise (op : Pointwise) {numbers : Nested α} (areGood : AllGood good numbers) :
    GivesOnly (AllGood good) (pointwise op numbers) := by
  -- Each result comes from a number of the layout.
  have mapped {f : α → α} (each : ∀ n, IsGood good n → IsGood good (f n)) :
      AllGood good (numbers.map f) := by
    intro result isIn
    rw [Nested.items_map] at isIn
    obtain ⟨n, inNumbers, rfl⟩ := List.mem_map.mp isIn
    exact each n (areGood n inNumbers)
  cases op with
  | factorial =>
      rw [Domain.pointwise]
      split
      · exact .error trivial
      · exact .ok (mapped fun n _ => keeps.factorial _ n)
  | double => exact .ok (mapped fun n isGood => keeps.arithmetic .add isGood n)
  | square => exact .ok (mapped fun n isGood => keeps.arithmetic .multiply isGood n)

end

end Domain

/-- The items of a row of single items are those that it is made of. -/
theorem Nested.flat?_eq_some {α : Type} {parts : List (Nested α)} {values : List α}
    (flat : flat? parts = some values) : allItems parts = values := by
  induction parts generalizing values with
  | nil =>
      cases flat
      rfl
  | cons part parts inductionHypothesis =>
      cases part with
      | row inner => cases flat
      | item value =>
          simp only [flat?, Option.map_eq_some_iff] at flat
          obtain ⟨rest, ofRest, rfl⟩ := flat
          rw [allItems, inductionHypothesis ofRest]
          rfl

/-- Plain values and objects are good, and so are the keys that good indices lead to. The operators
on words lead from good words to good words. -/
structure Value.IsKept [NumericLibrary] (good : Value → Prop) : Prop where
  plain {value : Value} (isPlain : value.IsPlain) : good value
  object (ref : Ref) : good (.object ref)
  key {index : Value} {length : Nat} {place : Index} (isGood : good index)
    (checked : Index.check index length = .ok place) : good (Key.ofIndex place).value
  words : Domain.Keeps good Int

namespace Value.IsKept

variable [NumericLibrary] (kept : IsKept good)

include kept

/-- Texts are good, since they are plain. -/
theorem text (text : String) : good (.string text) :=
  kept.plain trivial

/-- Doubles are good, since they are plain. -/
theorem double (x : Float) : good (.float x) :=
  kept.plain trivial

/-- Truth values are good, since they are plain. -/
theorem truth (b : Bool) : good (.ofBool b) :=
  kept.plain (isPlain_ofBool b)

/-- All doubles are good, so the operators on them keep what is good. -/
theorem doubles : Domain.Keeps good Float :=
  .of_all kept.double

omit kept in
/-- Operators keep what all values have but some declarations. -/
theorem of_undeclared (undeclared : ∀ value, value.declaration? = none → good value) :
    IsKept good where
  plain {value} isPlain := undeclared value <| by
    cases value with
    | function _ _ => exact isPlain.elim
    | type _ _ => exact isPlain.elim
    | _ => rfl
  object _ := undeclared _ rfl
  key {_ _ place} _ _ := undeclared _ <| by cases place <;> rfl
  words := .of_all fun _ => undeclared _ rfl

end Value.IsKept

/-! ### Operands -/

namespace Operand

variable {operand : Operand}

/-- What a part of a row shows is shown by the row. -/
theorem all_row {parts : List Operand} : All good (.row parts) ↔ ∀ part ∈ parts, part.All good := by
  constructor
  · intro all part isIn copy inPart
    exact all copy (Nested.mem_allItems.mpr ⟨part, isIn, inPart⟩)
  · intro all copy isIn
    obtain ⟨part, inParts, inPart⟩ := Nested.mem_allItems.mp isIn
    exact all part inParts copy inPart

/-- A copy shows only good values if its own is good. -/
theorem all_item {copy : Copy} : All good (.item copy) ↔ good copy.value :=
  ⟨fun all => all copy List.mem_cons_self, fun isGood _ isIn =>
    List.mem_singleton.mp isIn ▸ isGood⟩

/-- An operand of good numbers shows good values. -/
theorem all_ofNumbers {α : Type} [Domain α] {numbers : Nested α}
    (areGood : Domain.AllGood good numbers) : (ofNumbers numbers).All good := by
  intro copy isIn
  rw [ofNumbers, Nested.items_map] at isIn
  obtain ⟨n, inNumbers, rfl⟩ := List.mem_map.mp isIn
  exact areGood n inNumbers

end Operand

variable [NumericLibrary]

section

variable {machine : Machine} (kept : Value.IsKept good)
  (complies : machine.Complies fun _ copy => good copy.value)

include kept complies

/-- What is good unfolds to good data. -/
theorem Heap.all_unfoldTo (depth : Nat) (around : List Ref) {value : Value} (isGood : good value) :
    (machine.heap.unfoldTo depth around value).All good := by
  -- The induction is on the length of the chains, which lead from objects to what they hold.
  induction depth generalizing around value with
  | zero => exact .atom isGood
  | succ depth inductionHypothesis =>
      cases value with
      | object ref =>
          unfold unfoldTo
          split
          · exact .atom (kept.object ref)
          · split
            · exact .atom (kept.object ref)
            · next items found =>
                refine .array fun datum isIn => ?_
                obtain ⟨item, inItems, rfl⟩ := List.mem_map.mp isIn
                exact inductionHypothesis _ (complies.objects ref _ found item inItems)
            · exact .record _
            · exact .constructor _ _
      | _ => exact .atom isGood

namespace Operand

omit kept complies

mutual

/-- An operand that shows good values unfolds to a datum of good values. -/
theorem all_unfold (kept : Value.IsKept good)
    (complies : machine.Complies fun _ copy => good copy.value) : {operand : Operand} →
    operand.All good → (operand.unfold machine.heap).All good
  | .item _, all => Heap.all_unfoldTo kept complies _ _ (all_item.mp all)
  | .row _, all => .array (all_unfoldAll kept complies (all_row.mp all))

/-- Parts that show good values unfold to data of good values, by the same induction. -/
theorem all_unfoldAll (kept : Value.IsKept good)
    (complies : machine.Complies fun _ copy => good copy.value) : {parts : List Operand} →
    (∀ part ∈ parts, part.All good) → ∀ datum ∈ unfoldAll machine.heap parts, datum.All good
  | [], _, _, isIn => absurd isIn List.not_mem_nil
  | _ :: _, all, datum, isIn => by
      rcases List.mem_cons.mp isIn with rfl | inRest
      · exact all_unfold kept complies (all _ List.mem_cons_self)
      · have rest := fun part isIn => all part (List.mem_cons_of_mem _ isIn)
        exact all_unfoldAll kept complies rest datum inRest

end

include kept complies

/-- Operands that show good values unfold to data of good values. -/
theorem all_map_unfold {items : List Operand} (all : ∀ item ∈ items, item.All good) :
    ∀ datum ∈ items.map (unfold machine.heap), datum.All good := by
  intro datum isIn
  obtain ⟨item, inItems, rfl⟩ := List.mem_map.mp isIn
  exact all_unfold kept complies (all item inItems)

variable {operand : Operand} (all : operand.All good)

include all

/-- The elements of an operand that shows good values show good values. -/
theorem givesOnly_elements (type : StaticType) :
    GivesOnly (fun items => ∀ item ∈ items, item.All good)
      (operand.elements machine.heap type) := by
  unfold elements
  split
  · split
    · next items hasItems =>
        refine .ok fun item isIn => ?_
        cases operand with
        | item copy =>
            simp only [items?, Option.map_eq_some_iff] at hasItems
            obtain ⟨copies, ofCopy, rfl⟩ := hasItems
            obtain ⟨element, inCopies, rfl⟩ := List.mem_map.mp isIn
            exact all_item.mpr (complies.items kept.text ofCopy element inCopies)
        | row parts =>
            cases hasItems
            exact all_row.mp all item isIn
    · exact .error trivial
  · refine .ok fun item isIn => ?_
    exact List.mem_singleton.mp isIn ▸ all

/-- An element of an operand that shows good values shows good values. -/
theorem givesOnly_element (place : Nat) :
    GivesOnly (All good) (operand.element machine.heap place) := by
  cases operand with
  | item copy =>
      rw [element]
      cases found : machine.heap.element copy.value (.word place) with
      | error failure => exact .error trivial
      | ok held => exact .ok (all_item.mpr (complies.element kept.text found))
  | row parts =>
      simp only [element]
      split
      · next atPlace => exact .ok (all_row.mp all _ (List.mem_of_getElem? atPlace))
      · exact .error trivial

/-- The numbers of an operand that shows good values are good. -/
theorem givesOnly_numbers {α : Type} [Domain α] (keeps : Domain.Keeps good α) (type : StaticType) :
    GivesOnly (Domain.AllGood good)
      (operand.numbers machine.heap type : Except Failure (Nested α)) := by
  unfold numbers
  split
  · split
    · exact (givesOnly_elements kept complies all _).bind fun items areGood =>
        keeps.ofData (all_map_unfold kept complies areGood)
    · exact .error trivial
  · split
    · exact keeps.ofDatum (all_unfold kept complies all)
    · exact .error trivial

omit complies all in
/-- What becomes a double is one. -/
theorem givesOnly_asDouble (heap : Heap) (operand : Operand) :
    GivesOnly (fun copy => good copy.value) (operand.asDouble heap) := by
  unfold asDouble
  split
  · exact .ok (kept.double _)
  · exact (Yields.any _).map fun x _ => kept.double x

end Operand

end

/-! ### Diadic operators -/

namespace Coerced

/-- The numbers on the left are good. -/
def IsGood (good : Value → Prop) : Coerced → Prop
  | .words left _ => Domain.AllGood good left
  | .doubles left _ => Domain.AllGood good left

omit [NumericLibrary] in
/-- `Coerced.applyIn` leads from good numbers on the left to good ones, as each result has one of
them on its left. -/
theorem givesOnly_applyIn {α : Type} [Domain α] (keeps : Domain.Keeps good α) (op : DiadicOp)
    {left : Nested α} (areGood : Domain.AllGood good left) (right : Nested α) :
    GivesOnly (Domain.AllGood good) (applyIn op left right) := by
  unfold applyIn
  split
  · exact .error trivial
  · exact .error trivial
  · next kernel isKernel _ =>
      split
      · exact .error trivial
      · next pairs paired =>
          split
          · exact .error trivial
          · refine .ok fun result isIn => ?_
            rw [Nested.items_map] at isIn
            obtain ⟨pair, inPairs, rfl⟩ := List.mem_map.mp isIn
            have ofLeft := areGood pair.1 (Nested.fst_mem_of_pairs? paired pair inPairs)
            exact keeps.kernel isKernel ofLeft pair.2

/-- `Coerced.apply` leads from good numbers on the left to a good operand. -/
theorem givesOnly_apply (kept : Value.IsKept good) (op : DiadicOp) {pair : Coerced}
    (isGood : pair.IsGood good) : GivesOnly (Operand.All good) (pair.apply op) := by
  cases pair with
  | words left right =>
      exact (givesOnly_applyIn kept.words op isGood right).map fun _ => Operand.all_ofNumbers
  | doubles left right =>
      exact (givesOnly_applyIn kept.doubles op isGood right).map fun _ => Operand.all_ofNumbers

end Coerced

namespace Operation

section

variable {machine : Machine} (kept : Value.IsKept good)
  (complies : machine.Complies fun _ copy => good copy.value)

include kept complies

section

variable {left right : Operand} (ofLeft : left.All good) (ofRight : right.All good)

include ofLeft ofRight

omit ofRight in
/-- A left operand that shows good values is coerced to good numbers. -/
theorem givesOnly_ofOperands (leftType rightType : StaticType) :
    GivesOnly (Coerced.IsGood good)
      (Coerced.ofOperands machine.heap leftType rightType left right) := by
  unfold Coerced.ofOperands
  split
  · exact (Operand.givesOnly_numbers kept complies ofLeft kept.doubles leftType).bind
      fun _ areGood => (Yields.any _).bind fun _ _ => .ok areGood
  · exact (Operand.givesOnly_numbers kept complies ofLeft kept.words leftType).bind
      fun _ areGood => (Yields.any _).bind fun _ _ => .ok areGood

/-- Laying out passes on the elements of both operands. -/
theorem givesOnly_layOut (leftType rightType : StaticType) :
    GivesOnly (Operand.All good) (layOut machine.heap leftType rightType left right) := by
  refine (Operand.givesOnly_elements kept complies ofLeft leftType).bind fun _ leftGood => ?_
  refine (Operand.givesOnly_elements kept complies ofRight rightType).bind fun _ rightGood => ?_
  dsimp only
  split
  · refine (Yields.mapM (Operand.givesOnly_asDouble kept machine.heap) _).bind
      fun items areGood => .ok fun copy isIn => ?_
    rw [Nested.items_ofList] at isIn
    exact areGood copy isIn
  · refine .ok (Operand.all_row.mpr fun item isIn => ?_)
    exact (List.mem_append.mp isIn).elim (leftGood item) (rightGood item)

/-- A diadic operator leads from good operands to a good one. -/
theorem givesOnly_diadic (op : DiadicOp) (leftType rightType : StaticType) :
    GivesOnly (Operand.All good) (diadic machine.heap op leftType rightType left right) := by
  unfold diadic
  split
  · refine .ok (Operand.all_item.mpr ?_)
    rw [value_join]
    exact kept.text _
  · exact givesOnly_layOut kept complies ofLeft ofRight leftType rightType
  · refine (givesOnly_ofOperands kept complies ofLeft leftType rightType).bind
      fun pair isGood => ?_
    dsimp only
    split
    · exact .error trivial
    · exact Coerced.givesOnly_apply kept op isGood
  · exact (givesOnly_ofOperands kept complies ofLeft leftType rightType).bind
      fun pair isGood => Coerced.givesOnly_apply kept op isGood
  · exact .ok (Operand.all_item.mpr (kept.truth _))
  · exact .ok (Operand.all_item.mpr (kept.truth _))
  · exact .error trivial

/-- The results of the outer operators of a fork are operands of the middle one. -/
theorem givesOnly_combine (middle : DiadicOp) :
    GivesOnly (Operand.All good) (combine machine.heap middle left right) :=
  (Yields.any _).bind fun leftType _ => (Yields.any _).bind fun rightType _ =>
    givesOnly_diadic kept complies ofLeft ofRight middle leftType rightType

end

/-! ### Monadic operators -/

section

variable {α : Type} [Domain α] (keeps : Domain.Keeps good α)

include keeps

omit kept complies in
omit [NumericLibrary] in
/-- A monadic operator leads from good numbers to good ones. -/
theorem givesOnly_onNumbers (op : MonadicOp) {numbers : Nested α}
    (areGood : Domain.AllGood good numbers) :
    GivesOnly (Domain.AllGood good) (onNumbers op numbers) := by
  cases op with
  | pointwise op => exact keeps.pointwise op areGood
  | quantifier op => exact .ok (Domain.allGood_item (keeps.ofBool _))
  | fold op =>
      cases numbers with
      | item n => exact .ok areGood
      | row parts =>
          simp only [onNumbers]
          split
          · exact .error trivial
          · next values flat =>
              have valuesGood : ∀ value ∈ values, Domain.IsGood good value := fun value isIn =>
                areGood value (by rw [← Nested.flat?_eq_some flat] at isIn; exact isIn)
              split
              · exact .error trivial
              · next folded =>
                  split
                  · exact .error trivial
                  · exact .ok (Domain.allGood_item (keeps.foldRight op valuesGood folded))
  | last => exact .ok areGood
  | count => exact .ok (Domain.allGood_item keeps.one)

omit kept complies in
omit [NumericLibrary] in
/-- What a monadic operator gives for no elements is good: there is none, or `zero` or `one`. -/
theorem givesOnly_onEmpty (op : MonadicOp) :
    GivesOnly (Domain.AllGood good (α := α)) (onEmpty α op) := by
  cases op with
  | pointwise op => exact .ok fun _ isIn => absurd isIn List.not_mem_nil
  | quantifier op => exact .ok (Domain.allGood_item (keeps.ofBool _))
  | fold op =>
      cases op with
      | sum => exact .ok (Domain.allGood_item keeps.zero)
      | product => exact .ok (Domain.allGood_item keeps.one)
      | _ => exact .error trivial
  | _ => exact .error trivial

/-- `Operation.onNumber` leads from a good number to a good operand. -/
theorem givesOnly_onNumber (op : MonadicOp) {operand : Operand} (all : operand.All good) :
    GivesOnly (Operand.All good) (onNumber α machine.heap op operand) :=
  (keeps.ofDatum (Operand.all_unfold kept complies all)).bind
    fun _ areGood => (givesOnly_onNumbers keeps op areGood).bind
    fun _ areGood => .ok (Operand.all_ofNumbers areGood)

/-- `Operation.onItems` leads from good elements to a good operand. -/
theorem givesOnly_onItems (op : MonadicOp) (component : StaticType) {items : List Operand}
    (all : ∀ item ∈ items, item.All good) :
    GivesOnly (Operand.All good) (onItems α machine.heap op component items) := by
  unfold onItems
  split
  · exact (givesOnly_onEmpty keeps op).map fun _ => Operand.all_ofNumbers
  · split
    · exact (keeps.ofData (Operand.all_map_unfold kept complies all)).bind
        fun _ areGood => (givesOnly_onNumbers keeps op areGood).bind
        fun _ areGood => .ok (Operand.all_ofNumbers areGood)
    · exact .error trivial

end

/-- `Operation.onScalar` leads from a good operand to a good one. -/
theorem givesOnly_onScalar (op : MonadicOp) (type : StaticType) {operand : Operand}
    (all : operand.All good) :
    GivesOnly (Operand.All good) (onScalar machine.heap op type operand) := by
  unfold onScalar
  split
  · refine (Operand.givesOnly_asDouble kept machine.heap operand).bind fun double isGood => ?_
    have single := Operand.all_item.mpr isGood
    cases op with
    | pointwise op => exact givesOnly_onNumber kept complies kept.doubles _ single
    | quantifier op => exact givesOnly_onNumber kept complies kept.doubles _ single
    | count => exact .ok (Operand.all_item.mpr (kept.double _))
    | _ => exact .ok single
  · cases op with
    | pointwise op => exact givesOnly_onNumber kept complies kept.words _ all
    | quantifier op => exact givesOnly_onNumber kept complies kept.words _ all
    | count => exact .ok (Operand.all_item.mpr kept.words.one)
    | _ => exact .ok all

variable {copy : Copy} (isGood : good copy.value)
  (counted : ∀ items, machine.heap.items? copy.value = some items → good (.int items.length))

include isGood counted

/-- A monadic operator on an array leads from good elements to a good value, if its length is one. -/
theorem givesOnly_onArray (op : MonadicOp) (component : StaticType) :
    GivesOnly (Operand.All good) (onArray machine.heap op component (.item copy)) := by
  have all := Operand.all_item.mpr isGood
  have elements := Operand.givesOnly_elements kept complies all component.array
  have count : GivesOnly (fun items => good (.int (List.length items)))
      (Operand.elements machine.heap component.array (.item copy)) := by
    unfold Operand.elements
    split
    · split
      · next items hasItems =>
          simp only [Operand.items?, Option.map_eq_some_iff] at hasItems
          obtain ⟨copies, ofCopy, rfl⟩ := hasItems
          exact .ok (by rw [List.length_map]; exact counted copies ofCopy)
      · exact .error trivial
    · exact .ok kept.words.one
  unfold onArray
  refine (elements.and count).bind fun items goodAndCounted => ?_
  obtain ⟨areGood, isCounted⟩ := goodAndCounted
  cases op with
  | count => exact .ok (Operand.all_item.mpr isCounted)
  | last =>
      dsimp only
      split
      · exact .error trivial
      · exact Operand.givesOnly_element kept complies all _
  | _ =>
      dsimp only
      split
      · exact givesOnly_onItems kept complies kept.doubles _ component areGood
      · exact givesOnly_onItems kept complies kept.words _ component areGood

/-- A monadic operator leads from a good value to a good one. -/
theorem givesOnly_monadic (op : MonadicOp) (type : StaticType) :
    GivesOnly (Operand.All good) (monadic machine.heap op type (.item copy)) := by
  unfold monadic
  split
  · exact givesOnly_onArray kept complies isGood counted op _
  · split
    · exact givesOnly_onScalar kept complies op _ (Operand.all_item.mpr isGood)
    · exact .error trivial

end

end Operation

/-! ### Standards -/

/-- A property that operators keep is a lawful standard, if the lengths of admitted values have it
and the declarations that are declared. -/
theorem Standard.isLawful_of_kept {admitted : Standard} {declared : NodeId → Prop}
    (kept : Value.IsKept good)
    (counted : ∀ machine copy items, admitted machine copy →
      machine.heap.items? copy.value = some items → good (.int items.length))
    (isGood : ∀ value id, value.declaration? = some id → declared id → good value) :
    IsLawful (fun _ copy => good copy.value) admitted declared where
  mono _ meets := meets
  plain _ _ isPlain := kept.plain isPlain
  written _ _ _ isPlain := kept.plain isPlain
  declaration _ value id isDeclaration isDeclared := isGood value id isDeclaration isDeclared
  object _ ref _ := kept.object ref
  counted _ isAdmitted hasItems := counted _ _ _ isAdmitted hasItems
  key meets checked := kept.key meets checked
  ofValue meets := meets
  shown _ := kept.text _
  kept {machine copy} meets := by
    rw [Copy.value_keep]
    exact meets
  diadic {machine left right op leftType rightType result} complies ofLeft ofRight applied := by
    have gives := Operation.givesOnly_diadic kept complies (Operand.all_item.mpr ofLeft)
      (Operand.all_item.mpr ofRight) op leftType rightType
    rw [applied] at gives
    exact gives.good_of_ok
  monadic {machine value op type result} complies ofValue isAdmitted applied := by
    have gives := Operation.givesOnly_monadic kept complies ofValue
      (fun items => counted machine value items isAdmitted) op type
    rw [applied] at gives
    exact gives.good_of_ok
  monadicFork {machine value fork type result} complies ofValue isAdmitted applied := by
    have outer (op : MonadicOp) := Operation.givesOnly_monadic kept complies ofValue
      (fun items => counted machine value items isAdmitted) op type
    have gives : GivesOnly (Operand.All good)
        (Operation.monadicFork machine.heap fork type (.item value)) :=
      (outer fork.left).bind fun _ ofLeft => (outer fork.right).bind fun _ ofRight =>
        Operation.givesOnly_combine kept complies ofLeft ofRight fork.middle
    rw [applied] at gives
    exact gives.good_of_ok
  diadicFork {machine left right fork leftType rightType result} complies ofLeft ofRight applied := by
    have outer (op : DiadicOp) := Operation.givesOnly_diadic kept complies
      (Operand.all_item.mpr ofLeft) (Operand.all_item.mpr ofRight) op leftType rightType
    have gives : GivesOnly (Operand.All good)
        (Operation.diadicFork machine.heap fork leftType rightType (.item left) (.item right)) :=
      (outer fork.left).bind fun _ ofLeft => (outer fork.right).bind fun _ ofRight =>
        Operation.givesOnly_combine kept complies ofLeft ofRight fork.middle
    rw [applied] at gives
    exact gives.good_of_ok

end ArrayForks
