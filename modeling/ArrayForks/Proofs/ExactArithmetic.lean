import ArrayForks.Proofs.Reductions
import Mathlib.Algebra.BigOperators.Group.List.Basic
import Mathlib.Algebra.Ring.Int.Defs

/-! # Exact arithmetic

Some operators on words commute with wrapping: sums, differences, products, doubles and squares, alone
and element by element, folds of the first three, and laying out. For these there is an exact result
over all integers, and applied to wrapped operands an operator gives the words of its exact
result. -/

namespace ArrayForks

/-! ### The exact worth of an expression -/

/-- What an expression is worth over all integers: a number or a row of numbers. -/
inductive Exact where
  /-- A number. -/
  | number (n : Int)
  /-- A row of numbers. -/
  | row (ns : List Int)
  deriving DecidableEq, Repr

/-- The exact operator of an arithmetic operator that commutes with wrapping. -/
def Arithmetic.unwrapped? : Arithmetic → Option (Int → Int → Int)
  | .multiply => some fun m n => m * n
  | .add => some fun m n => m + n
  | .subtract => some fun m n => m - n
  | _ => none

/-- The exact function of an operator on each number that commutes with wrapping. -/
def Pointwise.unwrapped? : Pointwise → Option (Int → Int)
  | .double => some fun n => n + n
  | .square => some fun n => n * n
  | .factorial => none

/-- The exact fold of a row. Only quotients have none, and there is no difference of nothing. -/
def Fold.unwrapped? : Fold → List Int → Option Int
  | .sum, ns => some ns.sum
  | .product, ns => some ns.prod
  | .difference, ns => if ns.isEmpty then none else some ns.alternatingSum
  | .quotient, _ => none

namespace Exact

/-- The numbers in order. -/
def items : Exact → List Int
  | .number n => [n]
  | .row ns => ns

/-- A function of each number. -/
def map (f : Int → Int) : Exact → Exact
  | .number n => .number (f n)
  | .row ns => .row (ns.map f)

/-- A function of two numbers, of a number with each of a row, or of the numbers of two rows of one
length. -/
def lift? (f : Int → Int → Int) : Exact → Exact → Option Exact
  | .number m, .number n => some (.number (f m n))
  | .number m, .row ns => some (.row (ns.map fun n => f m n))
  | .row ms, .number n => some (.row (ms.map fun m => f m n))
  | .row ms, .row ns => if ms.length = ns.length then some (.row (ms.zipWith f ns)) else none

/-- A diadic operator that commutes with wrapping. -/
def diadic? (op : DiadicOp) (left right : Exact) : Option Exact :=
  match op with
  | .arithmetic op => op.unwrapped?.bind fun f => lift? f left right
  | .concat => some (.row (left.items ++ right.items))
  | _ => none

/-- A monadic operator that commutes with wrapping. -/
def monadic? (op : MonadicOp) (operand : Exact) : Option Exact :=
  match op, operand with
  | .pointwise op, operand => op.unwrapped?.map fun f => operand.map f
  | .fold op, .row ns => (op.unwrapped? ns).map .number
  | _, _ => none

/-- The type of an expression of a worth. -/
def type : Exact → NumericType
  | .number _ => ⟨false, false⟩
  | .row _ => ⟨true, false⟩

/-- An exact worth is one of words. -/
theorem isFloating_type (exact : Exact) : exact.type.isFloating = false := by
  cases exact with
  | number n => rfl
  | row ns => rfl

/-- All numbers wrapped to words. -/
def words : Exact → Nested Int
  | .number n => .item (Word.wrap n)
  | .row ns => .ofList (ns.map Word.wrap)

/-- All numbers wrapped to words, as a datum. -/
def wrapped : Exact → Datum
  | .number n => .atom (.int (Word.wrap n))
  | .row ns => .array (ns.map fun n => .atom (.int (Word.wrap n)))

end Exact

namespace Node

mutual

/-- What an expression of operators that commute with wrapping is worth over all integers. -/
def worth? : Node → Option Exact
  | .int _ value => some (.number value)
  | .paren _ inner => inner.worth?
  | .array _ items => (worthAll? items).map .row
  | .diadic _ left op right =>
      left.worth?.bind fun m => right.worth?.bind fun n => Exact.diadic? op m n
  | .monadic _ op operand => operand.worth?.bind fun n => Exact.monadic? op n
  | _ => none
termination_by structural node => node

/-- What several expressions of single numbers are worth. -/
def worthAll? : List Node → Option (List Int)
  | [] => some []
  | item :: items =>
      match item.worth?, worthAll? items with
      | some (.number n), some ns => some (n :: ns)
      | _, _ => none
termination_by structural items => items

end

end Node

/-! ### Operators on wrapped numbers -/

section

variable [NumericLibrary] {op : Arithmetic} {f : Int → Int → Int}

/-- Operands may be wrapped before an operator that wraps its result. -/
theorem Word.arithmetic_exact (isExact : op.unwrapped? = some f) (m n : Int) :
    arithmetic op (wrap m) (wrap n) = wrap (f m n) := by
  cases op with
  | multiply => cases isExact; simp [arithmetic]
  | add => cases isExact; simp [arithmetic]
  | subtract => cases isExact; simp [arithmetic]
  | _ => cases isExact

/-- An operator that commutes with wrapping never traps on words. -/
theorem Domain.trapOnRights?_exact (isExact : op.unwrapped? = some f) (rights : List Int) :
    trapOnRights? (.arithmetic op) rights = none := by
  refine List.findSome?_eq_none_iff.mpr fun right _ => ?_
  cases op with
  | divide => cases isExact
  | remainder => cases isExact
  | _ => rfl

/-- An operator that commutes with wrapping never traps on pairs of words. -/
theorem Domain.trapOnPairs?_exact (isExact : op.unwrapped? = some f) (pairs : List (Int × Int)) :
    trapOnPairs? (.arithmetic op) pairs = none := by
  refine List.findSome?_eq_none_iff.mpr fun pair _ => ?_
  cases op with
  | exponent => cases isExact
  | _ => rfl

/-- An operator that commutes with wrapping works on words that are paired up. -/
theorem Coerced.applyIn_of_paired (isExact : op.unwrapped? = some f) {left right : Nested Int}
    {pairs : Nested (Int × Int)} (paired : left.pairs? right = some pairs) :
    applyIn (.arithmetic op) left right =
      .ok (pairs.map fun pair => Word.arithmetic op pair.1 pair.2) := by
  have isKernel : Domain.kernel? (right.isSpreadOver left) (.arithmetic op) =
      some (Word.arithmetic op) := Domain.kernel?_words _ _
  rw [applyIn, isKernel, Domain.trapOnRights?_exact isExact, paired]
  dsimp only
  rw [Domain.trapOnPairs?_exact isExact]

/-- An operator that commutes with wrapping gives the words of its exact result. -/
theorem Coerced.applyIn_words (isExact : op.unwrapped? = some f) {left right result : Exact}
    (lifted : Exact.lift? f left right = some result) :
    applyIn (.arithmetic op) left.words right.words = .ok result.words := by
  have wraps := Word.arithmetic_exact isExact
  cases left with
  | number m =>
      cases right with
      | number n =>
          cases lifted
          rw [Exact.words, Exact.words, applyIn_of_paired isExact (Nested.pairs?_item_item _ _),
            Nested.map_item, wraps]
          rfl
      | row ns =>
          cases lifted
          rw [Exact.words, Exact.words, applyIn_of_paired isExact (Nested.pairs?_item_ofList _ _)]
          simp [Exact.words, Function.comp_def, wraps]
  | row ms =>
      cases right with
      | number n =>
          cases lifted
          rw [Exact.words, Exact.words, applyIn_of_paired isExact (Nested.pairs?_ofList_item _ _)]
          simp [Exact.words, Function.comp_def, wraps]
      | row ns =>
          rw [Exact.lift?] at lifted
          split at lifted
          · next same =>
              cases lifted
              have lengths : (ms.map Word.wrap).length = (ns.map Word.wrap).length := by
                simpa using same
              rw [Exact.words, Exact.words,
                applyIn_of_paired isExact (Nested.pairs?_ofList lengths)]
              simp [Exact.words, List.zip_map, wraps, List.map_zipWith, List.map_zip_eq_zipWith]
          · cases lifted

/-- An operator on each number that commutes with wrapping gives the words of its exact results. -/
theorem Domain.pointwise_words {op : Pointwise} {f : Int → Int} (isExact : op.unwrapped? = some f)
    (operand : Exact) : pointwise op operand.words = .ok (operand.map f).words := by
  have of_wraps {g : Int → Int} (wraps : ∀ n, g (Word.wrap n) = Word.wrap (f n)) :
      operand.words.map g = (operand.map f).words := by
    cases operand with
    | number n => exact congrArg Nested.item (wraps n)
    | row ns => simp [Exact.words, Exact.map, Function.comp_def, wraps]
  cases op with
  | factorial => cases isExact
  | double =>
      cases isExact
      have wraps (n : Int) : Word.arithmetic .add (Word.wrap n) (Word.wrap n) = Word.wrap (n + n) :=
        Word.arithmetic_exact rfl n n
      exact congrArg Except.ok (of_wraps wraps)
  | square =>
      cases isExact
      have wraps (n : Int) :
          Word.arithmetic .multiply (Word.wrap n) (Word.wrap n) = Word.wrap (n * n) :=
        Word.arithmetic_exact rfl n n
      exact congrArg Except.ok (of_wraps wraps)

omit [NumericLibrary] in
/-- A function that puts an operator before the rest of a row puts it between all numbers. -/
theorem Fold.eq_foldr {g : List Int → Int} (ofOne : ∀ n, g [n] = n)
    (ofMore : ∀ m ns, g (m :: ns) = f m (g ns)) (init : List Int) (last : Int) :
    g (init ++ [last]) = init.foldr f last := by
  induction init with
  | nil => exact ofOne last
  | cons first init inductionHypothesis =>
      rw [List.cons_append, ofMore, inductionHypothesis, List.foldr_cons]

omit [NumericLibrary] in
/-- The exact fold of a row that is not empty puts an operator between its numbers, from the
right. -/
theorem Fold.unwrapped?_append_singleton {op : Fold} (isExact : op.arithmetic.unwrapped? = some f)
    (init : List Int) (last : Int) : op.unwrapped? (init ++ [last]) = some (init.foldr f last) := by
  cases op with
  | sum =>
      cases isExact
      exact congrArg some
        (eq_foldr (fun _ => List.sum_singleton) (fun _ _ => List.sum_cons) init last)
  | product =>
      cases isExact
      exact congrArg some
        (eq_foldr (fun _ => List.prod_singleton) (fun _ _ => List.prod_cons) init last)
  | difference =>
      cases isExact
      rw [unwrapped?, if_neg (by simp)]
      exact congrArg some (eq_foldr (fun _ => rfl) List.alternatingSum_cons init last)
  | quotient => cases isExact

/-- The steps of a fold that commutes with wrapping give the word of the exact result. -/
theorem Domain.foldrM_foldStep_words {op : Fold} (isExact : op.arithmetic.unwrapped? = some f)
    (init : List Int) (last : Int) :
    (init.map Word.wrap).foldrM (foldStep op) (Word.wrap last) =
      .ok (Word.wrap (init.foldr f last)) := by
  induction init with
  | nil => rfl
  | cons first init inductionHypothesis =>
      have noTrap : foldTraps Int op = false := by
        cases op with
        | quotient => cases isExact
        | _ => rfl
      rw [List.map_cons, List.foldrM_cons, inductionHypothesis]
      change foldStep op (Word.wrap first) (Word.wrap (init.foldr f last)) = _
      rw [foldStep_eq, noTrap, Bool.and_false, if_neg Bool.false_ne_true, List.foldr_cons,
        ← Word.arithmetic_exact isExact]
      rfl

end

namespace Exact

/-! ### Operands of an exact worth -/

/-- An operand shows the words of an exact worth. -/
def ShownBy (exact : Exact) (heap : Heap) (operand : Operand) : Prop :=
  ∃ content, Operand.Shows heap exact.type operand content ∧
    Operand.values content = exact.words.map Value.int

/-- What shows words shows them in any larger heap. -/
theorem ShownBy.mono {exact : Exact} {before after : Heap} {operand : Operand}
    (shown : exact.ShownBy before operand) (extended : before.Extends after) :
    exact.ShownBy after operand := by
  obtain ⟨content, shown, values⟩ := shown
  exact ⟨content, shown.mono extended, values⟩

/-- The words of an exact worth are an operand that shows them. -/
theorem shownBy_ofNumbers [NumericLibrary] (exact : Exact) (heap : Heap) :
    exact.ShownBy heap (Operand.ofNumbers exact.words) := by
  cases exact with
  | number n => exact ⟨_, .number rfl rfl, rfl⟩
  | row ns =>
      rw [Operand.ofNumbers, words, Nested.map_ofList]
      refine ⟨_, .row rfl ?_, ?_⟩
      · intro copy isIn
        obtain ⟨n, -, rfl⟩ := List.mem_map.mp isIn
        rfl
      · rw [words, Operand.values, Nested.map_ofList, Nested.map_ofList, List.map_map]
        rfl

/-- What shows a word is a copy of it. -/
theorem ShownBy.number {n : Int} {heap : Heap} {operand : Operand}
    (shown : (Exact.number n).ShownBy heap operand) :
    ∃ copy, operand = .item copy ∧ copy.value = .int (Word.wrap n) := by
  obtain ⟨content, shown, values⟩ := shown
  cases shown with
  | number scalar isNumber => exact ⟨_, rfl, Nested.item.inj values⟩
  | array array found areNumbers => cases array
  | row array areNumbers => cases array

/-- The values of words one by one. -/
theorem items_eq {exact : Exact} {content : Nested Copy}
    (values : Operand.values content = exact.words.map Value.int) :
    content.items.map Copy.value = exact.items.map fun n => .int (Word.wrap n) := by
  have inOrder := congrArg Nested.items values
  rw [Operand.values, Nested.items_map, Nested.items_map] at inOrder
  cases exact with
  | number n => exact inOrder
  | row ns =>
      rw [words, Nested.items_ofList, List.map_map] at inOrder
      exact inOrder

/-- Copies with the values of words are read as these words. -/
theorem numbers_eq [NumericLibrary] {exact : Exact} {content : Nested Copy}
    (values : Operand.values content = exact.words.map Value.int) :
    (content.map fun copy => (Domain.Reads.number copy.value : Int)) = exact.words := by
  have read := congrArg (Nested.map Word.number) values
  rw [Operand.values, Nested.map_map, Nested.map_map] at read
  have itself : exact.words.map (Word.number ∘ Value.int) = exact.words := by
    cases exact with
    | number n => rfl
    | row ns =>
        rw [words, Nested.map_ofList, List.map_map]
        rfl
  exact read.trans itself

/-- What shows words refers to their datum. -/
theorem ShownBy.unfold_eq {exact : Exact} {heap : Heap} {copy : Copy}
    (shown : exact.ShownBy heap (.item copy)) : heap.unfold copy.value = exact.wrapped := by
  cases exact with
  | number n =>
      obtain ⟨other, same, value⟩ := shown.number
      cases same
      have isNumber : (Value.int (Word.wrap n)).IsNumber false := rfl
      rw [value]
      exact heap.unfold_number (isNumber.fitsInto id)
  | row ns =>
      obtain ⟨content, shown, values⟩ := shown
      cases shown with
      | number scalar isNumber => cases scalar
      | array array found areNumbers =>
          have fit := fun item isIn => (areNumbers item isIn).fitsInto id
          have inOrder := items_eq values
          rw [Nested.items_ofList] at inOrder
          rw [Heap.unfold_array found fit, inOrder, List.map_map]
          rfl

/-- Rows of words that are lifted together are of one length. -/
theorem lengths_of_lift? {f : Int → Int → Int} {m n result : Exact}
    (lifted : lift? f m n = some result) (leftArray : m.type.isArray = true)
    (rightArray : n.type.isArray = true) : m.words.length = n.words.length := by
  cases m with
  | number m => cases leftArray
  | row ms =>
      cases n with
      | number n => cases rightArray
      | row ns =>
          rw [lift?] at lifted
          split at lifted
          · next same => simpa [words] using same
          · cases lifted

end Exact

namespace Operation

open Exact (ShownBy)

variable [NumericLibrary] {heap : Heap} {left right operand : Operand} {m n exact result : Exact}

/-- A diadic operator that commutes with wrapping gives the words of its exact result. -/
theorem diadic_shownBy {op : DiadicOp} (leftShown : m.ShownBy heap left)
    (rightShown : n.ShownBy heap right) (isExact : Exact.diadic? op m n = some result) :
    ∃ given, diadic heap op m.type.static n.type.static left right = .ok given ∧
      result.ShownBy heap given := by
  obtain ⟨leftContent, leftShown, leftValues⟩ := leftShown
  obtain ⟨rightContent, rightShown, rightValues⟩ := rightShown
  cases op with
  | arithmetic op =>
      obtain ⟨f, exactly, lifted⟩ := Option.bind_eq_some_iff.mp isExact
      have leftNumbers := Exact.numbers_eq leftValues
      have rightNumbers := Exact.numbers_eq rightValues
      -- The worth of both together exists, so arrays of them are of one length.
      have same : ¬ (m.type.isArray && n.type.isArray &&
          leftContent.length != rightContent.length) = true := by
        rw [Bool.and_eq_true, Bool.and_eq_true, bne_iff_ne]
        rintro ⟨⟨leftArray, rightArray⟩, differ⟩
        have lengths := Exact.lengths_of_lift? lifted leftArray rightArray
        rw [← leftNumbers, ← rightNumbers, Nested.length_map, Nested.length_map] at lengths
        exact differ lengths
      refine ⟨_, ?_, result.shownBy_ofNumbers heap⟩
      rw [diadic_eq (by simp) leftShown rightShown, if_neg same, Coerced.apply_ofContents,
        m.isFloating_type, n.isFloating_type, Bool.or_false, if_neg Bool.false_ne_true,
        Coerced.compute, leftNumbers, rightNumbers, Coerced.applyIn_words exactly lifted]
      rfl
  | concat =>
      cases isExact
      have fit := fit_append leftShown rightShown
      rw [m.isFloating_type, n.isFloating_type] at fit
      refine ⟨_, ?_, .ofList (leftContent.items ++ rightContent.items),
        .row rfl fun copy isIn => ?_, ?_⟩
      · rw [diadic_concat leftShown rightShown, m.isFloating_type, n.isFloating_type]
        rfl
      · obtain ⟨word, isWord⟩ := (fit copy isIn).word
        rw [isWord]
        rfl
      · rw [Operand.values, Nested.map_ofList, List.map_append, Exact.items_eq leftValues,
          Exact.items_eq rightValues, Exact.words, Nested.map_ofList, List.map_map, List.map_append]
        rfl
  | _ => cases isExact

/-- A fold that commutes with wrapping gives the word of the exact fold. -/
theorem reduce_fold_words {op : Fold} {ns : List Int} {folded : Int}
    (isExact : op.unwrapped? ns = some folded) {copies : List Copy}
    (numbers : (copies.map fun copy => (Domain.Reads.number copy.value : Int)) =
      ns.map Word.wrap) :
    reduce Int (.fold op) copies = .ok (.item (Word.wrap folded)) := by
  rcases ns.eq_nil_or_concat with rfl | ⟨init, last, rfl⟩
  · have nothing : copies = [] := by simpa using numbers
    subst nothing
    cases op with
    | sum => cases isExact; rfl
    | product => cases isExact; rfl
    | difference => cases isExact
    | quotient => cases isExact
  · obtain ⟨f, exactly⟩ : ∃ f, op.arithmetic.unwrapped? = some f := by
      cases op with
      | quotient => cases isExact
      | _ => exact ⟨_, rfl⟩
    rw [List.concat_eq_append] at isExact numbers
    rw [Fold.unwrapped?_append_singleton exactly] at isExact
    cases isExact
    rw [List.map_append] at numbers
    obtain ⟨before, after, rfl, first, second⟩ := List.map_eq_append_iff.mp numbers
    obtain ⟨copy, rfl, isLast⟩ := List.map_eq_singleton_iff.mp second
    rw [reduce_fold_eq, first, isLast, Domain.foldrM_foldStep_words exactly]
    rfl

/-- A function of each word that commutes with wrapping gives the words of its exact results, also
where there are none. -/
theorem reduce_pointwise_words {op : Pointwise} {f : Int → Int} (isExact : op.unwrapped? = some f)
    {ns : List Int} {copies : List Copy}
    (numbers : (copies.map fun copy => (Domain.Reads.number copy.value : Int)) =
      ns.map Word.wrap) :
    reduce Int (.pointwise op) copies = .ok ((Exact.row ns).map f).words := by
  cases copies with
  | nil =>
      have nothing : ns = [] := by simpa using numbers.symm
      subst nothing
      rfl
  | cons copy copies =>
      rw [reduce, if_neg (by simp), numbers, onNumbers]
      exact Domain.pointwise_words isExact (.row ns)

/-- A monadic operator that commutes with wrapping gives the words of its exact result. -/
theorem monadic_shownBy {op : MonadicOp} (shown : exact.ShownBy heap operand)
    (isExact : Exact.monadic? op exact = some result) :
    ∃ given, monadic heap op exact.type.static operand = .ok given ∧
      result.ShownBy heap given := by
  refine ⟨_, ?_, result.shownBy_ofNumbers heap⟩
  cases exact with
  | number n =>
      obtain ⟨copy, rfl, isWord⟩ := shown.number
      have fits : copy.value.FitsInto false := by
        have isNumber : (Value.int (Word.wrap n)).IsNumber false := rfl
        rw [isWord]
        exact isNumber.fitsInto id
      have number : (Domain.Reads.number copy.value : Int) = Word.wrap n := by
        rw [isWord]
        rfl
      cases op with
      | pointwise op =>
          obtain ⟨f, exactly, rfl⟩ := Option.map_eq_some_iff.mp isExact
          change onNumber Int heap (.pointwise op) (.item copy) = _
          rw [onNumber_eq _ fits, number]
          change (Domain.pointwise op (Exact.number n).words).map Operand.ofNumbers = _
          rw [Domain.pointwise_words exactly]
          rfl
      | _ => cases isExact
  | row ns =>
      obtain ⟨content, shown, values⟩ := shown
      have numbers := congrArg Nested.items (Exact.numbers_eq values)
      rw [Nested.items_map, Exact.words, Nested.items_ofList] at numbers
      -- The other operators are not among those that commute with wrapping.
      have reduced (notLast : op ≠ .last) (notCount : op ≠ .count) :=
        onArray_eq notLast notCount rfl shown
      cases op with
      | pointwise op =>
          obtain ⟨f, exactly, rfl⟩ := Option.map_eq_some_iff.mp isExact
          refine (reduced (by simp) (by simp)).trans ?_
          rw [Exact.isFloating_type, if_neg Bool.false_ne_true,
            reduce_pointwise_words exactly numbers]
          rfl
      | fold op =>
          obtain ⟨folded, exactly, rfl⟩ := Option.map_eq_some_iff.mp isExact
          refine (reduced (by simp) (by simp)).trans ?_
          rw [Exact.isFloating_type, if_neg Bool.false_ne_true,
            reduce_fold_words exactly numbers]
          rfl
      | _ => cases isExact

end Operation

end ArrayForks
