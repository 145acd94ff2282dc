import ArrayForks.Proofs.PointwiseLifting

/-! # Stretching to a common length

A numeric operator works on two sides that are in one domain already. It asks no more of their
lengths than that they are equal or that there is a single item on one side, alone or as the only one
of a row; that item is repeated to the length of the other side, which may be any, and zero as well.
Each pair then goes through the operator on single numbers, as long as the library is elementwise
(`NumericLibrary.IsElementwise`). What traps is looked for before that: a zero divisor on the right side
as it is given, whether or not it meets anything, and a negative power of zero among the pairs.

* **`Nested.stretchedPairs`** is the `zip` of both sides, each `stretched` to their
  `commonLength`.
* **`Domain.trap_words`**: `Word.Traps op rights pairs` decides which words trap.
* **`Coerced.apply_words`**, **`Coerced.apply_doubles`**: otherwise `apply op` is the kernel of
  `op` on each of `left.stretchedPairs right`. -/

namespace ArrayForks

/-! ### Stretching -/

namespace Nested

variable {α β : Type}

/-- The items of a layout, where a single one is repeated to a length. -/
def stretched (length : Nat) (nested : Nested α) : List α :=
  match nested.items with
  | [only] => List.replicate length only
  | items => items

/-- Two layouts can be brought to one length: theirs are equal, or there is a single part on one
side. -/
def Stretch (left : Nested α) (right : Nested β) : Prop :=
  left.length = right.length ∨ left.length = 1 ∨ right.length = 1

/-- The length to which two layouts are brought. -/
def commonLength (left : Nested α) (right : Nested β) : Nat :=
  if left.length = 1 then right.length else left.length

/-- The items of two layouts in pairs, after both have been brought to one length. -/
def stretchedPairs (left : Nested α) (right : Nested β) : List (α × β) :=
  (left.stretched (left.commonLength right)).zip (right.stretched (left.commonLength right))

variable {nested : Nested α} {left : Nested α} {right : Nested β}
  {isRow leftIsRow rightIsRow : Bool} {length : Nat}

/-- The only item is repeated. -/
theorem stretched_of_only {only : α} (isOnly : nested.items = [only]) (length : Nat) :
    nested.stretched length = List.replicate length only := by
  rw [stretched, isOnly]

/-- A layout that has a length already stays as it is. -/
theorem stretched_of_length (hasLength : nested.items.length = length) :
    nested.stretched length = nested.items := by
  unfold stretched
  split
  · next only isOnly =>
      rw [isOnly] at hasLength ⊢
      rw [← hasLength]
      rfl
  · rfl

/-- What can be stretched to a length has that length then. -/
theorem length_stretched (flat : nested.Flat isRow)
    (fits : nested.length = length ∨ nested.length = 1) : (nested.stretched length).length = length := by
  rw [← flat.length_items] at fits
  rcases fits with hasLength | isSingle
  · rw [stretched_of_length hasLength, hasLength]
  · obtain ⟨only, isOnly⟩ := List.length_eq_one_iff.mp isSingle
    rw [stretched_of_only isOnly, List.length_replicate]

/-- Both sides can be stretched to the common length. -/
theorem Stretch.common (stretch : left.Stretch right) :
    (left.length = left.commonLength right ∨ left.length = 1) ∧
      (right.length = left.commonLength right ∨ right.length = 1) := by
  unfold commonLength
  rcases stretch with same | single | single
  · split
    · next isSingle => exact ⟨.inr isSingle, .inl rfl⟩
    · exact ⟨.inl rfl, .inl same.symm⟩
  · rw [if_pos single]
    exact ⟨.inr single, .inl rfl⟩
  · split
    · next isSingle => exact ⟨.inr isSingle, .inl rfl⟩
    · exact ⟨.inl rfl, .inr single⟩

/-- There is a pair for each place up to the common length. -/
theorem length_stretchedPairs (leftFlat : left.Flat leftIsRow) (rightFlat : right.Flat rightIsRow)
    (stretch : left.Stretch right) :
    (left.stretchedPairs right).length = left.commonLength right := by
  obtain ⟨leftFits, rightFits⟩ := stretch.common
  rw [stretchedPairs, List.length_zip, length_stretched leftFlat leftFits,
    length_stretched rightFlat rightFits, Nat.min_self]

/-- A single item on the left meets each item on the right. -/
theorem stretchedPairs_of_only_left (leftFlat : left.Flat leftIsRow)
    (rightFlat : right.Flat rightIsRow) {only : α} (isOnly : left.items = [only]) :
    left.stretchedPairs right = right.items.map fun other => (only, other) := by
  have single : left.length = 1 := by rw [← leftFlat.length_items, isOnly]; rfl
  have common : left.commonLength right = right.items.length := by
    rw [commonLength, if_pos single, rightFlat.length_items]
  rw [stretchedPairs, common, stretched_of_only isOnly, stretched_of_length rfl, replicate_zip]

/-- A single item on the right meets each item on the left. -/
theorem stretchedPairs_of_only_right (leftFlat : left.Flat leftIsRow)
    (rightFlat : right.Flat rightIsRow) {only : β} (isOnly : right.items = [only]) :
    left.stretchedPairs right = left.items.map fun other => (other, only) := by
  have single : right.length = 1 := by rw [← rightFlat.length_items, isOnly]; rfl
  have common : left.commonLength right = left.items.length := by
    rw [commonLength, leftFlat.length_items]
    split
    · next isSingle => rw [single, isSingle]
    · rfl
  rw [stretchedPairs, common, stretched_of_only isOnly, stretched_of_length rfl, zip_replicate]

/-- Layouts of one length meet item by item. -/
theorem stretchedPairs_of_length (leftFlat : left.Flat leftIsRow) (rightFlat : right.Flat rightIsRow)
    (same : left.length = right.length) : left.stretchedPairs right = left.items.zip right.items := by
  have common : left.commonLength right = left.length := by
    rw [commonLength, ← same, ite_self]
  rw [stretchedPairs, common, stretched_of_length leftFlat.length_items,
    stretched_of_length (rightFlat.length_items.trans same.symm)]

/-- Two sides that are not both single items are paired up after stretching. -/
theorem Flat.pairs?_of_stretch (leftFlat : left.Flat leftIsRow) (rightFlat : right.Flat rightIsRow)
    (someRow : (leftIsRow || rightIsRow) = true) (stretch : left.Stretch right) :
    left.pairs? right = some (.ofList (left.stretchedPairs right)) := by
  cases leftFlat with
  | item value =>
      cases rightFlat with
      | item other => cases someRow
      | list rights =>
          rw [pairs?_item_ofList, stretchedPairs_of_only_left (.item value) (.list rights) rfl,
            items_ofList]
  | list lefts =>
      cases rightFlat with
      | item other =>
          rw [pairs?_ofList_item, stretchedPairs_of_only_right (.list lefts) (.item other) rfl,
            items_ofList]
      | list rights =>
          -- Two rows are of one length, or one of them is repeated along the other.
          rcases stretch with same | single | single
          · rw [stretchedPairs_of_length (.list lefts) (.list rights) same, items_ofList,
              items_ofList, pairs?_ofList (by simpa using same)]
          · rw [length_ofList] at single
            obtain ⟨only, rfl⟩ := List.length_eq_one_iff.mp single
            rw [pairs?_ofList_singleton_left, stretchedPairs_of_only_left (.list [only])
              (.list rights) (items_ofList _), items_ofList]
          · rw [length_ofList] at single
            obtain ⟨only, rfl⟩ := List.length_eq_one_iff.mp single
            rw [pairs?_ofList_singleton_right, stretchedPairs_of_only_right (.list lefts)
              (.list [only]) (items_ofList _), items_ofList]

end Nested

/-! ### Traps -/

/-- An operator on words traps: a quotient or remainder on a zero among the right operands, and a
power on a pair of zero and a negative exponent. -/
def Word.Traps (op : DiadicOp) (rights : List Int) (pairs : List (Int × Int)) : Prop :=
  (op = .arithmetic .divide ∨ op = .arithmetic .remainder) ∧ 0 ∈ rights ∨
    op = .arithmetic .exponent ∧ ∃ pair ∈ pairs, pair.1 = 0 ∧ pair.2 < 0

instance (op : DiadicOp) (rights : List Int) (pairs : List (Int × Int)) :
    Decidable (Word.Traps op rights pairs) :=
  inferInstanceAs (Decidable (_ ∨ _))

/-- Only quotients and remainders trap on the right, and on nothing but zero. -/
theorem Word.trapsOn?_eq_none_iff {op : Arithmetic} {right : Int} :
    Word.trapsOn? op right = none ↔ ¬ ((op = .divide ∨ op = .remainder) ∧ right = 0) := by
  cases op <;> simp [Word.trapsOn?]

/-- Only powers trap on a pair, and on nothing but zero with a negative exponent. -/
theorem Word.trapsOnPair?_eq_none_iff {op : Arithmetic} {left right : Int} :
    Word.trapsOnPair? op left right = none ↔ ¬ (op = .exponent ∧ left = 0 ∧ right < 0) := by
  cases op <;> simp [Word.trapsOnPair?]

variable [library : NumericLibrary]

/-- Looking for traps on the right and among the pairs finds none exactly if the operator does not
trap. -/
theorem Domain.trap_words_eq_none_iff (op : DiadicOp) (rights : List Int) (pairs : List (Int × Int)) :
    (trapOnRights? op rights).or (trapOnPairs? op pairs) = none ↔ ¬ Word.Traps op rights pairs := by
  rw [Option.or_eq_none_iff]
  cases op with
  | arithmetic op =>
      constructor
      · rintro ⟨onRights, onPairs⟩
        rintro (⟨divides, isIn⟩ | ⟨isPower, pair, isIn, meets⟩)
        · have never := Word.trapsOn?_eq_none_iff.mp (List.findSome?_eq_none_iff.mp onRights 0 isIn)
          exact never ⟨divides.imp DiadicOp.arithmetic.inj DiadicOp.arithmetic.inj, rfl⟩
        · have never := Word.trapsOnPair?_eq_none_iff.mp
            (List.findSome?_eq_none_iff.mp onPairs pair isIn)
          exact never ⟨DiadicOp.arithmetic.inj isPower, meets⟩
      · intro noTrap
        constructor
        · refine List.findSome?_eq_none_iff.mpr fun right isIn => Word.trapsOn?_eq_none_iff.mpr ?_
          rintro ⟨divides, rfl⟩
          exact noTrap (.inl ⟨divides.imp (congrArg _) (congrArg _), isIn⟩)
        · refine List.findSome?_eq_none_iff.mpr fun pair isIn =>
            Word.trapsOnPair?_eq_none_iff.mpr ?_
          rintro ⟨rfl, meets⟩
          exact noTrap (.inr ⟨rfl, pair, isIn, meets⟩)
  | _ => simp [trapOnRights?, trapOnPairs?, Word.Traps]

/-- Looking for traps on the right and among the pairs finds one exactly if the operator traps. -/
theorem Domain.trap_words (op : DiadicOp) (rights : List Int) (pairs : List (Int × Int)) :
    (trapOnRights? op rights).or (trapOnPairs? op pairs) =
      if Word.Traps op rights pairs then some op.zeroDivision else none := by
  refine eq_of_one_reason op.zeroDivision (fun cause found => ?_) (fun cause found => ?_) ?_
  · rcases Option.or_eq_some_iff.mp found with onRights | ⟨-, onPairs⟩
    · exact eq_of_trapOnRights? onRights
    · exact eq_of_trapOnPairs? onPairs
  · split at found
    · exact (Option.some.inj found).symm
    · cases found
  · rw [trap_words_eq_none_iff, ite_eq_right_iff]
    simp

/-! ### The operator on two sides -/

namespace Coerced

variable {op : DiadicOp}

/-- An operator on two words is its kernel, unless it traps. -/
theorem apply_words_items {kernel : Int → Int → Int} (isKernel : Domain.kernel? false op = some kernel)
    (m n : Int) :
    apply op (.words (.item m) (.item n)) =
      if Word.Traps op [n] [(m, n)] then (RuntimeError.divisionByZero op.zeroDivision).raise
      else .ok (.item (.new (.int (kernel m n)))) := by
  change (applyIn op (.item m) (.item n)).map Operand.ofNumbers = _
  rw [applyIn_items isKernel, Domain.step, Domain.trap?, Domain.trap_words]
  by_cases traps : Word.Traps op [n] [(m, n)]
  · rw [if_pos traps, if_pos traps]
    rfl
  · rw [if_neg traps, if_neg traps]
    rfl

/-- An operator on two doubles is its kernel. -/
theorem apply_doubles_items {kernel : Float → Float → Float}
    (isKernel : Domain.kernel? false op = some kernel) (x y : Float) :
    apply op (.doubles (.item x) (.item y)) = .ok (.item (.new (.float (kernel x y)))) := by
  change (applyIn op (.item x) (.item y)).map Operand.ofNumbers = _
  rw [applyIn_items isKernel, Domain.step, Domain.trap?, Domain.trapOnRights?_doubles,
    Domain.trapOnPairs?_doubles]
  rfl

section

variable {leftIsRow rightIsRow : Bool} (someRow : (leftIsRow || rightIsRow) = true)

include someRow

/-- An operator on words that are not both single is its kernel on each pair, unless it traps. -/
theorem apply_words {kernel : Int → Int → Int} (isKernel : Domain.kernel? false op = some kernel)
    {left right : Nested Int} (leftFlat : left.Flat leftIsRow) (rightFlat : right.Flat rightIsRow)
    (stretch : left.Stretch right) :
    apply op (.words left right) =
      if Word.Traps op right.items (left.stretchedPairs right) then
        (RuntimeError.divisionByZero op.zeroDivision).raise
      else .ok (.row ((left.stretchedPairs right).map fun pair =>
        .item (.new (.int (kernel pair.1 pair.2))))) := by
  have paired := leftFlat.pairs?_of_stretch rightFlat someRow stretch
  have same : Domain.kernel? (right.isSpreadOver left) op = some kernel := by
    rw [Domain.kernel?_words, isKernel]
  change (applyIn op left right).map Operand.ofNumbers = _
  rw [applyIn_of_pairs same paired, Domain.trap_words]
  by_cases traps : Word.Traps op right.items (left.stretchedPairs right)
  · rw [if_pos traps, if_pos traps]
    rfl
  · rw [if_neg traps, if_neg traps]
    change Except.ok (Operand.ofNumbers (Nested.ofList _)) = _
    rw [Operand.ofNumbers, Nested.map_ofList, Nested.ofList, List.map_map, List.map_map]
    rfl

/-- Where the library is elementwise, an operator on doubles that are not both single is its kernel on
each pair. -/
theorem apply_doubles (elementwise : library.IsElementwise) {kernel : Float → Float → Float}
    (isKernel : Domain.kernel? false op = some kernel) {left right : Nested Float}
    (leftFlat : left.Flat leftIsRow) (rightFlat : right.Flat rightIsRow)
    (stretch : left.Stretch right) :
    apply op (.doubles left right) = .ok (.row ((left.stretchedPairs right).map fun pair =>
      .item (.new (.float (kernel pair.1 pair.2))))) := by
  have paired := leftFlat.pairs?_of_stretch rightFlat someRow stretch
  have same : Domain.kernel? (right.isSpreadOver left) op = some kernel := by
    rw [Domain.kernel?_doubles elementwise, isKernel]
  change (applyIn op left right).map Operand.ofNumbers = _
  rw [applyIn_of_pairs same paired, Domain.trapOnRights?_doubles, Domain.trapOnPairs?_doubles]
  change Except.ok (Operand.ofNumbers (Nested.ofList _)) = _
  rw [Operand.ofNumbers, Nested.map_ofList, Nested.ofList, List.map_map, List.map_map]
  rfl

end

/-- **Broadcasting.** For `op ≠ .concat` and an elementwise library, in either domain, with `kernel`
the operator on single numbers, `Domain.kernel? false op = some kernel`:

* `apply op` of two single numbers `m`, `n` is the single number `kernel m n`;
* `apply op` of two sides that `Stretch` to a common length, at least one of them a row, is the row of
  `kernel x y` for the pairs `(x, y)` of `left.stretchedPairs right`, of which there are
  `left.commonLength right`.

On words either is `.divisionByZero op.zeroDivision` exactly if `Word.Traps`: a quotient or remainder
with a zero among the right operands as they are given, even where it meets nothing, or a power with
a pair of zero and a negative exponent. On doubles nothing traps. -/
theorem apply_stretched (elementwise : library.IsElementwise) (op : DiadicOp)
    (numeric : op ≠ .concat) :
    (∃ kernel : Int → Int → Int, Domain.kernel? false op = some kernel ∧
      (∀ m n, apply op (.words (.item m) (.item n)) =
        if Word.Traps op [n] [(m, n)] then (RuntimeError.divisionByZero op.zeroDivision).raise
        else .ok (.item (.new (.int (kernel m n))))) ∧
      ∀ (left right : Nested Int) (leftIsRow rightIsRow : Bool), left.Flat leftIsRow →
        right.Flat rightIsRow → (leftIsRow || rightIsRow) = true → left.Stretch right →
        (left.stretchedPairs right).length = left.commonLength right ∧
        apply op (.words left right) =
          if Word.Traps op right.items (left.stretchedPairs right) then
            (RuntimeError.divisionByZero op.zeroDivision).raise
          else .ok (.row ((left.stretchedPairs right).map fun pair =>
            .item (.new (.int (kernel pair.1 pair.2)))))) ∧
    ∃ kernel : Float → Float → Float, Domain.kernel? false op = some kernel ∧
      (∀ x y, apply op (.doubles (.item x) (.item y)) =
        .ok (.item (.new (.float (kernel x y))))) ∧
      ∀ (left right : Nested Float) (leftIsRow rightIsRow : Bool), left.Flat leftIsRow →
        right.Flat rightIsRow → (leftIsRow || rightIsRow) = true → left.Stretch right →
        (left.stretchedPairs right).length = left.commonLength right ∧
        apply op (.doubles left right) = .ok (.row ((left.stretchedPairs right).map fun pair =>
          .item (.new (.float (kernel pair.1 pair.2))))) := by
  constructor
  · obtain ⟨kernel, isKernel⟩ := Domain.exists_kernel (α := Int) numeric false
    refine ⟨kernel, isKernel, apply_words_items isKernel, ?_⟩
    intro left right leftIsRow rightIsRow leftFlat rightFlat someRow stretch
    exact ⟨Nested.length_stretchedPairs leftFlat rightFlat stretch,
      apply_words someRow isKernel leftFlat rightFlat stretch⟩
  · obtain ⟨kernel, isKernel⟩ := Domain.exists_kernel (α := Float) numeric false
    refine ⟨kernel, isKernel, apply_doubles_items isKernel, ?_⟩
    intro left right leftIsRow rightIsRow leftFlat rightFlat someRow stretch
    exact ⟨Nested.length_stretchedPairs leftFlat rightFlat stretch,
      apply_doubles someRow elementwise isKernel leftFlat rightFlat stretch⟩

omit library in
/-- A remainder by zero traps although there is nothing to be divided. Powers of several words trap
if one of them is zero and the exponent they share is negative. -/
theorem apply_stretched_zeros :
    letI : NumericLibrary := .standard
    NumericLibrary.standard.IsElementwise ∧
      apply (.arithmetic .remainder) (.words (.ofList []) (.ofList [0])) =
        (RuntimeError.divisionByZero .remainder).raise ∧
      apply (.arithmetic .exponent) (.words (.ofList [3, 0]) (.ofList [-1])) =
        (RuntimeError.divisionByZero .power).raise ∧
      apply (.arithmetic .exponent) (.words (.ofList [3, -1]) (.ofList [-1])) =
        .ok (.ofList [.new (.int 0), .new (.int (-1))]) := by
  have elementwise := NumericLibrary.standard_isElementwise
  obtain ⟨⟨_, -, -, remainders⟩, -⟩ :=
    @apply_stretched .standard elementwise (.arithmetic .remainder) (by simp)
  obtain ⟨⟨kernel, isKernel, -, powers⟩, -⟩ :=
    @apply_stretched .standard elementwise (.arithmetic .exponent) (by simp)
  refine ⟨elementwise, ?_, ?_, ?_⟩
  · exact (remainders (.ofList []) (.ofList [0]) true true (.list _) (.list _) rfl
      (.inr (.inr rfl))).2
  · exact (powers (.ofList [3, 0]) (.ofList [-1]) true true (.list _) (.list _) rfl
      (.inr (.inr rfl))).2
  · cases isKernel
    exact (powers (.ofList [3, -1]) (.ofList [-1]) true true (.list _) (.list _) rfl
      (.inr (.inr rfl))).2

end Coerced

end ArrayForks
