import ArrayForks.Proofs.OperatorTyping

/-! # Single steps

A numeric operator on two numbers is one step, which traps or gives a number. On rows it works on all
numbers at once: it first looks for a right operand, then for a pair that traps, and only then
computes. As an operator traps for one reason alone, this comes to the same as taking the steps for
one pair after the other, a single number being paired with each number of a row.

* **`Domain.step kernel op`** is the operator on a pair of numbers, `Domain.trap?` or else
  `kernel`.
* **`Domain.mapM_step`**: steps along pairs are a look for traps and then the kernel on each pair.
* **`diadic_items`**, **`diadic_words`**: `diadic` of single numbers is one step. -/

namespace ArrayForks

/-! ### Single steps -/

/-- What a diadic operator has done if it traps. -/
def DiadicOp.zeroDivision : DiadicOp → ZeroDivision
  | .arithmetic .remainder => .remainder
  | .arithmetic .exponent => .power
  | _ => .divide

namespace Domain

/-- A domain in which no operator traps for more than one reason. -/
class TrapsForOneReason (α : Type) [Domain α] : Prop where
  /-- The reason to trap on a right operand. -/
  ofRight {op : Arithmetic} {right : α} {cause : ZeroDivision}
    (traps : Domain.trapsOn? op right = some cause) : cause = DiadicOp.zeroDivision (.arithmetic op)
  /-- The reason to trap on a pair. -/
  ofPair {op : Arithmetic} {left right : α} {cause : ZeroDivision}
    (traps : Domain.trapsOnPair? op left right = some cause) :
    cause = DiadicOp.zeroDivision (.arithmetic op)

instance [NumericLibrary] : TrapsForOneReason Int where
  ofRight {op right cause} traps := by
    cases op <;> simp_all [Domain.trapsOn?, Word.trapsOn?, DiadicOp.zeroDivision]
  ofPair {op left right cause} traps := by
    cases op <;> simp_all [Domain.trapsOnPair?, Word.trapsOnPair?, DiadicOp.zeroDivision]

instance [NumericLibrary] : TrapsForOneReason Float where
  ofRight traps := by cases traps
  ofPair traps := by cases traps

variable {α : Type} [Domain α]

/-- Why a diadic operator traps on two numbers. -/
def trap? (op : DiadicOp) (left right : α) : Option ZeroDivision :=
  (trapOnRights? op [right]).or (trapOnPairs? op [(left, right)])

/-- A diadic operator on two numbers, given its kernel. -/
def step (kernel : α → α → α) (op : DiadicOp) (left right : α) : Except Failure α :=
  match trap? op left right with
  | some cause => (RuntimeError.divisionByZero cause).raise
  | none => .ok (kernel left right)

/-- Steps on several pairs all succeed unless one of them traps, and the first one that does tells
why. -/
theorem mapM_step (kernel : α → α → α) (op : DiadicOp) (pairs : List (α × α)) :
    (pairs.mapM fun pair => step kernel op pair.1 pair.2) =
      match pairs.findSome? fun pair => trap? op pair.1 pair.2 with
      | some cause => (RuntimeError.divisionByZero cause).raise
      | none => .ok (pairs.map fun pair => kernel pair.1 pair.2) := by
  induction pairs with
  | nil => rfl
  | cons pair pairs inductionHypothesis =>
      rw [List.mapM_cons, inductionHypothesis, List.findSome?_cons, step]
      cases trap? op pair.1 pair.2 with
      | some cause => rfl
      | none =>
          cases pairs.findSome? fun pair => trap? op pair.1 pair.2 with
          | some cause => rfl
          | none => rfl

/-- Two searches for the same reason agree as soon as they fail together. -/
theorem eq_of_one_reason (cause : ZeroDivision) {found found' : Option ZeroDivision}
    (one : ∀ reason, found = some reason → reason = cause)
    (one' : ∀ reason, found' = some reason → reason = cause)
    (together : found = none ↔ found' = none) : found = found' := by
  cases found with
  | none => exact (together.mp rfl).symm
  | some reason =>
      cases found' with
      | none => exact together.mpr rfl
      | some reason' => rw [one reason rfl, one' reason' rfl]

variable [TrapsForOneReason α]

/-- The reason why an operator traps on one of several right operands. -/
theorem eq_of_trapOnRights? {op : DiadicOp} {rights : List α} {cause : ZeroDivision}
    (traps : trapOnRights? op rights = some cause) : cause = op.zeroDivision := by
  cases op with
  | arithmetic op =>
      obtain ⟨right, -, traps⟩ := List.exists_of_findSome?_eq_some traps
      exact TrapsForOneReason.ofRight traps
  | _ => cases traps

/-- The reason why an operator traps on one of several pairs. -/
theorem eq_of_trapOnPairs? {op : DiadicOp} {pairs : List (α × α)} {cause : ZeroDivision}
    (traps : trapOnPairs? op pairs = some cause) : cause = op.zeroDivision := by
  cases op with
  | arithmetic op =>
      obtain ⟨pair, -, traps⟩ := List.exists_of_findSome?_eq_some traps
      exact TrapsForOneReason.ofPair traps
  | _ => cases traps

/-- The reason why an operator traps on two numbers. -/
theorem eq_of_trap? {op : DiadicOp} {left right : α} {cause : ZeroDivision}
    (traps : trap? op left right = some cause) : cause = op.zeroDivision := by
  rcases Option.or_eq_some_iff.mp traps with onRight | ⟨-, onPair⟩
  · exact eq_of_trapOnRights? onRight
  · exact eq_of_trapOnPairs? onPair

/-- Only the right operands that there are matter, not their order or number. -/
theorem trapOnRights?_congr (op : DiadicOp) {rights rights' : List α}
    (same : ∀ right, right ∈ rights ↔ right ∈ rights') :
    trapOnRights? op rights = trapOnRights? op rights' := by
  refine eq_of_one_reason op.zeroDivision (fun _ => eq_of_trapOnRights?)
    (fun _ => eq_of_trapOnRights?) ?_
  cases op with
  | arithmetic op => simp only [trapOnRights?, List.findSome?_eq_none_iff, same]
  | _ => rfl

/-- Looking at all right operands and then at all pairs finds what looking at one pair after the
other does. -/
theorem findSome?_trap? (op : DiadicOp) (pairs : List (α × α)) :
    (pairs.findSome? fun pair => trap? op pair.1 pair.2) =
      (trapOnRights? op (pairs.map Prod.snd)).or (trapOnPairs? op pairs) := by
  refine eq_of_one_reason op.zeroDivision (fun cause traps => ?_) (fun cause traps => ?_) ?_
  · obtain ⟨pair, -, traps⟩ := List.exists_of_findSome?_eq_some traps
    exact eq_of_trap? traps
  · rcases Option.or_eq_some_iff.mp traps with onRights | ⟨-, onPairs⟩
    · exact eq_of_trapOnRights? onRights
    · exact eq_of_trapOnPairs? onPairs
  · -- Either search fails if and only if no pair traps, on its right operand or as a whole.
    cases op with
    | arithmetic op =>
        simp only [List.findSome?_eq_none_iff, trap?, Option.or_eq_none_iff, trapOnRights?,
          trapOnPairs?, List.mem_singleton, List.mem_map]
        constructor
        · intro none
          refine ⟨?_, fun pair isIn => (none pair isIn).2 pair rfl⟩
          rintro right ⟨pair, isIn, rfl⟩
          exact (none pair isIn).1 pair.2 rfl
        · rintro ⟨noRight, noPair⟩ pair isIn
          refine ⟨?_, ?_⟩
          · rintro right rfl
            exact noRight pair.2 ⟨pair, isIn, rfl⟩
          · rintro other rfl
            exact noPair pair isIn
    | _ => simp [List.findSome?_eq_none_iff, trap?, trapOnRights?, trapOnPairs?]

end Domain

/-- Doubles are no traps on the right. -/
theorem Domain.trapOnRights?_doubles [NumericLibrary] (op : DiadicOp) (rights : List Float) :
    trapOnRights? op rights = none := by
  cases op with
  | arithmetic op => exact List.findSome?_eq_none_iff.mpr fun _ _ => rfl
  | _ => rfl

/-- Pairs of doubles are no traps. -/
theorem Domain.trapOnPairs?_doubles [NumericLibrary] (op : DiadicOp) (pairs : List (Float × Float)) :
    trapOnPairs? op pairs = none := by
  cases op with
  | arithmetic op => exact List.findSome?_eq_none_iff.mpr fun _ _ => rfl
  | _ => rfl

/-! ### Rows beside each other -/

namespace Nested

variable {α β : Type}

/-- The items of a row, or a single item repeated to a length. -/
def repeated (length : Nat) : Nested α → List α
  | .item value => List.replicate length value
  | .row parts => allItems parts

/-- A single number is repeated. -/
@[simp] theorem repeated_item (length : Nat) (value : α) :
    (item value).repeated length = List.replicate length value :=
  rfl

/-- A row is itself at its own length. -/
@[simp] theorem repeated_ofList (length : Nat) (values : List α) :
    (ofList values).repeated length = values :=
  items_ofList values

/-- Two layouts of one level side by side, where a single item meets each of the other items. -/
def alongside (length : Nat) (left : Nested α) (right : Nested β) : List (α × β) :=
  (left.repeated length).zip (right.repeated length)

/-- An item that is repeated meets each item of a list. -/
theorem replicate_zip (only : α) (others : List β) :
    (List.replicate others.length only).zip others = others.map fun other => (only, other) := by
  induction others with
  | nil => rfl
  | cons other others inductionHypothesis =>
      rw [List.length_cons, List.replicate_succ, List.zip_cons_cons, inductionHypothesis,
        List.map_cons]

/-- Each item of a list meets an item that is repeated. -/
theorem zip_replicate (others : List α) (only : β) :
    others.zip (List.replicate others.length only) = others.map fun other => (other, only) := by
  induction others with
  | nil => rfl
  | cons other others inductionHypothesis =>
      rw [List.length_cons, List.replicate_succ, List.zip_cons_cons, inductionHypothesis,
        List.map_cons]

/-- Whether an item is spread does not depend on what the items are. -/
theorem isSpreadOver_map {γ δ : Type} (right : Nested α) (left : Nested β) (f : α → γ) (g : β → δ) :
    (right.map f).isSpreadOver (left.map g) = right.isSpreadOver left := by
  simp only [isSpreadOver, items_map, List.length_map]

namespace Flat

variable {left : Nested α} {right : Nested β} {leftIsRow rightIsRow : Bool} {length : Nat}

/-- Layouts of one level are repeated to their common length. -/
theorem length_repeated (flat : left.Flat leftIsRow)
    (common : leftIsRow = true → left.length = length) : (left.repeated length).length = length := by
  cases flat with
  | item value => exact List.length_replicate
  | list values => simpa using common rfl

/-- Repeating adds no items and, to a positive length, loses none. -/
theorem mem_repeated (flat : left.Flat leftIsRow) (positive : 0 < length) (value : α) :
    value ∈ left.repeated length ↔ value ∈ left.items := by
  cases flat with
  | item only => simp [Nat.pos_iff_ne_zero.mp positive]
  | list values => simp

/-- A function of each item may be applied before or after repeating. -/
theorem repeated_map (flat : left.Flat leftIsRow) (f : α → β) :
    (left.map f).repeated length = (left.repeated length).map f := by
  cases flat with
  | item value => simp
  | list values => simp

/-- Layouts of one level are paired up as they stand side by side. -/
theorem pairs?_eq (leftFlat : left.Flat leftIsRow) (rightFlat : right.Flat rightIsRow)
    (someRow : (leftIsRow || rightIsRow) = true)
    (leftLength : leftIsRow = true → left.length = length)
    (rightLength : rightIsRow = true → right.length = length) :
    left.pairs? right = some (.ofList (left.alongside length right)) := by
  cases leftFlat with
  | item value =>
      cases rightFlat with
      | item other => cases someRow
      | list rights =>
          have common : rights.length = length := by simpa using rightLength rfl
          rw [pairs?_item_ofList, alongside, repeated_item, repeated_ofList, ← common, replicate_zip]
  | list lefts =>
      have common : lefts.length = length := by simpa using leftLength rfl
      cases rightFlat with
      | item other =>
          rw [pairs?_ofList_item, alongside, repeated_item, repeated_ofList, ← common, zip_replicate]
      | list rights =>
          have same : lefts.length = rights.length := by
            rw [common]
            simpa using (rightLength rfl).symm
          rw [pairs?_ofList same, alongside, repeated_ofList, repeated_ofList]

/-- Side by side stand items of both layouts. -/
theorem mem_of_mem_alongside (leftFlat : left.Flat leftIsRow) (rightFlat : right.Flat rightIsRow)
    (positive : 0 < length) {pair : α × β} (isIn : pair ∈ left.alongside length right) :
    pair.1 ∈ left.items ∧ pair.2 ∈ right.items := by
  have both := List.of_mem_zip isIn
  exact ⟨(leftFlat.mem_repeated positive _).mp both.1, (rightFlat.mem_repeated positive _).mp both.2⟩

/-- Functions of the items of both layouts may be applied before or after pairing up. -/
theorem pairs?_map {γ δ : Type} (leftFlat : left.Flat leftIsRow) (rightFlat : right.Flat rightIsRow)
    (someRow : (leftIsRow || rightIsRow) = true)
    (leftLength : leftIsRow = true → left.length = length)
    (rightLength : rightIsRow = true → right.length = length) (f : α → γ) (g : β → δ) :
    (left.map f).pairs? (right.map g) =
      some (.ofList ((left.alongside length right).map (Prod.map f g))) := by
  have leftSame : leftIsRow = true → (left.map f).length = length := by
    rw [length_map]
    exact leftLength
  have rightSame : rightIsRow = true → (right.map g).length = length := by
    rw [length_map]
    exact rightLength
  rw [(leftFlat.map f).pairs?_eq (rightFlat.map g) someRow leftSame rightSame, alongside,
    leftFlat.repeated_map, rightFlat.repeated_map, List.zip_map, alongside]

/-- Side by side with a layout of its length, a layout keeps all its items. -/
theorem map_snd_alongside (leftFlat : left.Flat leftIsRow) (rightFlat : right.Flat rightIsRow)
    (leftLength : leftIsRow = true → left.length = length)
    (rightLength : rightIsRow = true → right.length = length) :
    (left.alongside length right).map Prod.snd = right.repeated length := by
  have lengths : (right.repeated length).length = (left.repeated length).length :=
    (rightFlat.length_repeated rightLength).trans (leftFlat.length_repeated leftLength).symm
  rw [alongside, List.map_snd_zip (Nat.le_of_eq lengths)]

end Flat

end Nested

/-! ### The operator on two operands -/

/-- Results may be changed one by one or all together. -/
theorem mapM_map_result {ε α β γ : Type} (f : α → Except ε β) (g : β → γ) (inputs : List α) :
    (inputs.mapM fun input => (f input).map g) = (inputs.mapM f).map (List.map g) := by
  induction inputs with
  | nil => rfl
  | cons input inputs inductionHypothesis =>
      rw [List.mapM_cons, List.mapM_cons, inductionHypothesis]
      cases f input with
      | error failure => rfl
      | ok result =>
          cases inputs.mapM f with
          | error failure => rfl
          | ok results => rfl

/-- Functions that agree on all inputs have the same results. -/
theorem mapM_congr {ε α β : Type} {f g : α → Except ε β} {inputs : List α}
    (agree : ∀ input ∈ inputs, f input = g input) : inputs.mapM f = inputs.mapM g := by
  induction inputs with
  | nil => rfl
  | cons input inputs inductionHypothesis =>
      have rest := inductionHypothesis fun other inRest => agree other (List.mem_cons_of_mem _ inRest)
      rw [List.mapM_cons, List.mapM_cons, agree input List.mem_cons_self, rest]

/-- Where all failures are alike, a single one makes the whole fail in the same way. -/
theorem mapM_eq_error {ε α β : Type} {f : α → Except ε β} {inputs : List α} {failure : ε}
    (alike : ∀ input ∈ inputs, ∀ other, f input = .error other → other = failure)
    (fails : ∃ input ∈ inputs, f input = .error failure) : inputs.mapM f = .error failure := by
  induction inputs with
  | nil =>
      obtain ⟨input, isIn, -⟩ := fails
      cases isIn
  | cons input inputs inductionHypothesis =>
      rw [List.mapM_cons]
      cases first : f input with
      | error other =>
          rw [alike input List.mem_cons_self other first]
          rfl
      | ok result =>
          obtain ⟨culprit, isIn, failed⟩ := fails
          rcases List.mem_cons.mp isIn with rfl | inRest
          · rw [first] at failed
            cases failed
          · have rest := inductionHypothesis
              (fun other inRest => alike other (List.mem_cons_of_mem _ inRest)) ⟨culprit, inRest, failed⟩
            rw [rest]
            rfl

namespace Coerced

section

variable {α : Type} [Domain α] {op : DiadicOp} {kernel : α → α → α}

/-- A numeric operator on two single numbers is one step. -/
theorem applyIn_items (isKernel : Domain.kernel? false op = some kernel) (left right : α) :
    applyIn op (.item left) (.item right) = (Domain.step kernel op left right).map .item := by
  rw [applyIn, Nested.isSpreadOver_item, isKernel, Nested.pairs?_item_item, Nested.items_item,
    Domain.step, Domain.trap?]
  cases Domain.trapOnRights? op [right] with
  | some cause => rfl
  | none =>
      dsimp only
      rw [Nested.items_item, Option.none_or]
      cases Domain.trapOnPairs? op [(left, right)] with
      | some cause => rfl
      | none => rfl

/-- A numeric operator on numbers that are paired up looks at all right operands, then at all
pairs, and only then computes. -/
theorem applyIn_of_pairs {left right : Nested α} {pairs : List (α × α)}
    (isKernel : Domain.kernel? (right.isSpreadOver left) op = some kernel)
    (paired : left.pairs? right = some (.ofList pairs)) :
    applyIn op left right =
      match (Domain.trapOnRights? op right.items).or (Domain.trapOnPairs? op pairs) with
      | some cause => (RuntimeError.divisionByZero cause).raise
      | none => .ok (.ofList (pairs.map fun pair => kernel pair.1 pair.2)) := by
  have computed := Nested.map_ofList (fun pair => kernel pair.1 pair.2) pairs
  rw [applyIn, isKernel, paired]
  cases Domain.trapOnRights? op right.items with
  | some cause => rfl
  | none =>
      dsimp only
      rw [Nested.items_ofList]
      cases Domain.trapOnPairs? op pairs with
      | some cause => rfl
      | none => exact congrArg Except.ok computed

/-- A numeric operator on numbers that are paired up is a step on each pair, if every right operand
is in some pair. -/
theorem applyIn_eq_mapM [Domain.TrapsForOneReason α] {left right : Nested α}
    {pairs : List (α × α)} (isKernel : Domain.kernel? (right.isSpreadOver left) op = some kernel)
    (paired : left.pairs? right = some (.ofList pairs))
    (sameRights : ∀ number, number ∈ right.items ↔ number ∈ pairs.map Prod.snd) :
    applyIn op left right =
      (pairs.mapM fun pair => Domain.step kernel op pair.1 pair.2).map .ofList := by
  rw [applyIn_of_pairs isKernel paired, Domain.mapM_step, Domain.findSome?_trap?,
    Domain.trapOnRights?_congr op sameRights]
  cases (Domain.trapOnRights? op (pairs.map Prod.snd)).or (Domain.trapOnPairs? op pairs) with
  | some cause => rfl
  | none => rfl

end

/-- A numeric operator on the numbers of copies, as operands. -/
def compute (α : Type) [Domain α] [Domain.Reads α] (op : DiadicOp) (left right : Nested Copy) :
    Except Failure Operand :=
  (applyIn op (left.map fun copy => (Domain.Reads.number copy.value : α))
    (right.map fun copy => Domain.Reads.number copy.value)).map Operand.ofNumbers

/-- A numeric operator works in the domain that is wide enough for both operands. -/
theorem apply_ofContents [NumericLibrary] (op : DiadicOp) (leftType rightType : NumericType)
    (left right : Nested Copy) :
    (ofContents leftType rightType left right).apply op =
      if leftType.isFloating || rightType.isFloating then compute Float op left right
      else compute Int op left right := by
  rw [ofContents]
  split
  · rfl
  · rfl

section

variable {α : Type} [Domain α] [Domain.Reads α] {op : DiadicOp} {left right : Nested Copy}
  {leftIsRow rightIsRow : Bool} {length : Nat}

/-- Applied to two single numbers, an operator computes one step. -/
theorem compute_items {kernel : α → α → α} (isKernel : Domain.kernel? false op = some kernel)
    (left right : Copy) :
    compute α op (.item left) (.item right) =
      (Domain.step kernel op (Domain.Reads.number left.value) (Domain.Reads.number right.value)).map
        fun number => .item (.new (Domain.toValue number)) := by
  rw [compute, Nested.map_item, Nested.map_item, applyIn_items isKernel]
  cases Domain.step kernel op (Domain.Reads.number left.value) (Domain.Reads.number right.value) with
  | error failure => rfl
  | ok number => rfl

/-- A numeric operator on two single numbers can fail for no more than one reason. -/
theorem failure_of_compute_items [Domain.TrapsForOneReason α] (numeric : op ≠ .concat)
    {left right : Copy} {failure : Failure}
    (failed : compute α op (.item left) (.item right) = .error failure) :
    failure = .runtime (.divisionByZero op.zeroDivision) none := by
  obtain ⟨kernel, isKernel⟩ := Domain.exists_kernel (α := α) numeric false
  rw [compute_items isKernel, Domain.step] at failed
  cases traps : Domain.trap? op (Domain.Reads.number left.value : α)
      (Domain.Reads.number right.value) with
  | none =>
      rw [traps] at failed
      cases failed
  | some cause =>
      rw [traps] at failed
      cases failed
      rw [Domain.eq_of_trap? traps]

/-- An operator whose kernel is that of single numbers is applied to the copies one pair after the
other. -/
theorem compute_eq_mapM [Domain.TrapsForOneReason α] (numeric : op ≠ .concat)
    (leftFlat : left.Flat leftIsRow) (rightFlat : right.Flat rightIsRow)
    (someRow : (leftIsRow || rightIsRow) = true)
    (leftLength : leftIsRow = true → left.length = length)
    (rightLength : rightIsRow = true → right.length = length) (positive : 0 < length)
    (plain : Domain.kernel? (α := α) (right.isSpreadOver left) op = Domain.kernel? false op) :
    compute α op left right =
      ((left.alongside length right).mapM fun pair =>
        compute α op (.item pair.1) (.item pair.2)).map .row := by
  obtain ⟨kernel, isKernel⟩ := Domain.exists_kernel (α := α) numeric false
  let number (copy : Copy) : α := Domain.Reads.number copy.value
  have spread : Domain.kernel? ((right.map number).isSpreadOver (left.map number)) op =
      some kernel := by
    rw [Nested.isSpreadOver_map, plain, isKernel]
  have paired := leftFlat.pairs?_map rightFlat someRow leftLength rightLength number number
  -- A single right operand is in some pair, since there is at least one.
  have sameRights (n : α) : n ∈ (right.map number).items ↔
      n ∈ ((left.alongside length right).map (Prod.map number number)).map Prod.snd := by
    have second : Prod.snd ∘ Prod.map number number = number ∘ Prod.snd := rfl
    rw [List.map_map, second, ← List.map_map, Nested.items_map,
      leftFlat.map_snd_alongside rightFlat leftLength rightLength]
    simp only [List.mem_map, rightFlat.mem_repeated positive]
  have single (pair : Copy × Copy) := compute_items isKernel pair.1 pair.2
  simp only [single]
  have numbered : (fun pair : α × α => Domain.step kernel op pair.1 pair.2) ∘
      Prod.map number number = fun pair : Copy × Copy =>
        Domain.step kernel op (Domain.Reads.number pair.1.value)
          (Domain.Reads.number pair.2.value) := rfl
  rw [compute, applyIn_eq_mapM spread paired sameRights, List.mapM_map, mapM_map_result, numbered]
  generalize (List.mapM _ (left.alongside length right) : Except Failure (List α)) = results
  cases results with
  | error failure => rfl
  | ok numbers =>
      change Except.ok (Operand.ofNumbers (Nested.ofList numbers)) = _
      rw [Operand.ofNumbers, Nested.map_ofList, Nested.ofList, List.map_map]
      rfl

/-- An operator on nothing but, at most, a single right operand gives nothing, unless that operand
traps by itself. -/
theorem compute_of_empty (numeric : op ≠ .concat) (leftFlat : left.Flat leftIsRow)
    (rightFlat : right.Flat rightIsRow) (someRow : (leftIsRow || rightIsRow) = true)
    (leftEmpty : leftIsRow = true → left.length = 0)
    (rightEmpty : rightIsRow = true → right.length = 0) :
    compute α op left right =
      match Domain.trapOnRights? op
        (right.items.map fun copy => (Domain.Reads.number copy.value : α)) with
      | some cause => (RuntimeError.divisionByZero cause).raise
      | none => .ok (.row []) := by
  let number (copy : Copy) : α := Domain.Reads.number copy.value
  obtain ⟨kernel, isKernel⟩ := Domain.exists_kernel (α := α) numeric
    ((right.map number).isSpreadOver (left.map number))
  have paired := leftFlat.pairs?_map rightFlat someRow leftEmpty rightEmpty number number
  have nothing : left.alongside 0 right = [] := by
    rw [← List.length_eq_zero_iff, Nested.alongside, List.length_zip,
      leftFlat.length_repeated leftEmpty, Nat.zero_min]
  have noPairs : Domain.trapOnPairs? op ([] : List (α × α)) = none := by
    cases op <;> rfl
  rw [nothing, List.map_nil] at paired
  rw [compute, applyIn_of_pairs isKernel paired, noPairs, Option.or_none, Nested.items_map]
  cases Domain.trapOnRights? op (right.items.map number) with
  | some cause => rfl
  | none => rfl

end

end Coerced

variable [library : NumericLibrary]

/-- By itself, a word on the right is a trap only for division and remainder, and only zero is. -/
theorem Domain.trapOnRights?_word (op : DiadicOp) (n : Int) :
    trapOnRights? op [n] =
      if n = 0 ∧ (op = .arithmetic .divide ∨ op = .arithmetic .remainder) then
        some op.zeroDivision
      else none := by
  cases op with
  | arithmetic op =>
      by_cases zero : n = 0
      · cases op <;> simp [trapOnRights?, trapsOn?, Word.trapsOn?, DiadicOp.zeroDivision, zero]
      · cases op <;> simp [trapOnRights?, trapsOn?, Word.trapsOn?, zero]
  | _ => simp [trapOnRights?]

/-- The kernels of words are the same for a right operand that is spread. -/
theorem Domain.kernel?_words (isSpread : Bool) (op : DiadicOp) :
    kernel? (α := Int) isSpread op = kernel? false op := by
  cases op with
  | arithmetic op => cases isSpread <;> rfl
  | _ => rfl

/-- The kernels of doubles are the same for a right operand that is spread if the library is
elementwise. -/
theorem Domain.kernel?_doubles (elementwise : library.IsElementwise)
    (isSpread : Bool) (op : DiadicOp) : kernel? (α := Float) isSpread op = kernel? false op := by
  cases op with
  | arithmetic op =>
      cases isSpread with
      | false => rfl
      | true =>
          refine congrArg some (funext fun left => funext fun right => ?_)
          exact elementwise op left right
  | _ => rfl

namespace Operation

/-- An operator on two numbers computes in the domain that is wide enough for both. -/
theorem diadic_items {heap : Heap} {op : DiadicOp} {leftType rightType : NumericType}
    (numeric : op ≠ .concat) {left right : Copy}
    (leftNumber : left.value.IsNumber leftType.isFloating)
    (rightNumber : right.value.IsNumber rightType.isFloating) :
    diadic heap op leftType.component rightType.component (.item left) (.item right) =
      if leftType.isFloating || rightType.isFloating then
        Coerced.compute Float op (.item left) (.item right)
      else Coerced.compute Int op (.item left) (.item right) := by
  have leftShown : Operand.Shows heap ⟨false, leftType.isFloating⟩ (.item left) (.item left) :=
    .number rfl leftNumber
  have rightShown : Operand.Shows heap ⟨false, rightType.isFloating⟩ (.item right) (.item right) :=
    .number rfl rightNumber
  have computed := diadic_eq numeric leftShown rightShown
  rw [Coerced.apply_ofContents] at computed
  exact computed

/-- An operator on two words is one step on them. -/
theorem diadic_words (heap : Heap) {op : DiadicOp} {kernel : Int → Int → Int}
    (isKernel : Domain.kernel? false op = some kernel) {left right : Copy} {m n : Int}
    (leftWord : left.value = .int m) (rightWord : right.value = .int n) :
    diadic heap op .int .int (.item left) (.item right) =
      (Domain.step kernel op m n).map fun number => .item (.new (.int number)) := by
  have numeric : op ≠ .concat := by
    rintro rfl
    cases isKernel
  have isWord {copy : Copy} {word : Int} (value : copy.value = .int word) :
      copy.value.IsNumber (NumericType.mk false false).isFloating := by
    rw [value]
    rfl
  have computed : diadic heap op .int .int (.item left) (.item right) = _ :=
    diadic_items numeric (isWord leftWord) (isWord rightWord)
  rw [Bool.or_false, if_neg Bool.false_ne_true, Coerced.compute_items isKernel, leftWord,
    rightWord] at computed
  exact computed

end Operation

end ArrayForks
