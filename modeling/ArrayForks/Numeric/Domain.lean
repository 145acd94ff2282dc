import ArrayForks.Datum
import ArrayForks.Failure
import ArrayForks.Nested

/-! # Numeric domains

The numeric operators work in one of two domains, words and doubles. A domain gives the operators on
single numbers and says which applications of them trap; everything about rows of numbers is
derived from that alike for both domains.

* **`Domain α`** is the class of operators on single numbers, and **`kernel?`** the operator of a
  `DiadicOp`.
* **`trapOnRights?`**, **`trapOnPairs?`**: what traps, read off the right operands and off the
  pairs.
* **`foldRight?`** is the loop of a fold, with its flag for zeros, and **`foldRight?_cons`** the
  recursion that it comes to. -/

namespace ArrayForks

/-- The operators on single numbers of one kind. -/
class Domain (α : Type) where
  /-- The number zero, which stands for false. -/
  zero : α
  /-- The number one, which stands for true. -/
  one : α
  /-- The arithmetic operators. Where an application traps, the result does not matter. -/
  arithmetic : Arithmetic → α → α → α
  /-- The arithmetic operators where a single right operand is spread over several left ones. -/
  spread : Arithmetic → α → α → α
  /-- The comparisons. -/
  compare : Comparison → α → α → Bool
  /-- The number of rounds in which the factorials of several numbers are worked out together. -/
  factorialRounds : (among : List α) → Nat
  /-- The factorial of a number, worked out in a number of rounds. -/
  factorial : (rounds : Nat) → α → α
  /-- Why an arithmetic operator traps on a right operand, whatever it is paired with. -/
  trapsOn? : Arithmetic → α → Option ZeroDivision
  /-- Why an arithmetic operator traps on a pair of numbers. -/
  trapsOnPair? : Arithmetic → α → α → Option ZeroDivision
  /-- Whether an arithmetic operator traps on any pair of numbers, so that all pairs are looked at
  before it is applied. -/
  looksAtPairs : Arithmetic → Bool
  /-- Whether a fold traps that has divided by a zero. -/
  foldTraps : Fold → Bool
  /-- The numbers of an operand of a number's type. -/
  ofDatum : Datum → Except Failure (Nested α)
  /-- The numbers of an operand of an array's type, given its elements. -/
  ofData : List Datum → Except Failure (Nested α)
  /-- A number as a value. -/
  toValue : α → Value

namespace Domain

variable {α : Type} [Domain α]

/-- A truth value as a number. -/
def ofBool (b : Bool) : α :=
  if b then one else zero

/-- Whether a number is equal to zero. -/
def isZero (number : α) : Bool :=
  compare .equal number zero

/-- Whether a number counts as true: it is not equal to zero. -/
def isTrue (number : α) : Bool :=
  compare .notEqual number zero

/-- The connectives of numbers as truth values. -/
def connect : Connective → α → α → Bool
  | .and, left, right => isTrue left && isTrue right
  | .or, left, right => isTrue left || isTrue right

/-- A diadic operator on two numbers, if it is numeric, given whether the right one is spread over
several left ones. -/
def kernel? (isSpread : Bool) : DiadicOp → Option (α → α → α)
  | .arithmetic op => some (if isSpread then spread op else arithmetic op)
  | .comparison op => some fun left right => ofBool (compare op left right)
  | .connective op => some fun left right => ofBool (connect op left right)
  | .concat => none

/-- Why a diadic operator traps on account of its right operands alone. -/
def trapOnRights? (op : DiadicOp) (rights : List α) : Option ZeroDivision :=
  match op with
  | .arithmetic op => rights.findSome? (trapsOn? op)
  | _ => none

/-- Why a diadic operator traps on pairs of operands. -/
def trapOnPairs? (op : DiadicOp) (pairs : List (α × α)) : Option ZeroDivision :=
  match op with
  | .arithmetic op => pairs.findSome? fun pair => trapsOnPair? op pair.1 pair.2
  | _ => none

/-- The failure to pair up two layouts. Where pairs are looked at beforehand, layouts of one depth
already fail there. -/
def unpaired (op : DiadicOp) (left right : Nested α) : Failure :=
  match op with
  | .arithmetic op =>
      if looksAtPairs α op && left.depth == right.depth then .wrongKind else .incompatibleShapes
  | _ => .incompatibleShapes

/-- A function of each number of a layout. Factorials need a greatest number. -/
def pointwise (op : Pointwise) (numbers : Nested α) : Except Failure (Nested α) :=
  match op with
  | .factorial =>
      if numbers.items.isEmpty then .error .noGreatest
      else .ok (numbers.map (factorial (factorialRounds numbers.items)))
  | .double => .ok (numbers.map fun number => arithmetic .add number number)
  | .square => .ok (numbers.map fun number => arithmetic .multiply number number)

/-- One round of a fold: in round `k` the number at place `n - 2 - k` of a row of `n` meets the result
so far, and the flag is set if that result is zero. -/
def foldRound (op : Fold) (row : List α) (round : Nat) (inRow : round < row.length - 1)
    (state : α × Bool) : α × Bool :=
  (arithmetic op.arithmetic row[row.length - 2 - round] state.1, state.2 || isZero state.1)

/-- Fold a row from the right, from its last number on in `n - 1` rounds, and tell whether the result
so far was ever zero when it became a right operand. The row is folded to its end even after that. -/
def foldRight? (op : Fold) (row : List α) : Option (α × Bool) :=
  row.getLast?.map fun last => (row.length - 1).fold (foldRound op row) (last, false)

/-- There is nothing to fold in an empty row. -/
@[simp] theorem foldRight?_nil (op : Fold) : foldRight? op ([] : List α) = none :=
  rfl

/-- A round of a row without its first number is the same round of the whole row. -/
theorem foldRound_cons (op : Fold) (first : α) (rest : List α) (round : Nat)
    (inRow : round < rest.length - 1) (inWhole : round < (first :: rest).length - 1) :
    foldRound op (first :: rest) round inWhole = foldRound op rest round inRow := by
  funext state
  have place : (first :: rest).length - 2 - round = (rest.length - 2 - round) + 1 := by
    rw [List.length_cons]
    omega
  simp only [foldRound, place, List.getElem_cons_succ]

/-- The rounds of a row are those of the row without its first number, and one for that number. -/
theorem fold_foldRound_cons (op : Fold) (first second : α) (others : List α) (state : α × Bool) :
    (others.length + 1).fold (foldRound op (first :: second :: others)) state =
      let before := others.length.fold (foldRound op (second :: others)) state
      (arithmetic op.arithmetic first before.1, before.2 || isZero before.1) := by
  have rounds : (fun round (inRow : round < others.length) =>
      foldRound op (first :: second :: others) round (Nat.lt_succ_of_lt inRow)) =
        foldRound op (second :: others) := by
    funext round inRow
    exact foldRound_cons op first (second :: others) round inRow _
  have place : (first :: second :: others).length - 2 - others.length = 0 := by
    rw [List.length_cons, List.length_cons]
    omega
  rw [Nat.fold_succ, rounds]
  simp only [foldRound, place, List.getElem_cons_zero]

/-- The loop of a fold is a recursion: the first number meets what the rest has been folded to. -/
theorem foldRight?_cons (op : Fold) (first : α) (rest : List α) :
    foldRight? op (first :: rest) =
      match foldRight? op rest with
      | none => some (first, false)
      | some (result, hitZero) =>
          some (arithmetic op.arithmetic first result, hitZero || isZero result) := by
  cases rest with
  | nil => rfl
  | cons second others =>
      rw [foldRight?, foldRight?, List.getLast?_cons_cons, List.getLast?_cons, Option.map_some,
        Option.map_some]
      exact congrArg some (fold_foldRound_cons op first second others _)

/-- Whether all numbers, or any number, of a row count as true. -/
def test (op : Quantifier) (values : List α) : Bool :=
  match op with
  | .all => values.all isTrue
  | .any => values.any isTrue

/-- A fold of no numbers, for the operators that have a neutral number. -/
def neutral? : Fold → Option α
  | .sum => some zero
  | .product => some one
  | .quotient => none
  | .difference => none

end Domain

end ArrayForks
