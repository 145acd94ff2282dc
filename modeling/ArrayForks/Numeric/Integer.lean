import ArrayForks.Datum
import ArrayForks.Decimal.Reading
import ArrayForks.Numeric.Domain
import ArrayForks.Numeric.Library
import ArrayForks.Word

/-! # Arithmetic of words

The numeric operators on words. Sums, differences, products, powers and factorials wrap; quotients
are truncated toward zero, and a remainder has the sign of the dividend. Division by zero and
negative powers of zero trap; what the `NumericLibrary` leaves in their place never shows.

* **`Word.arithmetic op left right`**, **`Word.compare`**, **`Word.power`** and
  **`Word.factorial`** are the operators, and **`Word.trapsOn?`**, **`Word.trapsOnPair?`** say
  what traps. -/

namespace ArrayForks.Word

/-- Square and multiply over the binary digits of an exponent, the lowest first: `rounds` more
digits are taken up, while `result * base ^ exponent` stays the same modulo `2 ^ 64`. -/
def powerRounds : (rounds : Nat) → (result base : Int) → (exponent : Nat) → Int
  | 0, result, _, _ => result
  | rounds + 1, result, base, exponent =>
      powerRounds rounds (if exponent % 2 = 1 then wrap (result * base) else result)
        (wrap (base * base)) (exponent / 2)

/-- A power. A negative power is the reciprocal of a positive one, truncated toward zero. -/
def power (base exponent : Int) : Int :=
  if exponent < 0 then
    if base = 1 then 1
    else if base = -1 then if exponent % 2 = 0 then 1 else -1
    else 0
  else powerRounds 64 1 base exponent.toNat

/-- The least number whose factorial is divisible by `2 ^ 64`. -/
def factorialZeroFrom : Nat := 66

/-- The number of rounds that the factorials of several numbers take together. Each round takes up
one factor, from two to the largest of the numbers or to the point where factorials are zero. -/
def factorialRounds (among : List Int) : Nat :=
  (among.foldl max 0).toNat.min factorialZeroFrom - 1

/-- The factorial of a number in a number of rounds. A number takes up only the factors up to
itself, so the factorial of one below two is one. -/
def factorial (rounds : Nat) (n : Int) : Int :=
  if factorialZeroFrom ≤ n then 0
  else
    (List.range' 2 rounds).foldl
      (fun product (factor : Nat) => if factor ≤ n then wrap (product * factor) else product) 1

/-- The arithmetic operators. A quotient or remainder by zero traps, and some word stands in its
place. -/
def arithmetic [NumericLibrary] : Arithmetic → Int → Int → Int
  | .multiply, left, right => wrap (left * right)
  | .divide, left, right =>
      wrap (if right = 0 then NumericLibrary.quotientByZero left else left.tdiv right)
  | .remainder, left, right =>
      if right = 0 then wrap (NumericLibrary.remainderByZero left) else left.tmod right
  | .add, left, right => wrap (left + right)
  | .subtract, left, right => wrap (left - right)
  | .exponent, left, right => power left right

/-- The comparisons. -/
def compare : Comparison → Int → Int → Bool
  | .equal, left, right => left = right
  | .notEqual, left, right => left ≠ right
  | .greater, left, right => left > right
  | .lower, left, right => left < right
  | .greaterEqual, left, right => left ≥ right
  | .lowerEqual, left, right => left ≤ right

/-- Division and remainder trap on a right operand zero. -/
def trapsOn? (op : Arithmetic) (right : Int) : Option ZeroDivision :=
  match op with
  | .divide => if right = 0 then some .divide else none
  | .remainder => if right = 0 then some .remainder else none
  | _ => none

/-- Powers trap when zero is paired with a negative exponent. -/
def trapsOnPair? (op : Arithmetic) (left right : Int) : Option ZeroDivision :=
  match op with
  | .exponent => if left = 0 && right < 0 then some .power else none
  | _ => none

/-- An integer as a word, if it is one. -/
def ofInteger (n : Int) : Except Failure Int :=
  if InRange n then .ok n else .error .beyondWords

/-- A value as a word. A double gives its integer part, and a text the integer that it spells. -/
def ofValue : Value → Except Failure Int
  | .int n => .ok n
  | .float x =>
      match Binary64.truncate? x with
      | some n => ofInteger n
      | none => .error (if x.isNaN then .notANumber else .beyondWords)
  | .string text =>
      match Decimal.readInteger? text with
      | some n => ofInteger n
      | none => .error .notANumber
  | .null => .error .notANumber
  | _ => .error .wrongKind

mutual

/-- Read a datum as words, in order. -/
def readDatum : Datum → Except Failure (Nested Int)
  | .atom value => (ofValue value).map .item
  | .array items => (readData items).map .row
  | _ => .error .wrongKind

/-- Read data as words, in order. -/
def readData : List Datum → Except Failure (List (Nested Int))
  | [] => .ok []
  | item :: items => do
      let first ← readDatum item
      let rest ← readData items
      .ok (first :: rest)

end

/-- A datum as words. One that holds `null`, or arrays of different shapes beside each other, is
refused as a whole before anything in it is read. -/
def ofDatum (datum : Datum) : Except Failure (Nested Int) :=
  if datum.holdsNull then .error .notANumber
  else if datum.shape?.isNone then .error .incompatibleShapes
  else readDatum datum

instance [NumericLibrary] : Domain Int where
  zero := 0
  one := 1
  arithmetic := arithmetic
  spread := arithmetic
  compare := compare
  factorialRounds := factorialRounds
  factorial := factorial
  trapsOn? := trapsOn?
  trapsOnPair? := trapsOnPair?
  looksAtPairs op := op = .exponent
  foldTraps op := op = .quotient
  ofDatum := ofDatum
  ofData data := ofDatum (.array data)
  toValue := .int

variable [NumericLibrary]

/-- `isZero n = decide (n = 0)`: a word is zero if it is the integer zero. -/
@[simp] theorem isZero_eq (n : Int) : Domain.isZero n = decide (n = 0) :=
  rfl

/-- `isTrue n = decide (n ≠ 0)`: every word but zero counts as true. -/
@[simp] theorem isTrue_eq (n : Int) : Domain.isTrue n = decide (n ≠ 0) :=
  rfl

end ArrayForks.Word
