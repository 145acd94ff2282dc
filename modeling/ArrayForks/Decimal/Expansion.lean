/-! # Decimal expansions of binary fractions

A positive double is `mantissa * 2 ^ exponent`. Here such a number is given in decimal digits: with
the fewest digits that still tell it from its neighbours, or with a fixed number of significant
digits. Both work in exact natural arithmetic on the number scaled by a power of ten. -/

namespace ArrayForks.Decimal

/-- The number `digits * 10 ^ exponent`. -/
structure Expansion where
  /-- All digits, read as one natural number. -/
  digits : Nat
  /-- The power of ten of the last digit. -/
  exponent : Int
  deriving DecidableEq, Repr

/-- A natural fraction with a positive denominator. -/
structure Ratio where
  /-- The part above the line. -/
  numerator : Nat
  /-- The part below the line. -/
  denominator : Nat

/-- The number `mantissa * 2 ^ exponent / 10 ^ place`. -/
def scaled (mantissa : Nat) (exponent place : Int) : Ratio where
  numerator := (mantissa <<< exponent.toNat) * Nat.pow 10 (-place).toNat
  denominator := Nat.pow 10 place.toNat <<< (-exponent).toNat

/-- Whether `mantissa * 2 ^ exponent` is at least `10 ^ place`. -/
def reaches (mantissa : Nat) (exponent place : Int) : Bool :=
  let ratio := scaled mantissa exponent place
  ratio.denominator ≤ ratio.numerator

/-- The place of the leading digit. The binary length fixes it up to one, with `0.30103` a little
above the decimal logarithm of two; the estimate is corrected by comparing with powers of ten. -/
def leadingPlace (mantissa : Nat) (exponent : Int) : Int :=
  let estimate := Int.fdiv ((mantissa.log2 + exponent) * 30103) 100000
  if reaches mantissa exponent (estimate + 1) then estimate + 1
  else if reaches mantissa exponent estimate then estimate
  else estimate - 1

/-! ### The fewest digits -/

/-- The half-open distances from a double to the midpoints with its neighbours, in quarters of its
last bit: two above, and below two as well, but one at a power of two, where the doubles below
lie twice as dense. -/
def gapBelow (mantissa : Nat) (exponent : Int) : Nat :=
  if mantissa = 1 <<< 52 ∧ -1074 < exponent then 1 else 2

/-- The multiple of `10 ^ place` that reads back as the double, if there is one: of the two
neighbours on this grid the one within the gaps, the nearer one if both are, and the even one of
two that are equally near. A midpoint itself reads back when the mantissa is even. -/
def onGrid? (mantissa : Nat) (exponent place : Int) : Option Nat :=
  let ratio := scaled (4 * mantissa) (exponent - 2) place
  let above := scaled 2 (exponent - 2) place
  let below := scaled (gapBelow mantissa exponent) (exponent - 2) place
  let lower := ratio.numerator / ratio.denominator
  let down := ratio.numerator % ratio.denominator
  let up := ratio.denominator - down
  let isEven := mantissa % 2 = 0
  let lowerReads := down < below.numerator ∨ (down = below.numerator ∧ isEven)
  let upperReads := up < above.numerator ∨ (up = above.numerator ∧ isEven)
  if lowerReads ∧ upperReads then
    if down < up then some lower
    else if up < down then some (lower + 1)
    else some (lower + lower % 2)
  else if lowerReads then some lower
  else if upperReads then some (lower + 1)
  else none

/-- Search the grids from coarse to fine, `remaining` of them after this one. -/
def searchGrids (mantissa : Nat) (exponent : Int) : (remaining : Nat) → (place : Int) → Expansion
  | 0, place =>
      let ratio := scaled mantissa exponent place
      ⟨ratio.numerator / ratio.denominator, place⟩
  | remaining + 1, place =>
      match onGrid? mantissa exponent place with
      | some digits => ⟨digits, place⟩
      | none => searchGrids mantissa exponent remaining (place - 1)

/-- The fewest digits that read back as the double `mantissa * 2 ^ exponent`. The search starts one
place above the leading digit, where rounding up may reach a power of ten, and seventeen digits
always read back. -/
def shortest (mantissa : Nat) (exponent : Int) : Expansion :=
  searchGrids mantissa exponent 18 (leadingPlace mantissa exponent + 1)

/-! ### A fixed number of digits -/

/-- The natural number nearest to a fraction, the even one of two that are equally near. -/
def Ratio.round (ratio : Ratio) : Nat :=
  let quotient := ratio.numerator / ratio.denominator
  let rest := 2 * (ratio.numerator % ratio.denominator)
  if rest < ratio.denominator then quotient
  else if ratio.denominator < rest then quotient + 1
  else quotient + quotient % 2

/-- The number rounded to `count` significant digits; rounding up to the next power of ten moves the
leading digit by one place. -/
def significant (count : Nat) (mantissa : Nat) (exponent : Int) : Expansion :=
  let place := leadingPlace mantissa exponent + 1 - count
  let rounded := (scaled mantissa exponent place).round
  if rounded = Nat.pow 10 count then ⟨Nat.pow 10 (count - 1), place + 1⟩ else ⟨rounded, place⟩

end ArrayForks.Decimal
