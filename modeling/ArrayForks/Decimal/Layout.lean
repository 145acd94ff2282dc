import ArrayForks.Binary64.Decoded
import ArrayForks.Decimal.Expansion

/-! # How doubles are written

The text of a double is its decimal expansion laid out by a `Layout`, which says where the
positional form gives way to the form with a power of ten. `display` is the layout that programs
see: the fewest digits that read back, positional from `0.0001` up to sixteen digits before the
point and never without a point. -/

namespace ArrayForks.Decimal

/-- The decisions of a written form of numbers. -/
structure Layout where
  /-- The least place of a leading digit that is written positionally. -/
  positionalFrom : Int
  /-- The least place of a leading digit that is again written with a power of ten. -/
  positionalBelow : Int
  /-- The least number of digits of the power of ten. -/
  exponentWidth : Nat
  deriving DecidableEq, Repr

/-- Numbers as programs print them. -/
def Layout.display : Layout where
  positionalFrom := -4
  positionalBelow := 16
  exponentWidth := 2

/-- Numbers with a power of ten throughout. -/
def Layout.scientific : Layout where
  positionalFrom := 0
  positionalBelow := 0
  exponentWidth := 2

/-- A row of zeros. -/
def zeros (count : Nat) : List Char :=
  List.replicate count '0'

/-- The decimal digits of a natural number. -/
def digitsOf (n : Nat) : List Char :=
  Nat.toDigits 10 n

/-- Digits with a point after the first `place + 1` of them, filled up with zeros on either side
such that a digit stands before and after the point. -/
def positional (digits : List Char) (place : Int) : List Char :=
  if place < 0 then '0' :: '.' :: (zeros (-place - 1).toNat ++ digits)
  else
    let whole := place.toNat + 1
    let fraction := digits.drop whole
    digits.take whole ++ zeros (whole - digits.length) ++ '.' :: (if fraction.isEmpty then ['0']
      else fraction)

/-- A power of ten with its sign. -/
def powerOfTen (layout : Layout) (place : Int) : List Char :=
  let digits := digitsOf place.natAbs
  let filling := zeros (layout.exponentWidth - digits.length)
  'e' :: (if place < 0 then '-' else '+') :: (filling ++ digits)

/-- Digits with a point after the first one, if others follow, and a power of ten. -/
def withPower (layout : Layout) (digits : List Char) (place : Int) : List Char :=
  match digits with
  | [] => powerOfTen layout place
  | first :: [] => first :: powerOfTen layout place
  | first :: rest => first :: '.' :: (rest ++ powerOfTen layout place)

/-- Lay out digits whose first one stands at a place. -/
def Layout.write (layout : Layout) (digits : List Char) (place : Int) : List Char :=
  if layout.positionalFrom ≤ place ∧ place < layout.positionalBelow then positional digits place
  else withPower layout digits place

/-- Lay out an expansion. -/
def Layout.writeExpansion (layout : Layout) (expansion : Expansion) : List Char :=
  let digits := digitsOf expansion.digits
  layout.write digits (expansion.exponent + digits.length - 1)

/-- The sign of a number and the rest of its text. -/
def signed (negative : Bool) (magnitude : List Char) : String :=
  String.ofList (if negative then '-' :: magnitude else magnitude)

/-- The text of a double, given how a positive number and how zero are written. An undefined
number shows no sign. -/
def textWith (positive : Nat → Int → List Char) (zeroText : List Char) (x : Float) : String :=
  match Binary64.decode x with
  | .nan => "nan"
  | .infinite negative => signed negative "inf".toList
  | .finite negative mantissa exponent =>
      signed negative (if mantissa = 0 then zeroText else positive mantissa exponent)

/-- The text of a double that programs see. -/
def text (x : Float) : String :=
  textWith (fun mantissa exponent => Layout.display.writeExpansion (shortest mantissa exponent))
    (Layout.display.write ['0'] 0) x

/-- The text of a double with `count` significant digits and a power of ten. -/
def significantText (count : Nat) (x : Float) : String :=
  textWith (fun mantissa exponent =>
      Layout.scientific.writeExpansion (significant count mantissa exponent))
    (Layout.scientific.write (zeros count) 0) x

end ArrayForks.Decimal
