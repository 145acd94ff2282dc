/-! # Doubles as exact numbers

A finite double is a sign and a natural mantissa scaled by a power of two. `decode` reads this form
off the bits and `encode` writes it back, so that rules about doubles can be stated and computed in
exact integers. -/

namespace ArrayForks.Binary64

/-- What a double stands for. -/
inductive Decoded where
  /-- Not a number. -/
  | nan
  /-- An infinity. -/
  | infinite (negative : Bool)
  /-- The number `mantissa * 2 ^ exponent` with a sign, zero included. -/
  | finite (negative : Bool) (mantissa : Nat) (exponent : Int)
  deriving DecidableEq, Repr

/-- The number of fraction bits. -/
def fractionBits : Nat := 52

/-- The exponent of the last bit of the subnormals and of the smallest normal doubles. -/
def leastExponent : Int := -1074

/-- The sign bit of a double. -/
def isNegative (x : Float) : Bool :=
  1 <<< 63 ≤ x.toBits.toNat

/-- The exponent field of a double. -/
def exponentField (x : Float) : Nat :=
  x.toBits.toNat >>> fractionBits % 2048

/-- The fraction field of a double. -/
def fractionField (x : Float) : Nat :=
  x.toBits.toNat % (1 <<< fractionBits)

/-- Read off what a double stands for. -/
def decode (x : Float) : Decoded :=
  let fraction := fractionField x
  match exponentField x with
  | 0 => .finite (isNegative x) fraction leastExponent
  | 2047 => if fraction = 0 then .infinite (isNegative x) else .nan
  | field + 1 => .finite (isNegative x) ((1 <<< fractionBits) + fraction) (leastExponent + field)

/-- The zero of a sign. -/
def zero (negative : Bool) : Float :=
  if negative then -0.0 else 0.0

/-- Not a number. -/
def nan : Float :=
  0.0 / 0.0

/-- The infinity of a sign. -/
def infinity (negative : Bool) : Float :=
  if negative then -1.0 / 0.0 else 1.0 / 0.0

/-- The double `mantissa * 2 ^ exponent`, for numbers that are doubles. The mantissa is first moved
left as far as the format allows; then adding it to the exponent field carries its leading bit into
that field for a normal number, and adds nothing to the field for a subnormal one. -/
def encode (negative : Bool) (mantissa : Nat) (exponent : Int) : Float :=
  if mantissa = 0 then zero negative
  else
    let shift := min (fractionBits - mantissa.log2) (exponent - leastExponent).toNat
    let field := (exponent - shift - leastExponent).toNat
    let sign := if negative then 1 <<< 63 else 0
    Float.ofBits (UInt64.ofNat (sign + (field <<< fractionBits) + (mantissa <<< shift)))

/-- The integer part of a finite double. -/
def truncate? (x : Float) : Option Int :=
  match decode x with
  | .finite negative mantissa exponent =>
      let magnitude : Nat := mantissa <<< exponent.toNat >>> (-exponent).toNat
      some (if negative then -magnitude else magnitude)
  | _ => none

/-- The integer that a double is, if it is one. -/
def integer? (x : Float) : Option Int :=
  match decode x with
  | .finite _ mantissa exponent =>
      if mantissa % (1 <<< (-exponent).toNat) = 0 then truncate? x else none
  | _ => none

end ArrayForks.Binary64
