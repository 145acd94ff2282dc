import ArrayForks.Decimal.Reading
import ArrayForks.Numeric.Domain
import ArrayForks.Numeric.Library

/-! # Arithmetic of doubles

The numeric operators on doubles are those of the `NumericLibrary`, and no operator traps. The
factorial is built from them: `factorial x = gamma (x + 1)`, where `gamma` is the approximation of
Lanczos and, below one half, its reflection. -/

namespace ArrayForks.Floating

section

variable [NumericLibrary]

open NumericLibrary (arithmetic compare)

/-! ### The gamma function -/

/-- The coefficients of the approximation after the first one. -/
def lanczosCoefficients : List Float :=
  [676.5203681218851, -1259.1392167224028, 771.32342877765313, -176.61502916214059,
    12.507343278686905, -0.13857109526572012, 9.9843695780195716e-6, 1.5056327351493116e-7]

/-- The circle constant. -/
def pi : Float := 3.141592653589793

/-- The sum of the coefficients, each but the first divided by its distance from `w`. -/
def lanczosSeries (w : Float) : Float :=
  (lanczosCoefficients.zipIdx 1).foldl
    (fun sum term => arithmetic .add sum
      (arithmetic .divide term.1 (arithmetic .add w (Float.ofNat term.2))))
    0.99999999999980993

/-- The gamma function of `w + 1`, for `w` at least minus one half. -/
def gammaAbove (w : Float) : Float :=
  let t := arithmetic .add (arithmetic .add w 7.0) 0.5
  let power := arithmetic .exponent t (arithmetic .add w 0.5)
  let decay := NumericLibrary.exp (-t)
  arithmetic .multiply
    (arithmetic .multiply (arithmetic .multiply (NumericLibrary.sqrt (2.0 * pi)) power) decay)
    (lanczosSeries w)

/-- The gamma function. -/
def gamma (z : Float) : Float :=
  if compare .lower z 0.5 then
    let reflected := gammaAbove (arithmetic .subtract (arithmetic .subtract 1.0 z) 1.0)
    let sine := NumericLibrary.sin (arithmetic .multiply pi z)
    arithmetic .divide pi (arithmetic .multiply sine reflected)
  else gammaAbove (arithmetic .subtract z 1.0)

/-- The factorial of a double. -/
def factorial (x : Float) : Float :=
  gamma (arithmetic .add x 1.0)

end

/-! ### The domain -/

/-- A value as a double. A word gives the nearest one, and a text the one that it spells. -/
def ofValue : Value → Except Failure Float
  | .int n => .ok (Float.ofInt n)
  | .float x => .ok x
  | .string text =>
      match Decimal.read? text with
      | some x => .ok x
      | none => .error .notANumber
  | _ => .error .wrongKind

/-- A datum as a double. -/
def readDatum : Datum → Except Failure Float
  | .atom value => ofValue value
  | _ => .error .wrongKind

instance [NumericLibrary] : Domain Float where
  zero := 0.0
  one := 1.0
  arithmetic := NumericLibrary.arithmetic
  spread := NumericLibrary.spread
  compare := NumericLibrary.compare
  factorialRounds _ := 0
  factorial _ := factorial
  trapsOn? _ _ := none
  trapsOnPair? _ _ _ := none
  looksAtPairs _ := false
  foldTraps _ := false
  ofDatum datum := (readDatum datum).map .item
  ofData data := (data.mapM readDatum).map .ofList
  toValue := .float

/-- `isTrue (ofBool b) = b`: the doubles for truth values count as what they stand for. -/
@[simp] theorem isTrue_ofBool [NumericLibrary] (b : Bool) :
    Domain.isTrue (Domain.ofBool b : Float) = b := by
  cases b with
  | false => exact NumericLibrary.zero_eq_zero
  | true => exact NumericLibrary.one_ne_zero

end ArrayForks.Floating
