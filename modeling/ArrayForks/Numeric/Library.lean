import ArrayForks.Binary64.Remainder
import ArrayForks.Operator

/-! # The array library

Arrays of numbers are computed by a library, and the language does not fix what that library does in
two places: what its operators on doubles give, and what it leaves where a word is divided by zero.
`NumericLibrary` collects these as parameters of everything that computes.

* **`NumericLibrary.arithmetic`**, **`compare`**: the operators on a pair of doubles, as they are
  applied to each pair of elements.
* **`NumericLibrary.spread`**: the same operators where the right element is a single number that has
  been spread over several left ones. A library that documents its operators as elementwise promises
  `spread op x y = arithmetic op x y`, which is the hypothesis **`NumericLibrary.IsElementwise`**.
* **`NumericLibrary.ComparesExactly`**: comparisons are those of binary floating point,
  `compare op x y = Comparison.onDoubles op x y`, for subnormal doubles as well.

`NumericLibrary.standard` is a library that keeps both promises. -/

namespace ArrayForks

/-- The arithmetic operators of binary floating point, each rounded once. -/
def Arithmetic.onDoubles : Arithmetic → Float → Float → Float
  | .multiply, left, right => left * right
  | .divide, left, right => left / right
  | .remainder, left, right => Binary64.remainder left right
  | .add, left, right => left + right
  | .subtract, left, right => left - right
  | .exponent, left, right => Float.pow left right

/-- The comparisons of binary floating point. All but `notEqual` are false of an undefined number. -/
def Comparison.onDoubles : Comparison → Float → Float → Bool
  | .equal, left, right => left == right
  | .notEqual, left, right => left != right
  | .greater, left, right => right < left
  | .lower, left, right => left < right
  | .greaterEqual, left, right => right ≤ left
  | .lowerEqual, left, right => left ≤ right

/-- What the language takes from the array library: operators on doubles, and some word in the place
of a quotient or remainder by zero. -/
class NumericLibrary where
  /-- The arithmetic operators on a pair of doubles. -/
  arithmetic : Arithmetic → Float → Float → Float
  /-- The arithmetic operators on a pair of doubles, the right one of which is a single number that
  has been spread over several left ones. -/
  spread : Arithmetic → Float → Float → Float
  /-- The comparisons of doubles. -/
  compare : Comparison → Float → Float → Bool
  /-- The exponential function. -/
  exp : Float → Float
  /-- The sine. -/
  sin : Float → Float
  /-- The square root. -/
  sqrt : Float → Float
  /-- What stands in the place of a quotient of a word by zero. -/
  quotientByZero : Int → Int
  /-- What stands in the place of a remainder of a word by zero. -/
  remainderByZero : Int → Int
  /-- Zero is not told apart from itself. -/
  zero_eq_zero : compare .notEqual 0.0 0.0 = false
  /-- One is told apart from zero. -/
  one_ne_zero : compare .notEqual 1.0 0.0 = true

namespace NumericLibrary

/-- Operators are elementwise, `spread op x y = arithmetic op x y`: what they give for a pair does not
depend on how the pair came about. A library that divides several numbers by one number as products
with its rounded reciprocal is not elementwise. -/
def IsElementwise (library : NumericLibrary) : Prop :=
  ∀ op left right, library.spread op left right = library.arithmetic op left right

/-- Comparisons are exact, `compare op x y = Comparison.onDoubles op x y`. Those of a processor that
takes subnormal doubles for zero are not. -/
def ComparesExactly (library : NumericLibrary) : Prop :=
  ∀ op left right, library.compare op left right = Comparison.onDoubles op left right

/-- The library of binary floating point, with `arithmetic = spread = Arithmetic.onDoubles` and
`compare = Comparison.onDoubles`. -/
@[reducible] def standard : NumericLibrary where
  arithmetic := Arithmetic.onDoubles
  spread := Arithmetic.onDoubles
  compare := Comparison.onDoubles
  exp := Float.exp
  sin := Float.sin
  sqrt := Float.sqrt
  quotientByZero _ := -1
  remainderByZero dividend := dividend
  zero_eq_zero := by decide
  one_ne_zero := by decide

/-- `standard.spread op x y = standard.arithmetic op x y`. -/
theorem standard_isElementwise : standard.IsElementwise :=
  fun _ _ _ => rfl

/-- `standard.compare op x y = Comparison.onDoubles op x y`. -/
theorem standard_comparesExactly : standard.ComparesExactly :=
  fun _ _ _ => rfl

end NumericLibrary

end ArrayForks
