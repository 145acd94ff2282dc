import ArrayForks.Binary64.Decoded
import ArrayForks.Decimal.Digit

/-! # Reading numbers

The integer that a text spells, and the double nearest to a written decimal number. An integer is an
optional sign and digits; a double is an optional sign followed by digits with an optional point and
an optional power of ten, or by the name of an infinity or of the undefined number in letters of
either case. Blanks around a number do not count, and neither do underscores between digits. The
digits may be those of any script. -/

namespace ArrayForks.Decimal

/-- The natural number that a list of digits spells, continuing one read before. -/
def readDigits (start : Nat) (digits : List Char) : Nat :=
  digits.foldl (fun value digit => 10 * value + (digit.toNat - '0'.toNat)) start

/-- Read a natural number. -/
def readNatural? (digits : List Char) : Option Nat :=
  if digits.isEmpty ∨ ¬ digits.all Char.isDigit then none else some (readDigits 0 digits)

/-- Split off a sign, and tell whether it is a minus. -/
def splitSign : List Char → Bool × List Char
  | '-' :: rest => (true, rest)
  | '+' :: rest => (false, rest)
  | rest => (false, rest)

/-- A power of ten: nothing, or `e` with an optional sign and digits. -/
def readPower? : List Char → Option Int
  | [] => some 0
  | mark :: rest =>
      if mark ≠ 'e' ∧ mark ≠ 'E' then none
      else
        let (negative, digits) := splitSign rest
        (readNatural? digits).map fun size => if negative then -(size : Int) else size

/-- The double nearest to `digits * 10 ^ power`. A number from `10 ^ 310` up is infinite and one
below `10 ^ (-331)` is zero, without being computed. -/
def nearest (digits : Nat) (power : Int) : Float :=
  let place := (Nat.toDigits 10 digits).length + power
  if digits = 0 ∨ place < -330 then Binary64.zero false
  else if 310 < place then Binary64.infinity false
  else Float.ofScientific digits (power < 0) power.natAbs

/-- A number without sign. -/
def readMagnitude? (source : List Char) : Option Float :=
  let whole := source.takeWhile Char.isDigit
  let afterWhole := source.dropWhile Char.isDigit
  let (fraction, afterFraction) := match afterWhole with
    | '.' :: rest => (rest.takeWhile Char.isDigit, rest.dropWhile Char.isDigit)
    | rest => ([], rest)
  if whole.isEmpty ∧ fraction.isEmpty then none
  else
    (readPower? afterFraction).map fun power =>
      nearest (readDigits (readDigits 0 whole) fraction) (power - fraction.length)

/-- A number or a named value without sign. -/
def readUnsigned? (source : List Char) : Option Float :=
  let name := String.ofList (source.map Char.toLower)
  if name = "inf" ∨ name = "infinity" then some (Binary64.infinity false)
  else if name = "nan" then some Binary64.nan
  else readMagnitude? source

/-! ### Around the digits -/

/-- The code points of blanks as ranges, ends included. -/
def blankRanges : List (Nat × Nat) :=
  [(0x9, 0xd), (0x20, 0x20), (0x85, 0x85), (0xa0, 0xa0), (0x1680, 0x1680), (0x2000, 0x200a),
    (0x2028, 0x2029), (0x202f, 0x202f), (0x205f, 0x205f), (0x3000, 0x3000)]

/-- Whether a character is a blank. -/
def isBlank (c : Char) : Bool :=
  blankRanges.any fun range => range.1 ≤ c.toNat && c.toNat ≤ range.2

/-- The characters of a text without the blanks around it, its digits from `0` to `9`. -/
def trimmed (source : String) : List Char :=
  let start := (source.toList.map plainDigit).dropWhile isBlank
  (start.reverse.dropWhile isBlank).reverse

/-- Characters without underscores, each of which has to stand between two digits. -/
def ungrouped? : List Char → Option (List Char)
  | [] => some []
  | first :: '_' :: second :: rest =>
      if first.isDigit ∧ second.isDigit then (ungrouped? (second :: rest)).map (first :: ·)
      else none
  | first :: rest => if first = '_' then none else (ungrouped? rest).map (first :: ·)

/-- Read a double. -/
def read? (source : String) : Option Float := do
  let (negative, magnitude) := splitSign (← ungrouped? (trimmed source))
  let x ← readUnsigned? magnitude
  some (if negative then -x else x)

/-- Read an integer. -/
def readInteger? (source : String) : Option Int := do
  let (negative, magnitude) := splitSign (← ungrouped? (trimmed source))
  let n ← readNatural? magnitude
  some (if negative then -(n : Int) else n)

end ArrayForks.Decimal
