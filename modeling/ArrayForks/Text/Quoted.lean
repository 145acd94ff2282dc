import ArrayForks.Text.Unprintable

/-! # Quoted names

A name is quoted by apostrophes, or by quotation marks if it holds an apostrophe and no quotation
mark. Backslashes and the chosen quote are escaped, and so is every character without a printed
form: the common blanks by a letter, the others by their code in hexadecimal digits. -/

namespace ArrayForks.Text

/-- The last `width` hexadecimal digits of a number. -/
def hexDigits (width n : Nat) : List Char :=
  let digits := Nat.toDigits 16 n
  List.replicate (width - digits.length) '0' ++ digits

/-- A character inside quotes. -/
def escape (quote c : Char) : List Char :=
  if c = quote ∨ c = '\\' then ['\\', c]
  else if c = '\n' then ['\\', 'n']
  else if c = '\r' then ['\\', 'r']
  else if c = '\t' then ['\\', 't']
  else if ¬ isUnprintable c then [c]
  else if c.toNat < 0x100 then '\\' :: 'x' :: hexDigits 2 c.toNat
  else if c.toNat < 0x10000 then '\\' :: 'u' :: hexDigits 4 c.toNat
  else '\\' :: 'U' :: hexDigits 8 c.toNat

/-- The quote that a name is written in. -/
def quoteFor (name : List Char) : Char :=
  if '\'' ∈ name ∧ '"' ∉ name then '"' else '\''

/-- A name in quotes. -/
def quoted (name : String) : String :=
  let quote := quoteFor name.toList
  String.ofList (quote :: (name.toList.flatMap (escape quote) ++ [quote]))

end ArrayForks.Text
