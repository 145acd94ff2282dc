/-! # Operators

The diadic operators stand between two operands, the monadic ones before one. They are grouped by
what they compute: the numeric diadic operators are arithmetic, comparisons and connectives, and
the monadic ones map each element, fold from the right, test all elements, or ask for the last
element or their number. A fork is a train of three operators. -/

namespace ArrayForks

/-- Diadic operators that compute a number from two numbers. -/
inductive Arithmetic where
  | multiply | divide | remainder | add | subtract | exponent
  deriving DecidableEq, Repr

/-- Diadic operators that compare two numbers. -/
inductive Comparison where
  | equal | notEqual | greater | lower | greaterEqual | lowerEqual
  deriving DecidableEq, Repr

/-- Diadic operators that join two truth values. -/
inductive Connective where
  | and | or
  deriving DecidableEq, Repr

/-- Operators between two operands. -/
inductive DiadicOp where
  /-- An arithmetic operator. -/
  | arithmetic (op : Arithmetic)
  /-- A comparison, which yields one or zero. -/
  | comparison (op : Comparison)
  /-- A connective, which yields one or zero. -/
  | connective (op : Connective)
  /-- Lay out the elements of both operands one after the other. -/
  | concat
  deriving DecidableEq, Repr

/-- Monadic operators that compute a number from a number, for each element on its own. -/
inductive Pointwise where
  | factorial | double | square
  deriving DecidableEq, Repr

/-- Monadic operators that fold the elements of an array from the right. -/
inductive Fold where
  | sum | product | quotient | difference
  deriving DecidableEq, Repr

/-- Monadic operators that test the elements of an array for being nonzero. -/
inductive Quantifier where
  | all | any
  deriving DecidableEq, Repr

/-- Operators before one operand. -/
inductive MonadicOp where
  /-- A function of each element. -/
  | pointwise (op : Pointwise)
  /-- A fold from the right. -/
  | fold (op : Fold)
  /-- A test of all elements, which yields one or zero. -/
  | quantifier (op : Quantifier)
  /-- The last element. -/
  | last
  /-- The number of elements. -/
  | count
  deriving DecidableEq, Repr

/-- The arithmetic operator that a fold puts between the elements. -/
def Fold.arithmetic : Fold → Arithmetic
  | .sum => .add
  | .product => .multiply
  | .quotient => .divide
  | .difference => .subtract

/-- The connective that a test puts between the elements. -/
def Quantifier.connective : Quantifier → Connective
  | .all => .and
  | .any => .or

/-- Three operators before one operand: the outer two are applied to the operand, and the middle
one to their results. -/
structure MonadicFork where
  left : MonadicOp
  middle : DiadicOp
  right : MonadicOp
  deriving DecidableEq, Repr

/-- Three operators between two operands: the outer two are applied to the operands, and the middle
one to their results. -/
structure DiadicFork where
  left : DiadicOp
  middle : DiadicOp
  right : DiadicOp
  deriving DecidableEq, Repr

/-! ### Spelling -/

namespace DiadicOp

/-- All diadic operators. -/
def all : List DiadicOp :=
  [.arithmetic .multiply, .arithmetic .divide, .arithmetic .remainder, .arithmetic .add,
    .arithmetic .subtract, .arithmetic .exponent, .concat, .comparison .equal,
    .comparison .notEqual, .comparison .greater, .comparison .lower, .comparison .greaterEqual,
    .comparison .lowerEqual, .connective .and, .connective .or]

/-- The sign of an operator in program text. -/
def glyph : DiadicOp → String
  | .arithmetic .multiply => "*"
  | .arithmetic .divide => "/"
  | .arithmetic .remainder => "%"
  | .arithmetic .add => "+"
  | .arithmetic .subtract => "-"
  | .arithmetic .exponent => "^"
  | .concat => ","
  | .comparison .equal => "=="
  | .comparison .notEqual => "!="
  | .comparison .greater => ">"
  | .comparison .lower => "<"
  | .comparison .greaterEqual => ">="
  | .comparison .lowerEqual => "<="
  | .connective .and => "&&"
  | .connective .or => "||"

/-- The name under which an operator is listed. -/
def name : DiadicOp → String
  | .arithmetic .multiply => "MULTIPLY"
  | .arithmetic .divide => "DIVIDE"
  | .arithmetic .remainder => "REMAINDER"
  | .arithmetic .add => "ADD"
  | .arithmetic .subtract => "SUBTRACT"
  | .arithmetic .exponent => "EXPONENT"
  | .concat => "CONCAT"
  | .comparison .equal => "EQUALITY"
  | .comparison .notEqual => "NOT_EQUALS"
  | .comparison .greater => "GREATER"
  | .comparison .lower => "LOWER"
  | .comparison .greaterEqual => "GREATER_EQUAL"
  | .comparison .lowerEqual => "LOWER_EQUAL"
  | .connective .and => "AND"
  | .connective .or => "OR"

/-- The operator of a sign. -/
def ofGlyph? (glyph : String) : Option DiadicOp :=
  all.find? fun op => op.glyph = glyph

/-- Every operator is listed. -/
theorem mem_all (op : DiadicOp) : op ∈ all := by
  rcases op with op | op | op | _ <;> first | cases op <;> decide | decide

/-- An operator is read back from its sign. -/
@[simp] theorem ofGlyph?_glyph (op : DiadicOp) : ofGlyph? op.glyph = some op := by
  rcases op with op | op | op | _ <;> first | cases op <;> decide | decide

end DiadicOp

namespace MonadicOp

/-- All monadic operators. -/
def all : List MonadicOp :=
  [.pointwise .factorial, .last, .fold .sum, .fold .product, .fold .quotient, .fold .difference,
    .quantifier .all, .quantifier .any, .count, .pointwise .double, .pointwise .square]

/-- The sign of an operator in program text. -/
def glyph : MonadicOp → String
  | .pointwise .factorial => "!"
  | .last => "\x7b:"
  | .fold .sum => "+/"
  | .fold .product => "./"
  | .fold .quotient => ":/"
  | .fold .difference => "-/"
  | .quantifier .all => "&/"
  | .quantifier .any => "|/"
  | .count => "#"
  | .pointwise .double => "+:"
  | .pointwise .square => "*:"

/-- The name under which an operator is listed. -/
def name : MonadicOp → String
  | .pointwise .factorial => "NOT"
  | .last => "GRAB_LAST"
  | .fold .sum => "SUM_SLASH"
  | .fold .product => "MULT_SLASH"
  | .fold .quotient => "DIV_SLASH"
  | .fold .difference => "MIN_SLASH"
  | .quantifier .all => "AND_SLASH"
  | .quantifier .any => "OR_SLASH"
  | .count => "HASHTAG"
  | .pointwise .double => "SELF_ADD"
  | .pointwise .square => "SELF_MULT"

/-- The operator of a sign. -/
def ofGlyph? (glyph : String) : Option MonadicOp :=
  all.find? fun op => op.glyph = glyph

/-- Every operator is listed. -/
theorem mem_all (op : MonadicOp) : op ∈ all := by
  rcases op with op | op | op | _ | _ <;> first | cases op <;> decide | decide

/-- An operator is read back from its sign. -/
@[simp] theorem ofGlyph?_glyph (op : MonadicOp) : ofGlyph? op.glyph = some op := by
  rcases op with op | op | op | _ | _ <;> first | cases op <;> decide | decide

end MonadicOp

/-! ### Forks in program text -/

/-- A monadic fork in program text. -/
def MonadicFork.glyphs (fork : MonadicFork) : String :=
  "(" ++ fork.left.glyph ++ " " ++ fork.middle.glyph ++ " " ++ fork.right.glyph ++ ")"

/-- A diadic fork in program text. -/
def DiadicFork.glyphs (fork : DiadicFork) : String :=
  "(" ++ fork.left.glyph ++ " " ++ fork.middle.glyph ++ " " ++ fork.right.glyph ++ ")"

end ArrayForks
