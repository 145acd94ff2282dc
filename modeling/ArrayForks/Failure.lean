import ArrayForks.Text.Quoted
import ArrayForks.Value
import ArrayForks.Violation

/-! # Failures

What stops a program before its end. The runtime errors are the failures that a checked program can
meet; they say where they arose, in the text of the innermost expression whose own step failed. All
other failures are violations of what the check promises, and say nothing of their place.

* **`RuntimeError`** and **`Failure`** are the errors, and **`RuntimeError.message`** their texts.
* **`Failure.locate`** gives a runtime error its place, unless it has one. -/

namespace ArrayForks

/-! ### Runtime errors -/

/-- What `null` was used for. -/
inductive NullUse where
  | field | index | call
  deriving DecidableEq, Repr

/-- What divided by zero. -/
inductive ZeroDivision where
  /-- A division of words. -/
  | divide
  /-- A remainder of words. -/
  | remainder
  /-- A negative power of the word zero. -/
  | power
  /-- A fold of words by division. -/
  | fold
  deriving DecidableEq, Repr

/-- A failure that a checked program can meet. -/
inductive RuntimeError where
  /-- Two arrays of different lengths meet in an operator. -/
  | lengthMismatch (left right : Nat)
  /-- `null` is used where an object is needed. -/
  | nullDereference (use : NullUse)
  /-- An index lies before the first element. -/
  | negativeIndex (index : Value)
  /-- An index lies behind the last element. -/
  | indexBeyond (index : Value) (length : Nat)
  /-- A division of words by zero. -/
  | divisionByZero (cause : ZeroDivision)
  /-- An operator without a value on the empty array. -/
  | emptyArray (op : MonadicOp)
  deriving DecidableEq

/-- The kinds of runtime errors that reports tell apart. -/
inductive ErrorKind where
  | runtime | length | null | index | arithmetic | empty
  deriving DecidableEq, Repr

/-- The word for a kind of error in a report. -/
def ErrorKind.label : ErrorKind → String
  | .runtime => "runtime"
  | .length => "length"
  | .null => "null"
  | .index => "index"
  | .arithmetic => "arithmetic"
  | .empty => "empty"

/-- The text of a use of `null`. -/
def NullUse.message : NullUse → String
  | .field => "accessing field of null object"
  | .index => "indexing null array"
  | .call => "calling a null function"

/-- The text of a division by zero. -/
def ZeroDivision.message : ZeroDivision → String
  | .divide => "integer divide by zero"
  | .remainder => "integer remainder by zero"
  | .power => "zero raised to a negative power"
  | .fold => "integer division by zero during :/ reduction"

namespace RuntimeError

/-- The kind of a runtime error. -/
def kind : RuntimeError → ErrorKind
  | .lengthMismatch _ _ => .length
  | .nullDereference _ => .null
  | .negativeIndex _ => .index
  | .indexBeyond _ _ => .index
  | .divisionByZero _ => .arithmetic
  | .emptyArray _ => .empty

/-- The text of a runtime error. -/
def message : RuntimeError → String
  | .lengthMismatch left right =>
      "tried to process two arrays of different length (" ++ toString left ++ " and "
        ++ toString right ++ ")"
  | .nullDereference use => use.message
  | .negativeIndex index => "negative index: " ++ index.text
  | .indexBeyond index length =>
      "index " ++ index.text ++ " out of bounds for length " ++ toString length
  | .divisionByZero cause => cause.message
  | .emptyArray .last => "cannot grab the last element of an empty array"
  | .emptyArray op => op.glyph ++ " has no identity element for an empty array"

end RuntimeError

/-! ### Reports -/

/-- What a user is told of a runtime error. -/
structure Report where
  /-- The word for the kind of the error. -/
  kind : String
  /-- The text of the error. -/
  message : String
  /-- The text of the expression that failed. -/
  node : Option String
  deriving DecidableEq

/-- A report in one line. -/
def Report.text (report : Report) : String :=
  let place := match report.node with
    | none => ""
    | some node => " at " ++ node
  report.kind ++ " error" ++ place ++ ": " ++ report.message

/-- The text of an error that arose in an expression. -/
def messageAt (message : String) (node : Option String) : String :=
  match node with
  | none => message
  | some node => message ++ " (while evaluating " ++ node ++ ")"

/-! ### All failures -/

/-- What stops a program. -/
inductive Failure where
  /-- A runtime error, with the text of the expression that failed once it is known. -/
  | runtime (error : RuntimeError) (node : Option String)
  /-- A state that a checked program never reaches. -/
  | violation (violation : Violation)
  /-- A name that no frame in reach binds. -/
  | undefinedName (name : String)
  /-- The target of an assignment, which no frame in reach binds. -/
  | undefinedTarget (name : String)
  /-- A structure without the field. -/
  | missingField (name : String)
  /-- A structure without an entry at the index, or an array that ends before it. -/
  | missingElement
  /-- A function or constructor with another number of parameters. -/
  | argumentCount
  /-- Arrays whose shapes do not fit each other. -/
  | incompatibleShapes
  /-- No numbers where the greatest one is needed. -/
  | noGreatest
  /-- A value that cannot be used in this way. -/
  | wrongKind
  /-- A constructor of something other than a structure type. -/
  | notAStructure
  /-- A node without statements where a program is expected. -/
  | notAProgram
  /-- A text that spells no number, or a value without a number, where one is needed. -/
  | notANumber
  /-- A double beyond all words where a word is needed. -/
  | beyondWords
  deriving DecidableEq

namespace Failure

/-- The text of a failure, if it has one. -/
def message? : Failure → Option String
  | .runtime error node => some (messageAt error.message node)
  | .violation reason => some reason.message
  | .undefinedName name => some ("undefined name " ++ Text.quoted name)
  | .undefinedTarget name => some ("cannot assign undefined name " ++ Text.quoted name)
  | _ => none

/-- The failure with the text of an expression as its place, if it needs one and has none yet. The
text is asked for only then. -/
def locate (node : Unit → String) : Failure → Failure
  | .runtime error none => .runtime error (some (node ()))
  | failure => failure

/-- Only runtime errors get a place. -/
theorem eq_of_locate_eq {node : Unit → String} {failure located : Failure}
    (equal : failure.locate node = located) (other : ∀ error place, located ≠ .runtime error place) :
    failure = located := by
  cases failure with
  | runtime error place =>
      cases place with
      | none => exact absurd equal.symm (other error _)
      | some place => exact absurd equal.symm (other error _)
  | _ => exact equal

/-- The report of a runtime error. -/
def report? : Failure → Option Report
  | .runtime error node => some ⟨error.kind.label, error.message, node⟩
  | _ => none

end Failure

/-- A runtime error whose place is not known yet. -/
def RuntimeError.raise {α : Type} (error : RuntimeError) : Except Failure α :=
  .error (.runtime error none)

/-- A violation as a failure. -/
def Violation.raise {α : Type} (violation : Violation) : Except Failure α :=
  .error (.violation violation)

end ArrayForks
