import ArrayForks.Proofs.GoodValues
import Mathlib.Data.Int.Order.Basic
import Mathlib.Logic.Relation

/-! # Words in their range

The integers of a run are words of 64 bits, though nothing but the operators keeps them so: values
hold unbounded integers. Literals are wrapped, the operators on words wrap their results or cannot
leave the range, and a length is a word as long as arrays are shorter than `2 ^ 63`. So wherever a
run has come to, every integer that is bound in a frame or held in an object lies in the range of the
words, and every expression gives one that does.

* **`Copy.isLawful_inRange`**: `Copy.InRange` is a lawful standard for values that are
  `Copy.IsShort`.
* **`Word.keeps_inRange`**: the operators on words lead from the range into the range. -/

namespace ArrayForks

open Evaluation (evaluate)
open Execution (callsTo)

/-! ### Values in range -/

/-- A value that is no integer beyond the words. -/
def Value.InRange : Value → Prop
  | .int n => Word.InRange n
  | _ => True

/-- A copy of a value in range. -/
def Copy.InRange (_ : Machine) (copy : Copy) : Prop :=
  copy.value.InRange

/-- A value with fewer elements than there are words from zero on, if it has elements at all. -/
def Copy.IsShort (machine : Machine) (copy : Copy) : Prop :=
  ∀ items, machine.heap.items? copy.value = some items → items.length < 9223372036854775808

/-- Plain values are in range. -/
theorem Value.IsPlain.inRange {value : Value} (isPlain : value.IsPlain) : value.InRange := by
  cases value with
  | int n => exact isPlain
  | _ => trivial

/-- A number of elements is a word. -/
theorem Word.inRange_length {length : Nat} (short : length < 9223372036854775808) :
    Word.InRange length := by
  rw [Word.InRange]
  omega

/-! ### Operators on words -/

namespace Word

/-- A remainder is no farther from zero than the dividend, and on the same side. -/
theorem tmod_inRange {left : Int} (inRange : InRange left) (right : Int) :
    InRange (left.tmod right) := by
  have size : (left.tmod right).natAbs ≤ left.natAbs := by
    rw [Int.natAbs_tmod]
    exact Nat.mod_le _ _
  rw [InRange] at inRange ⊢
  rcases le_total 0 left with positive | negative
  · have sign := Int.tmod_nonneg right positive
    omega
  · have sign : (left.tmod right) ≤ 0 := by
      have opposite := Int.tmod_nonneg right (Int.neg_nonneg.mpr negative)
      rw [Int.neg_tmod] at opposite
      omega
    omega

/-- Squaring and multiplying wraps after each product. -/
theorem powerRounds_inRange (rounds : Nat) {result : Int} (inRange : InRange result) (base : Int)
    (exponent : Nat) : InRange (powerRounds rounds result base exponent) := by
  induction rounds generalizing result base exponent with
  | zero => exact inRange
  | succ rounds inductionHypothesis =>
      rw [powerRounds]
      refine inductionHypothesis ?_ _ _
      split
      · exact wrap_inRange _
      · exact inRange

/-- Powers are wrapped, or are zero, one or minus one. -/
theorem power_inRange (base exponent : Int) : InRange (power base exponent) := by
  unfold power
  split
  · split
    · decide
    · split
      · split <;> decide
      · decide
  · exact powerRounds_inRange 64 (by decide) base exponent.toNat

/-- A factorial wraps after each factor. -/
theorem factorial_inRange (rounds : Nat) (n : Int) : InRange (factorial rounds n) := by
  unfold factorial
  split
  · decide
  · refine List.foldlRecOn _ _ (motive := InRange) (by decide) fun product inRange factor _ => ?_
    split
    · exact wrap_inRange _
    · exact inRange

/-- `InRange (arithmetic op left right)`: a remainder is not greater in magnitude than the dividend,
and all else is wrapped. -/
theorem arithmetic_inRange [NumericLibrary] (op : Arithmetic) {left : Int}
    (inRange : InRange left) (right : Int) : InRange (arithmetic op left right) := by
  cases op with
  | remainder =>
      change InRange (if right = 0 then _ else _)
      split
      · exact wrap_inRange _
      · exact tmod_inRange inRange right
  | exponent => exact power_inRange left right
  | _ => exact wrap_inRange _

/-- A value in range is read as a word, and any other integer is refused. -/
theorem givesOnly_ofInteger (n : Int) : GivesOnly InRange (ofInteger n) := by
  unfold ofInteger
  split
  · next inRange => exact .ok inRange
  · exact .error trivial

/-- The word of a value in range is in range. -/
theorem givesOnly_ofValue {value : Value} (inRange : value.InRange) :
    GivesOnly InRange (ofValue value) := by
  cases value with
  | int n => exact .ok inRange
  | float x =>
      simp only [ofValue]
      split
      · exact givesOnly_ofInteger _
      · exact .error trivial
  | string text =>
      simp only [ofValue]
      split
      · exact givesOnly_ofInteger _
      · exact .error trivial
  | _ => exact .error trivial

mutual

/-- The words of a datum in range are in range. -/
theorem givesOnly_readDatum : {datum : Datum} → datum.All Value.InRange →
    GivesOnly (fun numbers => ∀ n ∈ numbers.items, InRange n) (readDatum datum)
  | .atom _, inRange => by
      cases inRange with
      | atom inRange =>
          refine (givesOnly_ofValue inRange).map fun n isWord other isIn => ?_
          exact List.mem_singleton.mp isIn ▸ isWord
  | .array _, inRange => by
      cases inRange with
      | array inRange => exact (givesOnly_readData inRange).map fun numbers areWords => areWords
  | .record _, _ => .error trivial
  | .constructor _ _, _ => .error trivial

/-- The words of data in range are in range. -/
theorem givesOnly_readData : {data : List Datum} → (∀ datum ∈ data, datum.All Value.InRange) →
    GivesOnly (fun numbers => ∀ n ∈ Nested.allItems numbers, InRange n) (readData data)
  | [], _ => .ok fun _ isIn => absurd isIn List.not_mem_nil
  | _ :: _, inRange =>
      (givesOnly_readDatum (inRange _ List.mem_cons_self)).bind fun _ areWords =>
        (givesOnly_readData fun datum isIn => inRange datum (List.mem_cons_of_mem _ isIn)).bind
          fun _ rest => .ok fun n isIn => (List.mem_append.mp isIn).elim (areWords n) (rest n)

end

/-- The words that an operator reads from a datum in range are in range. -/
theorem givesOnly_ofDatum {datum : Datum} (inRange : datum.All Value.InRange) :
    GivesOnly (fun numbers => ∀ n ∈ numbers.items, InRange n) (ofDatum datum) := by
  unfold ofDatum
  split
  · exact .error trivial
  · split
    · exact .error trivial
    · exact givesOnly_readDatum inRange

variable [NumericLibrary]

/-- The operators on words lead from words to words. -/
theorem keeps_inRange : Domain.Keeps Value.InRange Int where
  zero := show InRange 0 by decide
  one := show InRange 1 by decide
  arithmetic := arithmetic_inRange
  spread := arithmetic_inRange
  factorial := factorial_inRange
  ofDatum := givesOnly_ofDatum
  ofData areGood := givesOnly_ofDatum (.array areGood)

end Word

/-! ### Runs -/

/-- An index that is checked is a key in range, since it is not negative. -/
theorem Value.inRange_key {index : Value} {length : Nat} {place : Index} (inRange : index.InRange)
    (checked : Index.check index length = .ok place) : (Key.ofIndex place).value.InRange := by
  cases index with
  | int n =>
      simp only [Index.check] at checked
      split at checked
      · cases checked
      · next notNegative =>
          split at checked
          · cases checked
          · cases checked
            have same : (n.toNat : Int) = n := Int.toNat_of_nonneg (Int.not_lt.mp notNegative)
            change Word.InRange (n.toNat : Int)
            rw [same]
            exact inRange
  | float x =>
      simp only [Index.check] at checked
      split at checked
      · cases checked
      · split at checked
        · cases checked
        · cases checked
          trivial
  | _ => cases checked

variable [NumericLibrary]

/-- Operators keep values in range. -/
theorem Value.isKept_inRange : IsKept InRange where
  plain isPlain := isPlain.inRange
  object _ := trivial
  key inRange checked := inRange_key inRange checked
  words := Word.keeps_inRange

/-- Every step leads from values in range to values in range, if the values are short whose elements
are counted. -/
theorem Copy.isLawful_inRange : Standard.IsLawful Copy.InRange Copy.IsShort fun _ => True := by
  refine Standard.isLawful_of_kept Value.isKept_inRange
    (fun _ _ items short hasItems => Word.inRange_length (short items hasItems)) ?_
  intro value id isDeclaration _
  cases value with
  | int n => cases isDeclaration
  | _ => trivial

/-- **Integers are words.** Let every value that the expressions of a run give have fewer than
`2 ^ 63` elements, where it has elements at all. Then, whatever the literals and the annotations
are,

* `start.Complies Copy.InRange` for every machine that a piece of the run starts from, and
  `final.Complies Copy.InRange` for every machine that it ends in, with a value or with a failure:
  the integers in its frames, its arrays and its structures, their keys included, are at least
  `-2 ^ 63` and less than `2 ^ 63`;
* `value.value.InRange` for every value that an expression gives, and for what the program
returns. -/
theorem words_in_range (annotations : Annotations) (limit : Nat) (root : Node)
    (short : (Piece.program limit root).Admits annotations Copy.IsShort .initial) :
    (∀ part start, Piece.Reaches annotations (.program limit root) .initial part start →
      start.Complies Copy.InRange ∧
      ∀ final, ((part.computation annotations).run start).machine? = some final →
        final.Complies Copy.InRange) ∧
    (∀ depth node start value final,
      Piece.Reaches annotations (.program limit root) .initial (.expression depth node) start →
      (evaluate annotations (callsTo annotations depth) node).run start = .done value final →
      value.value.InRange) ∧
    ∀ value final, (Execution.program annotations limit root).run .initial = .done value final →
      value.value.InRange := by
  have lawful := Copy.isLawful_inRange
  have initially : Machine.initial.Complies Copy.InRange := Machine.complies_initial trivial
  have declares : (Piece.program limit root).Declares annotations (fun _ => True) .initial :=
    fun _ _ _ _ _ => trivial
  refine ⟨fun part start reaches => ⟨reaches.complies lawful short declares initially,
    fun final ended => reaches.complies_final lawful short declares initially ended⟩, ?_, ?_⟩
  · intro depth node start value final reaches ran
    exact reaches.meets lawful short declares initially ran
  · intro value final ran
    have itself : Piece.Reaches annotations (.program limit root) .initial (.program limit root)
        .initial := .refl
    exact itself.meets lawful short declares initially ran

omit [NumericLibrary] in
/-- The length of a text, and a literal just beyond the words, which is the least word. -/
theorem words_in_range_least :
    letI : NumericLibrary := .standard
    let length := Node.field 2 (.string 1 "ab") "length"
    let literal := Node.int 3 9223372036854775808
    let root := Node.root 6 [.expression 4 length, .return 5 (some literal)]
    (Piece.program 1 root).Admits .empty Copy.IsShort .initial ∧
      ∃ value final, (Execution.program .empty 1 root).run .initial = .done value final ∧
        value.value = .int (-9223372036854775808) ∧ value.value.InRange := by
  let : NumericLibrary := .standard
  intro length literal root
  -- From each piece on, all that it runs gives short values.
  have ofText (machine : Machine) :
      (Piece.expression 1 (.string 1 "ab")).Admits .empty Copy.IsShort machine := by
    refine .of_parts (fun depth node same value final ran items hasItems => ?_) fun _ _ runs => ?_
    · cases same
      cases ran
      cases hasItems
      decide
    · cases runs
  have ofLength (machine : Machine) :
      (Piece.expression 1 length).Admits .empty Copy.IsShort machine := by
    refine .of_parts (fun depth node same value final ran items hasItems => ?_) fun _ _ runs => ?_
    · cases same
      cases ran
      cases hasItems
    · change Piece.Runs .empty (.expression 1 (.field 2 (.string 1 "ab") "length")) _ _ _ at runs
      cases runs with
      | stem => exact ofText machine
  have ofLiteral (machine : Machine) :
      (Piece.expression 1 literal).Admits .empty Copy.IsShort machine := by
    refine .of_parts (fun depth node same value final ran items hasItems => ?_) fun _ _ runs => ?_
    · cases same
      cases ran
      cases hasItems
    · change Piece.Runs .empty (.expression 1 (.int 3 9223372036854775808)) _ _ _ at runs
      cases runs
  have ofReturn (machine : Machine) :
      (Piece.sequence 1 1 [.return 5 (some literal)]).Admits .empty Copy.IsShort machine := by
    refine .of_parts (fun _ _ same => by cases same) fun _ _ runs => ?_
    cases runs with
    | firstStatement =>
        refine .of_parts (fun _ _ same => by cases same) fun _ _ runs => ?_
        cases runs with
        | result => exact ofLiteral machine
    | otherStatements ranFirst => cases ranFirst
  have short : (Piece.program 1 root).Admits .empty Copy.IsShort .initial := by
    refine .of_parts (fun _ _ same => by cases same) fun _ _ runs => ?_
    cases runs with
    | statements isProgram =>
        cases isProgram
        refine .of_parts (fun _ _ same => by cases same) fun _ _ runs => ?_
        cases runs with
        | firstStatement =>
            refine .of_parts (fun _ _ same => by cases same) fun _ _ runs => ?_
            cases runs with
            | effect => exact ofLength _
        | otherStatements ranFirst => exact ofReturn _
  have ran : (Execution.program .empty 1 root).run .initial = .done _ _ := rfl
  exact ⟨short, _, _, ran, rfl, (words_in_range .empty 1 root short).2.2 _ _ ran⟩

end ArrayForks
