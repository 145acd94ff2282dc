import ArrayForks.Evaluation
import ArrayForks.Proofs.OperatorTyping

/-! # What steps raise

Which runtime errors a single step can raise. Whatever operands an operator is given, well typed or
not, they are of few kinds: a diadic operator meets arrays of different lengths or divides by zero,
and a monadic one divides by zero in a fold or finds no elements. A fork raises what its operators
raise, and reading operands as numbers raises nothing. Of the other steps of an evaluation, only
those that need an object or a place among elements raise anything. None of these errors has a place
yet. -/

namespace ArrayForks

/-- A failure that is no runtime error, or else one of some kinds that has no place yet. -/
def Failure.Among (kinds : List ErrorKind) (failure : Failure) : Prop :=
  ∀ error place, failure = .runtime error place → place = none ∧ error.kind ∈ kinds

/-- A failure without a report is no runtime error. -/
theorem Failure.Among.of_report? {kinds : List ErrorKind} {failure : Failure}
    (other : failure.report? = none) : failure.Among kinds := by
  rintro error place rfl
  cases other

/-- The runtime errors of a computation without state are of some kinds, and have no place yet. -/
abbrev RaisesOnly {α : Type} (kinds : List ErrorKind) (result : Except Failure α) : Prop :=
  Yields (fun _ => True) (Failure.Among kinds) result

namespace RaisesOnly

variable {α β : Type} {kinds : List ErrorKind}

/-- A result is not an error: `RaisesOnly kinds (.ok value)`. -/
theorem ok (value : α) : RaisesOnly kinds (.ok value) :=
  Yields.ok trivial

/-- A failure that is no runtime error counts for no kind. -/
theorem error {failure : Failure} (other : failure.report? = none) :
    RaisesOnly kinds (.error failure : Except Failure α) :=
  Yields.error (.of_report? other)

/-- Raising an error raises the kind of this error. -/
theorem raise {error : RuntimeError} (isAmong : error.kind ∈ kinds) :
    RaisesOnly kinds (error.raise : Except Failure α) := by
  refine Yields.error fun error' place isRuntime => ?_
  cases isRuntime
  exact ⟨rfl, isAmong⟩

/-- A violation is no runtime error. -/
theorem violation (violation : Violation) :
    RaisesOnly kinds (violation.raise : Except Failure α) :=
  error rfl

/-- `RaisesOnly kinds (result >>= next)` if both steps raise only these kinds. -/
theorem bind {result : Except Failure α} {next : α → Except Failure β}
    (first : RaisesOnly kinds result) (rest : ∀ value, RaisesOnly kinds (next value)) :
    RaisesOnly kinds (result >>= next) :=
  Yields.bind first fun value _ => rest value

/-- `RaisesOnly kinds (result.map f)`: a function of the result raises nothing. -/
theorem map {result : Except Failure α} (first : RaisesOnly kinds result) (f : α → β) :
    RaisesOnly kinds (result.map f) :=
  Yields.map first fun _ _ => trivial

/-- `RaisesOnly kinds (inputs.mapM f)` if `f` raises only these kinds for each input. -/
theorem mapM {f : α → Except Failure β} (each : ∀ input, RaisesOnly kinds (f input))
    (inputs : List α) : RaisesOnly kinds (inputs.mapM f) :=
  (Yields.mapM each inputs).imp fun _ _ => trivial

end RaisesOnly

/-! ### Reading numbers -/

namespace Domain

/-- A domain in which reading numbers raises nothing. -/
class ReadsQuietly (α : Type) [Domain α] : Prop where
  ofDatum (kinds : List ErrorKind) (datum : Datum) :
    RaisesOnly kinds (Domain.ofDatum datum : Except Failure (Nested α))
  ofData (kinds : List ErrorKind) (data : List Datum) :
    RaisesOnly kinds (Domain.ofData data : Except Failure (Nested α))

end Domain

namespace Word

variable {kinds : List ErrorKind}

/-- Reading an integer as a word raises nothing: beyond the words it is another failure. -/
theorem raisesOnly_ofInteger (n : Int) : RaisesOnly kinds (ofInteger n) := by
  unfold ofInteger
  split
  · exact .ok n
  · exact .error rfl

/-- Reading a value as a word raises nothing. -/
theorem raisesOnly_ofValue (value : Value) : RaisesOnly kinds (ofValue value) := by
  cases value with
  | int n => exact .ok n
  | float x =>
      simp only [ofValue]
      split
      · exact raisesOnly_ofInteger _
      · split
        · exact .error rfl
        · exact .error rfl
  | string text =>
      simp only [ofValue]
      split
      · exact raisesOnly_ofInteger _
      · exact .error rfl
  | _ => exact .error rfl

mutual

/-- Reading a datum as words raises nothing, by induction on the datum. -/
theorem raisesOnly_readDatum : (datum : Datum) → RaisesOnly kinds (readDatum datum)
  | .atom value => (raisesOnly_ofValue value).map _
  | .array items => (raisesOnly_readData items).map _
  | .record _ => .error rfl
  | .constructor _ _ => .error rfl

/-- Reading data as words raises nothing, by the same induction. -/
theorem raisesOnly_readData : (data : List Datum) → RaisesOnly kinds (readData data)
  | [] => .ok []
  | item :: items =>
      .bind (raisesOnly_readDatum item) fun _ => .bind (raisesOnly_readData items) fun _ => .ok _

end

/-- `Word.ofDatum` raises nothing, in its checks or in reading. -/
theorem raisesOnly_ofDatum (datum : Datum) : RaisesOnly kinds (ofDatum datum) := by
  unfold ofDatum
  split
  · exact .error rfl
  · split
    · exact .error rfl
    · exact raisesOnly_readDatum datum

end Word

instance [NumericLibrary] : Domain.ReadsQuietly Int where
  ofDatum _ datum := Word.raisesOnly_ofDatum datum
  ofData _ data := Word.raisesOnly_ofDatum (.array data)

namespace Floating

variable {kinds : List ErrorKind}

/-- Reading a value as a double raises nothing. -/
theorem raisesOnly_ofValue (value : Value) : RaisesOnly kinds (ofValue value) := by
  cases value with
  | string text =>
      simp only [ofValue]
      split
      · exact .ok _
      · exact .error rfl
  | int n => exact .ok _
  | float x => exact .ok x
  | _ => exact .error rfl

/-- Reading a datum as a double raises nothing. -/
theorem raisesOnly_readDatum (datum : Datum) : RaisesOnly kinds (readDatum datum) := by
  cases datum with
  | atom value => exact raisesOnly_ofValue value
  | _ => exact .error rfl

end Floating

instance [NumericLibrary] : Domain.ReadsQuietly Float where
  ofDatum _ datum := (Floating.raisesOnly_readDatum datum).map _
  ofData _ data := (RaisesOnly.mapM Floating.raisesOnly_readDatum data).map _

/-! ### Operands -/

namespace Operand

variable {kinds : List ErrorKind}

/-- Looking for the elements of an operand raises nothing. -/
theorem raisesOnly_elements (heap : Heap) (type : StaticType) (operand : Operand) :
    RaisesOnly kinds (operand.elements heap type) := by
  unfold elements
  split
  · split
    · exact .ok _
    · exact .error rfl
  · exact .ok _

/-- `Operand.numbers` raises nothing in a domain that reads quietly. -/
theorem raisesOnly_numbers {α : Type} [Domain α] [Domain.ReadsQuietly α] (heap : Heap)
    (type : StaticType) (operand : Operand) :
    RaisesOnly kinds (operand.numbers heap type : Except Failure (Nested α)) := by
  unfold numbers
  split
  · split
    · exact .bind (raisesOnly_elements heap _ operand) fun _ => Domain.ReadsQuietly.ofData _ _
    · exact .violation _
  · split
    · exact Domain.ReadsQuietly.ofDatum _ _
    · exact .violation _

/-- `Operand.asDouble` raises nothing. -/
theorem raisesOnly_asDouble (heap : Heap) (operand : Operand) :
    RaisesOnly kinds (operand.asDouble heap) := by
  unfold asDouble
  split
  · exact .ok _
  · exact (Floating.raisesOnly_readDatum _).map _

/-- Asking an operand for its type raises nothing, as a missing type is a violation. -/
theorem raisesOnly_type (heap : Heap) (operand : Operand) :
    RaisesOnly kinds (operand.type heap) := by
  unfold type
  cases (operand.unfold heap).type with
  | ok type => exact .ok type
  | error violation => exact .violation violation

end Operand

/-- Looking for an element of an object or a text raises nothing: `Heap.element` expects its index
to be checked. -/
theorem Heap.raisesOnly_element {kinds : List ErrorKind} (heap : Heap) (value : Value)
    (index : Index) : RaisesOnly kinds (heap.element value index) := by
  unfold element
  split
  · split
    · exact .ok _
    · exact .error rfl
  · split
    · split
      · exact .ok _
      · exact .error rfl
    · exact .error rfl

/-- Looking for an element of an operand raises nothing. -/
theorem Operand.raisesOnly_element {kinds : List ErrorKind} (heap : Heap) (operand : Operand)
    (place : Nat) : RaisesOnly kinds (operand.element heap place) := by
  cases operand with
  | item copy => exact (heap.raisesOnly_element copy.value (.word place)).map _
  | row parts =>
      simp only [element]
      split
      · exact .ok _
      · exact .error rfl

/-! ### Diadic operators -/

section

variable {kinds : List ErrorKind} (divides : .arithmetic ∈ kinds) (mismatches : .length ∈ kinds)

namespace Coerced

variable [NumericLibrary]

/-- Coercing two operands raises nothing. -/
theorem raisesOnly_ofOperands (heap : Heap) (leftType rightType : StaticType)
    (left right : Operand) :
    RaisesOnly kinds (ofOperands heap leftType rightType left right) := by
  unfold ofOperands
  split
  · exact .bind (Operand.raisesOnly_numbers heap leftType left) fun _ =>
      .bind (Operand.raisesOnly_numbers heap rightType right) fun _ => .ok _
  · exact .bind (Operand.raisesOnly_numbers heap leftType left) fun _ =>
      .bind (Operand.raisesOnly_numbers heap rightType right) fun _ => .ok _

include divides

omit [NumericLibrary] in
/-- A numeric operator raises divisions by zero alone. -/
theorem raisesOnly_applyIn {α : Type} [Domain α] (op : DiadicOp) (left right : Nested α) :
    RaisesOnly kinds (applyIn op left right) := by
  unfold applyIn
  split
  · exact .violation _
  · exact .raise divides
  · split
    · unfold Domain.unpaired
      split
      · split
        · exact .error rfl
        · exact .error rfl
      · exact .error rfl
    · split
      · exact .raise divides
      · exact .ok _

/-- `Coerced.apply` raises divisions by zero alone. -/
theorem raisesOnly_apply (op : DiadicOp) (pair : Coerced) :
    RaisesOnly kinds (pair.apply op) := by
  cases pair with
  | words left right => exact (raisesOnly_applyIn divides op left right).map _
  | doubles left right => exact (raisesOnly_applyIn divides op left right).map _

end Coerced

namespace Operation

/-- Laying out raises nothing. -/
theorem raisesOnly_layOut (heap : Heap) (leftType rightType : StaticType) (left right : Operand) :
    RaisesOnly kinds (layOut heap leftType rightType left right) := by
  refine .bind (left.raisesOnly_elements heap leftType) fun leftItems =>
    .bind (right.raisesOnly_elements heap rightType) fun rightItems => ?_
  split
  · exact .bind (.mapM (Operand.raisesOnly_asDouble heap) _) fun _ => .ok _
  · exact .ok _

include divides mismatches

variable [NumericLibrary]

/-- `Operation.lift` raises differing lengths and divisions by zero alone. -/
theorem raisesOnly_lift (heap : Heap) (op : DiadicOp) (leftType rightType : StaticType)
    (left right : Operand) :
    RaisesOnly kinds (lift heap op leftType rightType left right) := by
  refine .bind (Coerced.raisesOnly_ofOperands heap leftType rightType left right) fun pair => ?_
  dsimp only
  split
  · exact .raise mismatches
  · exact Coerced.raisesOnly_apply divides op pair

/-- A diadic operator raises differing lengths and divisions by zero alone. -/
theorem raisesOnly_diadic (heap : Heap) (op : DiadicOp) (leftType rightType : StaticType)
    (left right : Operand) :
    RaisesOnly kinds (diadic heap op leftType rightType left right) := by
  unfold diadic
  split
  · exact .ok _
  · exact raisesOnly_layOut heap leftType rightType left right
  · exact raisesOnly_lift divides mismatches heap op leftType rightType left right
  · exact .bind (Coerced.raisesOnly_ofOperands heap leftType rightType left right) fun pair =>
      Coerced.raisesOnly_apply divides op pair
  · exact .ok _
  · exact .ok _
  · exact .violation _

/-- The middle operator of a fork raises what a diadic operator raises. -/
theorem raisesOnly_combine (heap : Heap) (middle : DiadicOp) (left right : Operand) :
    RaisesOnly kinds (combine heap middle left right) :=
  .bind (left.raisesOnly_type heap) fun _ => .bind (right.raisesOnly_type heap) fun _ =>
    raisesOnly_diadic divides mismatches ..

/-- A diadic fork raises what its operators raise. -/
theorem raisesOnly_diadicFork (heap : Heap) (fork : DiadicFork) (leftType rightType : StaticType)
    (left right : Operand) :
    RaisesOnly kinds (diadicFork heap fork leftType rightType left right) :=
  .bind (raisesOnly_diadic divides mismatches ..) fun _ =>
    .bind (raisesOnly_diadic divides mismatches ..) fun _ =>
    raisesOnly_combine divides mismatches ..

end Operation

end

/-! ### Monadic operators -/

namespace Operation

variable {kinds : List ErrorKind} (divides : .arithmetic ∈ kinds) (empties : .empty ∈ kinds)

section

variable {α : Type} [Domain α]

/-- A function of each number raises nothing: factorials of no numbers are another failure. -/
theorem raisesOnly_pointwise (op : Pointwise) (numbers : Nested α) :
    RaisesOnly kinds (Domain.pointwise op numbers) := by
  unfold Domain.pointwise
  split
  · split
    · exact .error rfl
    · exact .ok _
  · exact .ok _
  · exact .ok _

include empties

/-- An operator on no elements raises that there are none. -/
theorem raisesOnly_onEmpty (op : MonadicOp) :
    RaisesOnly kinds (onEmpty α op) := by
  unfold onEmpty
  split
  · exact .ok _
  · exact .ok _
  · split
    · exact .ok _
    · exact .raise empties
  · exact .raise empties

include divides

/-- A monadic operator on numbers raises a division by zero or that there are no elements. -/
theorem raisesOnly_onNumbers (op : MonadicOp) (numbers : Nested α) :
    RaisesOnly kinds (onNumbers op numbers) := by
  unfold onNumbers
  split
  · exact raisesOnly_pointwise _ numbers
  · exact .ok _
  · split
    · exact .ok _
    · split
      · exact .error rfl
      · split
        · exact .raise empties
        · split
          · exact .raise divides
          · exact .ok _
  · exact .ok _
  · exact .ok _

variable [Domain.ReadsQuietly α]

/-- `Operation.onNumber` raises what `onNumbers` raises. -/
theorem raisesOnly_onNumber (heap : Heap) (op : MonadicOp) (operand : Operand) :
    RaisesOnly kinds (onNumber α heap op operand) :=
  .bind (Domain.ReadsQuietly.ofDatum _ _) fun numbers =>
    .bind (raisesOnly_onNumbers divides empties op numbers) fun _ => .ok _

/-- `Operation.onItems` raises what `onEmpty` and `onNumbers` raise. -/
theorem raisesOnly_onItems (heap : Heap) (op : MonadicOp) (component : StaticType)
    (items : List Operand) : RaisesOnly kinds (onItems α heap op component items) := by
  unfold onItems
  split
  · exact (raisesOnly_onEmpty empties op).map _
  · split
    · exact .bind (Domain.ReadsQuietly.ofData _ _) fun numbers =>
        .bind (raisesOnly_onNumbers divides empties op numbers) fun _ => .ok _
    · exact .violation _

end

include divides empties

variable [NumericLibrary]

/-- `Operation.onScalar` raises what `onNumber` raises. -/
theorem raisesOnly_onScalar (heap : Heap) (op : MonadicOp) (type : StaticType)
    (operand : Operand) : RaisesOnly kinds (onScalar heap op type operand) := by
  unfold onScalar
  split
  · refine .bind (operand.raisesOnly_asDouble heap) fun double => ?_
    split
    · exact .ok _
    · exact .ok _
    · exact .ok _
    · exact raisesOnly_onNumber divides empties heap _ _
  · split
    · exact .ok _
    · exact .ok _
    · exact .ok _
    · exact raisesOnly_onNumber divides empties heap _ _

/-- `Operation.onArray` raises what `onItems` raises, and that there is no last element. -/
theorem raisesOnly_onArray (heap : Heap) (op : MonadicOp) (component : StaticType)
    (operand : Operand) : RaisesOnly kinds (onArray heap op component operand) := by
  refine .bind (operand.raisesOnly_elements heap _) fun items => ?_
  split
  · exact .ok _
  · split
    · exact .raise empties
    · exact operand.raisesOnly_element heap _
  · split
    · exact raisesOnly_onItems divides empties heap _ _ _
    · exact raisesOnly_onItems divides empties heap _ _ _

/-- A monadic operator raises divisions by zero and missing elements alone. -/
theorem raisesOnly_monadic (heap : Heap) (op : MonadicOp) (type : StaticType)
    (operand : Operand) : RaisesOnly kinds (monadic heap op type operand) := by
  unfold monadic
  split
  · exact raisesOnly_onArray divides empties heap op _ operand
  · split
    · exact raisesOnly_onScalar divides empties heap op _ operand
    · exact .violation _

/-- A monadic fork raises what its operators raise. -/
theorem raisesOnly_monadicFork (mismatches : .length ∈ kinds) (heap : Heap) (fork : MonadicFork)
    (type : StaticType) (operand : Operand) :
    RaisesOnly kinds (monadicFork heap fork type operand) :=
  .bind (raisesOnly_monadic divides empties ..) fun _ =>
    .bind (raisesOnly_monadic divides empties ..) fun _ =>
    raisesOnly_combine divides mismatches ..

end Operation

/-! ### Indices and conditions -/

section

variable {kinds : List ErrorKind}

/-- An index is checked against both ends of what it points into. -/
theorem raisesOnly_check (outside : .index ∈ kinds) (index : Value) (length : Nat) :
    RaisesOnly kinds (Index.check index length) := by
  unfold Index.check
  split
  · split
    · exact .raise outside
    · split
      · exact .raise outside
      · exact .ok _
  · split
    · exact .raise outside
    · split
      · exact .raise outside
      · exact .ok _
  · exact .error rfl

/-- Testing a condition raises nothing. -/
theorem raisesOnly_holds (heap : Heap) (type : StaticType) (value : Value) :
    RaisesOnly kinds (Operation.holds heap type value) := by
  unfold Operation.holds
  split
  · exact .ok _
  · exact .ok _
  · split
    · split
      · exact .ok _
      · exact (heap.raisesOnly_element value _).map _
      · split
        · exact .ok _
        · exact .error rfl
    · exact .violation _
  · exact .violation _

/-- Asking for the type of a node raises nothing, as a missing type is a violation. -/
theorem raisesOnly_typeOf (annotations : Annotations) (node : Node) :
    RaisesOnly kinds (annotations.typeOf node) := by
  unfold Annotations.typeOf
  split
  · exact .ok _
  · exact .violation _

end

/-! ### Failing from a machine -/

/-- A computation fails when it is run from a machine. -/
def Eval.FailsAt {α : Type} (computation : Eval α) (machine : Machine) (failure : Failure) : Prop :=
  ∃ final, computation.run machine = .failed failure final

namespace Eval.FailsAt

variable {α β : Type} {computation : Eval α} {next : α → Eval β} {machine middle : Machine}
  {failure other : Failure}

/-- A computation does not fail in two ways. -/
theorem unique (fails : computation.FailsAt machine failure)
    (failsOther : computation.FailsAt machine other) : failure = other := by
  obtain ⟨final, ran⟩ := fails
  obtain ⟨otherFinal, ranOther⟩ := failsOther
  rw [ran] at ranOther
  exact (Outcome.failed.inj ranOther).1

/-- A sequence fails with its first computation. -/
theorem first (fails : computation.FailsAt machine failure) :
    (computation >>= next).FailsAt machine failure := by
  obtain ⟨final, ran⟩ := fails
  exact ⟨final, by rw [run_bind, ran]⟩

/-- A sequence fails with what follows its first computation. -/
theorem later {value : α} (ran : computation.run machine = .done value middle)
    (fails : (next value).FailsAt middle failure) :
    (computation >>= next).FailsAt machine failure := by
  obtain ⟨final, failed⟩ := fails
  exact ⟨final, by rw [run_bind_of_done ran, failed]⟩

/-- A sequence fails in its first computation or in what follows it. -/
theorem of_bind (fails : (computation >>= next).FailsAt machine failure) :
    computation.FailsAt machine failure ∨
      ∃ value middle, computation.run machine = .done value middle ∧
        (next value).FailsAt middle failure := by
  obtain ⟨final, failed⟩ := fails
  rcases failed_of_bind failed with inFirst | ⟨value, middle, ran, inRest⟩
  · exact .inl ⟨final, inFirst⟩
  · exact .inr ⟨value, middle, ran, final, inRest⟩

/-- A failure whose place is known passes through every expression around it. -/
theorem located {node : Unit → String} (placed : ∀ error, failure ≠ .runtime error none)
    (fails : computation.FailsAt machine failure) :
    (locate node computation).FailsAt machine failure := by
  obtain ⟨final, ran⟩ := fails
  refine ⟨final, ?_⟩
  have same : failure.locate node = failure := by
    cases failure with
    | runtime error place =>
        cases place with
        | none => exact absurd rfl (placed error)
        | some place => rfl
    | _ => rfl
  simp only [run, locate] at ran ⊢
  rw [ran]
  simp only [same]

/-- A computation in a new frame fails exactly as it does there. -/
theorem within_iff {opening : FrameTree Copy → FrameId → FrameId × FrameTree Copy} :
    (within opening computation).FailsAt machine failure ↔
      computation.FailsAt (machine.enter opening) failure := by
  have ran : (within opening computation).run machine =
      (computation.run (machine.enter opening)).backIn machine.here := rfl
  unfold FailsAt
  rw [ran]
  cases computation.run (machine.enter opening) with
  | failed found final => simp [Outcome.backIn]
  | done value final => simp [Outcome.backIn]
  | unfinished => simp [Outcome.backIn]

end Eval.FailsAt

/-! ### Runtime errors of single steps -/

/-- The runtime errors with which a computation fails when it is run from a machine are of some
kinds, and have no place yet. -/
def Eval.RaisesAt {α : Type} (kinds : List ErrorKind) (computation : Eval α) (machine : Machine) :
    Prop :=
  ∀ failure, computation.FailsAt machine failure → failure.Among kinds

namespace Eval.RaisesAt

variable {α β : Type} {kinds : List ErrorKind} {computation : Eval α} {next : α → Eval β}
  {machine : Machine}

/-- What does not fail raises nothing. -/
theorem of_never (never : ∀ failure, ¬ computation.FailsAt machine failure) :
    computation.RaisesAt kinds machine :=
  fun failure fails => absurd fails (never failure)

/-- What does not end raises nothing. -/
theorem unfinished : (Eval.unfinished : Eval α).RaisesAt kinds machine := by
  refine .of_never fun failure => ?_
  rintro ⟨final, ran⟩
  cases ran

/-- What is done does not fail: from `computation.run machine = .done value final` it raises
nothing. -/
theorem of_done {value : α} {final : Machine} (ran : computation.run machine = .done value final) :
    computation.RaisesAt kinds machine := by
  rintro failure ⟨last, failed⟩
  rw [ran] at failed
  cases failed

/-- Giving a value raises nothing. -/
theorem pure (value : α) : (Pure.pure value : Eval α).RaisesAt kinds machine :=
  of_done (run_pure value machine)

/-- Looking at the machine raises nothing. -/
theorem look (view : Machine → α) : (Eval.look view).RaisesAt kinds machine :=
  of_done (run_look view machine)

/-- Making an object raises nothing. -/
theorem make (object : Object) : (Eval.make object).RaisesAt kinds machine :=
  of_done (run_make object machine)

/-- Keeping a copy raises nothing. -/
theorem keep (copy : Copy) : (Eval.keep copy).RaisesAt kinds machine :=
  of_done (run_keep copy machine)

/-- Replacing an object raises nothing. -/
theorem replace (ref : Ref) (object : Object) : (Eval.replace ref object).RaisesAt kinds machine :=
  of_done (run_replace ref object machine)

/-- A sequence raises only what its first computation raises, and the rest from where that has come
to. -/
theorem bind (first : computation.RaisesAt kinds machine)
    (rest : ∀ value middle, computation.run machine = .done value middle →
      (next value).RaisesAt kinds middle) :
    (computation >>= next).RaisesAt kinds machine := by
  intro failure fails
  rcases fails.of_bind with inFirst | ⟨value, middle, ran, inRest⟩
  · exact first failure inFirst
  · exact rest value middle ran failure inRest

/-- A computation without state raises what its result is. -/
theorem ofExcept {result : Except Failure α} (raises : RaisesOnly kinds result) :
    (Eval.ofExcept result).RaisesAt kinds machine := by
  cases raises with
  | ok => exact pure _
  | error among =>
      rintro failure ⟨final, failed⟩
      cases failed
      exact among

/-- Failing without a report raises nothing. -/
theorem fail {failure : Failure} (other : failure.report? = none) :
    (Eval.fail failure : Eval α).RaisesAt kinds machine := by
  rintro failed ⟨final, ran⟩
  cases ran
  exact .of_report? other

/-- Raising an error raises the kind of this error. -/
theorem raise {error : RuntimeError} (isAmong : error.kind ∈ kinds) :
    (Eval.raise error : Eval α).RaisesAt kinds machine := by
  rintro failed ⟨final, ran⟩
  cases ran
  intro error' place isRuntime
  cases isRuntime
  exact ⟨rfl, isAmong⟩

/-- A computation whose own errors are known fails in an expression at the text of that
expression. -/
theorem place_of_located {text : String} {error : RuntimeError} {place : Option String}
    (raises : computation.RaisesAt kinds machine)
    (fails : (locate (fun _ => text) computation).FailsAt machine (.runtime error place)) :
    place = some text ∧ error.kind ∈ kinds := by
  obtain ⟨final, failed⟩ := fails
  obtain ⟨failure, located, ran⟩ := failed_of_locate failed
  cases failure with
  | runtime found foundPlace =>
      obtain ⟨rfl, isAmong⟩ := raises _ ⟨final, ran⟩ found foundPlace rfl
      cases located
      exact ⟨rfl, isAmong⟩
  | _ => cases located

end Eval.RaisesAt

/-! ### Steps of an evaluation -/

namespace Evaluation

variable {kinds : List ErrorKind} {machine : Machine}

mutual

/-- Making a value of an operand raises nothing, by induction on its layout. -/
theorem raisesAt_settle (machine : Machine) :
    (operand : Operand) → (Eval.settle operand).RaisesAt kinds machine
  | .item copy => .keep copy
  | .row parts => .bind (raisesAt_settleAll machine parts) fun _ _ _ => .make _

/-- Making values of several operands raises nothing, by the same induction. -/
theorem raisesAt_settleAll (machine : Machine) :
    (parts : List Operand) → (Eval.settleAll parts).RaisesAt kinds machine
  | [] => .pure _
  | part :: parts =>
      .bind (raisesAt_settle machine part) fun _ middle _ =>
        .bind (raisesAt_settleAll middle parts) fun _ _ _ => .pure _

end

/-- An operator that is applied raises what it raises by itself. -/
theorem raisesAt_operate {operator : Heap → Except Failure Operand}
    (raises : ∀ heap, RaisesOnly kinds (operator heap)) :
    (Eval.operate operator).RaisesAt kinds machine :=
  .bind (.look _) fun heap _ _ => .bind (.ofExcept (raises heap)) fun operand middle _ =>
    raisesAt_settle middle operand

/-- Asking for the type of a node raises nothing. -/
theorem raisesAt_typeOf (annotations : Annotations) (node : Node) :
    (typeOf annotations node).RaisesAt kinds machine :=
  .ofExcept (raisesOnly_typeOf annotations node)

/-- Reading a name raises nothing: an undefined name is another failure. -/
theorem raisesAt_readName (name : String) : (Eval.readName name).RaisesAt kinds machine := by
  have quiet : RaisesOnly kinds (machine.frames.lookup machine.here name) := by
    unfold FrameTree.lookup
    split
    · exact .ok _
    · exact .error rfl
  refine .bind (.look _) fun found middle ran => ?_
  cases ran
  exact .ofExcept quiet

/-- Resolving a reference raises nothing. -/
theorem raisesAt_resolve (annotations : Annotations) (id : NodeId) (name : String) :
    (resolve annotations id name).RaisesAt kinds machine := by
  unfold resolve
  split
  · exact .pure _
  · exact raisesAt_readName name

/-- An array is indexed only if it is there. -/
theorem raisesAt_extent (missing : .null ∈ kinds) (value : Value) :
    (extent value).RaisesAt kinds machine := by
  unfold extent
  split
  · exact .raise missing
  · refine .bind (.look _) fun found middle _ => ?_
    split
    · exact .pure _
    · exact .fail rfl

/-- Reading an element raises nothing once its index is checked. -/
theorem raisesAt_readElement (value : Value) (index : Index) :
    (readElement value index).RaisesAt kinds machine :=
  .bind (.look _) fun heap _ _ => .bind (.ofExcept (heap.raisesOnly_element value index))
    fun _ _ _ => .keep _

/-- A field is read only of an object that is there. -/
theorem raisesAt_readField (missing : .null ∈ kinds) (stem : Value) (name : String) :
    (readField stem name).RaisesAt kinds machine := by
  unfold readField
  split
  · exact .raise missing
  · refine .bind (.look _) fun heap _ _ => ?_
    split
    · split
      · exact .pure _
      · exact .fail rfl
    · split
      · exact .keep _
      · exact .fail rfl

/-- Writing an element raises nothing once its index is checked. -/
theorem raisesAt_writeElement (target : Value) (index : Index) (value : Copy) :
    (writeElement target index value).RaisesAt kinds machine := by
  refine .bind (.look _) fun object _ _ => ?_
  split
  · split
    · exact .replace _ _
    · exact .fail rfl
  · exact .replace _ _
  · exact .fail rfl

/-- Writing a field raises nothing once its object is known to be there. -/
theorem raisesAt_writeField (stem : Value) (name : String) (value : Copy) :
    (writeField stem name value).RaisesAt kinds machine := by
  refine .bind (.look _) fun object _ _ => ?_
  split
  · exact .replace _ _
  · exact .fail rfl

/-- Writing to a name raises nothing: an undefined name is another failure. -/
theorem raisesAt_writeName (name : String) (value : Copy) :
    (Eval.writeName name value).RaisesAt kinds machine := by
  rintro failure ⟨final, failed⟩
  simp only [Eval.run, Eval.writeName] at failed
  split at failed
  · cases failed
  · cases failed
    exact .of_report? rfl

/-- Printing raises nothing. -/
theorem raisesAt_print (copy : Copy) : (Eval.print copy).RaisesAt kinds machine :=
  .of_done rfl

/-- Making an object of a declared type raises nothing. -/
theorem raisesAt_construct (annotations : Annotations) (of : Value) (arguments : List Copy) :
    (construct annotations of arguments).RaisesAt kinds machine := by
  unfold construct
  split
  · split
    · split
      · exact .make _
      · exact .fail rfl
    · exact .fail rfl
  · exact .fail rfl

/-- Calling what is no function raises nothing: it is another failure. -/
theorem raisesAt_notCallable (callee : Value) : (notCallable callee).RaisesAt kinds machine :=
  .bind (.look _) fun _ _ _ => .fail rfl

end Evaluation

end ArrayForks
