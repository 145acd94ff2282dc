import ArrayForks.Proofs.HeapShape
import ArrayForks.Proofs.Pieces

/-! # Standards for copies

A standard says what has to hold of a copy, in view of the machine that has it. A machine complies
with a standard if every copy in its frames and in its objects meets it, and every key of a structure
as well. If the copies that a single step makes meet the standard, then a run keeps to it: every
machine from which a piece of the run starts, and every machine in which one ends, with a value or
with a failure, complies with the standard, and a value that a piece ends with meets it there. What
single steps make may depend on how large the values of the run are, so the steps are asked only
about values that are admitted.

* **`Standard.IsLawful`** collects what a standard asks of single steps.
* **`upholds`** is the induction over pieces: evaluations and executions uphold a lawful standard.
* **`Reaches.complies`**, **`Reaches.complies_final`**: so every machine that a run comes to
  complies. -/

namespace ArrayForks

open Evaluation (evaluate evaluateAll widen decided?)
open Execution (condition execute executeAll repeatWhile callsTo)

/-- What is asked of a copy, in view of the machine that has it. -/
abbrev Standard := Machine → Copy → Prop

/-- Copies that meet a standard one by one. -/
abbrev Standard.All (standard : Standard) (machine : Machine) (copies : List Copy) : Prop :=
  ∀ copy ∈ copies, standard machine copy

/-- A statement ends with a value that meets the standard, if it returns one. -/
abbrev Standard.Result (standard : Standard) (machine : Machine)
    (control : Control) : Prop :=
  standard machine control.result

/-- The copies that an object holds. -/
def Object.copies : Object → List Copy
  | .array items => items
  | .record entries => entries.values
  | .constructor of => [.new of]

/-- A value that is neither an object nor a declaration. Words are in their range. -/
def Value.IsPlain : Value → Prop
  | .object _ | .function _ _ | .type _ _ => False
  | .int n => Word.InRange n
  | _ => True

/-- The declaration that a value is. -/
def Value.declaration? : Value → Option NodeId
  | .function _ declaration | .type _ declaration => some declaration
  | _ => none

/-- The truth values are plain words. -/
theorem Value.isPlain_ofBool (b : Bool) : (Value.ofBool b).IsPlain := by
  have inRange : ∀ b : Bool, Word.InRange (if b then 1 else 0) := by decide
  exact inRange b

/-- The truth values are plain numbers. -/
theorem Value.isPlain_truth (floating b : Bool) : (Value.truth floating b).IsPlain := by
  cases floating with
  | true => trivial
  | false => exact isPlain_ofBool b

namespace Machine

/-- The objects of the one machine are there in the other one and of the same shapes, and no fewer
copies have been counted. -/
structure Grows (before after : Machine) : Prop where
  shapes_stay : before.ShapesStay after
  made_le : before.made ≤ after.made

/-- Whatever the machine binds and holds meets a standard. -/
structure Upholds (machine : Machine) (standard : Standard) : Prop where
  frames (id : FrameId) : standard.All machine (machine.frames.own id).values
  objects (ref : Ref) (object : Object) (found : machine.heap.get? ref = some object) :
    standard.All machine object.copies

/-- Whatever the machine binds and holds meets a standard, and so do the keys of its structures. -/
structure Complies (machine : Machine) (standard : Standard) : Prop extends
    machine.Upholds standard where
  keys (ref : Ref) (entries : Bindings Key Copy)
    (found : machine.heap.get? ref = some (.record entries)) :
    ∀ key ∈ entries.names, standard machine (.new key.value)

/-- Nothing has to change. -/
theorem Grows.refl (machine : Machine) : machine.Grows machine :=
  ⟨Heap.ShapesStay.refl machine.heap, Nat.le_refl _⟩

/-- What grows twice has grown. -/
theorem Grows.trans {first middle last : Machine} (start : first.Grows middle)
    (rest : middle.Grows last) : first.Grows last :=
  ⟨Heap.ShapesStay.trans start.shapes_stay rest.shapes_stay, Nat.le_trans start.made_le rest.made_le⟩

/-- A program starts from a machine that complies with a standard if the printing function meets
it. -/
theorem complies_initial {standard : Standard} (printing : standard initial printer) :
    initial.Complies standard where
  frames id copy isIn := by
    cases id with
    | zero => exact List.mem_singleton.mp isIn ▸ printing
    | succ id => cases isIn
  objects ref object found := by cases found
  keys ref entries found := by cases found

/-- Frames are no matter for growth. -/
theorem grows_moved (machine : Machine) (frames : FrameTree Copy) (here : FrameId) :
    machine.Grows { machine with frames, here } :=
  ⟨Heap.ShapesStay.refl machine.heap, Nat.le_refl _⟩

/-- The heap has room for the objects that it had before. -/
theorem Grows.size_le {before after : Machine} (grows : before.Grows after) :
    before.heap.objects.size ≤ after.heap.objects.size := by
  refine Nat.le_of_not_lt fun fewer => ?_
  obtain ⟨current, found, _⟩ := grows.shapes_stay _ _ (Array.getElem?_eq_getElem fewer)
  exact Nat.lt_irrefl _ (Heap.lt_size_of_get? found)

end Machine

/-- A standard that is still met when the machine has grown, and that is met by everything that a
step makes of copies that meet it. The values whose elements a step counts are admitted, and the
declarations that a step makes a value of are declared. -/
structure Standard.IsLawful [NumericLibrary] (standard admitted : Standard)
    (declared : NodeId → Prop) : Prop where
  mono {before after : Machine} {copy : Copy} (grows : before.Grows after)
    (meets : standard before copy) : standard after copy
  plain (machine : Machine) {value : Value} (isPlain : value.IsPlain) :
    standard machine (.new value)
  written (machine : Machine) (node : NodeId) {value : Value} (isPlain : value.IsPlain) :
    standard machine (.written node value)
  declaration (machine : Machine) (value : Value) {id : NodeId}
    (isDeclaration : value.declaration? = some id) (isDeclared : declared id) :
    standard machine (.new value)
  object (machine : Machine) {ref : Ref} (inHeap : ref < machine.heap.objects.size) :
    standard machine (.new (.object ref))
  counted {machine : Machine} {copy : Copy} {items : List Copy}
    (complies : machine.Complies standard) (isAdmitted : admitted machine copy)
    (hasItems : machine.heap.items? copy.value = some items) :
    standard machine (.new (.int items.length))
  key {machine : Machine} {index : Copy} {length : Nat} {place : Index}
    (meets : standard machine index) (checked : Index.check index.value length = .ok place) :
    standard machine (.new (Key.ofIndex place).value)
  ofValue {machine : Machine} {copy : Copy} (meets : standard machine copy) :
    standard machine (.new copy.value)
  shown {machine : Machine} {copy : Copy} (meets : standard machine copy) :
    standard machine (copy.shown machine.heap)
  kept {machine : Machine} {copy : Copy} (meets : standard machine copy) :
    standard { machine with made := machine.made + 1 } (copy.keep machine.made)
  diadic {machine : Machine} {left right : Copy} {op : DiadicOp} {leftType rightType : StaticType}
    {result : Operand} (complies : machine.Complies standard) (ofLeft : standard machine left)
    (ofRight : standard machine right)
    (applied : Operation.diadic machine.heap op leftType rightType (.item left) (.item right) =
      .ok result) : standard.All machine result.items
  monadic {machine : Machine} {value : Copy} {op : MonadicOp} {type : StaticType}
    {result : Operand} (complies : machine.Complies standard) (ofValue : standard machine value)
    (isAdmitted : admitted machine value)
    (applied : Operation.monadic machine.heap op type (.item value) = .ok result) :
    standard.All machine result.items
  monadicFork {machine : Machine} {value : Copy} {fork : MonadicFork} {type : StaticType}
    {result : Operand} (complies : machine.Complies standard) (ofValue : standard machine value)
    (isAdmitted : admitted machine value)
    (applied : Operation.monadicFork machine.heap fork type (.item value) = .ok result) :
    standard.All machine result.items
  diadicFork {machine : Machine} {left right : Copy} {fork : DiadicFork}
    {leftType rightType : StaticType} {result : Operand} (complies : machine.Complies standard)
    (ofLeft : standard machine left) (ofRight : standard machine right)
    (applied : Operation.diadicFork machine.heap fork leftType rightType (.item left)
      (.item right) = .ok result) : standard.All machine result.items

/-- An entry is written under a key that is there or under the index itself, and both meet the
standard. -/
theorem Standard.meets_among {standard : Standard} {machine : Machine} {keys : List Key}
    {index : Index} (keysMeet : ∀ key ∈ keys, standard machine (.new key.value))
    (keyMeets : standard machine (.new (Key.ofIndex index).value)) :
    standard machine (.new (Key.among keys index).value) := by
  rcases Key.among_mem_or_eq keys index with before | new
  · exact keysMeet _ before
  · exact new ▸ keyMeets

/-- A computation ends, if it does, in a machine that has grown and complies with a standard, and a
value that it ends with is right there. -/
inductive Outcome.Upholds {α : Type} (standard : Standard) (right : Machine → α → Prop)
    (start : Machine) : Outcome α → Prop where
  /-- With a value. -/
  | done {value : α} {final : Machine} (grows : start.Grows final)
      (complies : final.Complies standard) (isRight : right final value) :
      Upholds standard right start (.done value final)
  /-- With a failure. -/
  | failed (failure : Failure) {final : Machine} (grows : start.Grows final)
      (complies : final.Complies standard) : Upholds standard right start (.failed failure final)
  /-- Not within its limit. -/
  | unfinished : Upholds standard right start .unfinished

/-- Run from a machine that complies with a standard, a computation upholds it. -/
def Eval.Upholds {α : Type} (computation : Eval α) (standard : Standard)
    (right : Machine → α → Prop) (machine : Machine) : Prop :=
  machine.Complies standard → (computation.run machine).Upholds standard right machine

variable {standard admitted : Standard} {declared : NodeId → Prop}

namespace Machine.Complies

variable {machine : Machine} (complies : machine.Complies standard)
  (texts : ∀ text, standard machine (.new (.string text)))

include complies texts

/-- The elements of an array, the characters of a text and the keys of a structure meet the
standard. -/
theorem items {value : Value} {items : List Copy}
    (hasItems : machine.heap.items? value = some items) : standard.All machine items := by
  unfold Heap.items? at hasItems
  split at hasItems
  · cases hasItems
    intro copy isIn
    obtain ⟨character, _, rfl⟩ := List.mem_map.mp isIn
    exact texts _
  · split at hasItems
    · next isArray =>
        cases hasItems
        obtain ⟨ref, rfl, held⟩ := Heap.object?_eq_some isArray
        exact complies.objects ref _ held
    · next isRecord =>
        cases hasItems
        obtain ⟨ref, rfl, held⟩ := Heap.object?_eq_some isRecord
        intro copy isIn
        obtain ⟨key, isKey, rfl⟩ := List.mem_map.mp isIn
        exact complies.keys ref _ held key isKey
    · cases hasItems

/-- What is held at an index meets the standard. -/
theorem element {value : Value} {index : Index} {element : Copy}
    (found : machine.heap.element value index = .ok element) : standard machine element := by
  unfold Heap.element at found
  split at found
  · next isRecord =>
      obtain ⟨ref, rfl, held⟩ := Heap.object?_eq_some isRecord
      split at found
      · next bound =>
          cases found
          exact complies.objects ref _ held _ (Bindings.mem_values_of_find? bound)
      · cases found
  · split at found
    · next hasItems =>
        split at found
        · next atPlace =>
            cases found
            exact complies.items texts hasItems _ (List.mem_of_getElem? atPlace)
        · cases found
    · cases found

end Machine.Complies

/-- The way to where a computation started counts as well. -/
theorem Outcome.Upholds.since {α : Type} {right : Machine → α → Prop} {outcome : Outcome α}
    {first middle : Machine} (upheld : outcome.Upholds standard right middle)
    (grows : first.Grows middle) : outcome.Upholds standard right first := by
  cases upheld with
  | done later complies isRight => exact .done (grows.trans later) complies isRight
  | failed failure later complies => exact .failed failure (grows.trans later) complies
  | unfinished => exact .unfinished

/-! ### Sequences -/

namespace Eval.Upholds

variable {α β : Type} {right : Machine → α → Prop} {rightLast : Machine → β → Prop}
  {machine last : Machine}

/-- A value is handed on as it is. -/
theorem pure {value : α} (isRight : right machine value) :
    Upholds (Pure.pure value) standard right machine :=
  fun complies => .done (.refl machine) complies isRight

/-- A failure gives no value. -/
theorem fail (failure : Failure) : Upholds (Eval.fail failure) standard right machine :=
  fun complies => .failed failure (.refl machine) complies

/-- What does not end gives no value. -/
theorem unfinished : Upholds Eval.unfinished standard right machine :=
  fun _ => .unfinished

/-- What follows starts from the machine that the first computation ended in. -/
theorem bind {computation : Eval α} {next : α → Eval β}
    (first : computation.Upholds standard right machine)
    (rest : ∀ value middle, computation.run machine = .done value middle → machine.Grows middle →
      right middle value → (next value).Upholds standard rightLast middle) :
    (computation >>= next).Upholds standard rightLast machine := by
  intro complies
  have ends := first complies
  rw [Eval.run_bind]
  generalize ran : computation.run machine = outcome at ends
  cases ends with
  | unfinished => exact .unfinished
  | failed failure later complied => exact .failed failure later complied
  | @done value middle later complied isRight =>
      exact (rest value middle ran later isRight complied).since later

/-- What is seen of a machine is seen of one that complies with the standard. -/
theorem bind_look {view : Machine → α} {next : α → Eval β}
    (rest : machine.Complies standard →
      (next (view machine)).Upholds standard rightLast machine) :
    (Eval.look view >>= next).Upholds standard rightLast machine :=
  fun complies => rest complies complies

/-- What goes on from a result has to uphold the standard only if there is a value. -/
theorem bind_ofExcept {result : Except Failure α} {next : α → Eval β}
    (rest : ∀ value, result = .ok value → (next value).Upholds standard rightLast machine) :
    (Eval.ofExcept result >>= next).Upholds standard rightLast machine := by
  cases result with
  | error failure => exact fail failure
  | ok value => exact rest value rfl

/-- A result is right if its value is, where it has one. -/
theorem ofExcept {result : Except Failure α}
    (isRight : ∀ value, result = .ok value → right machine value) :
    (Eval.ofExcept result).Upholds standard right machine := by
  cases result with
  | error failure => exact fail failure
  | ok value => exact pure (isRight value rfl)

/-- The place of a failure does not matter. -/
theorem locate (node : Unit → String) {computation : Eval α}
    (located : computation.Upholds standard right machine) :
    (Eval.locate node computation).Upholds standard right machine := by
  intro complies
  have ends := located complies
  simp only [Eval.run, Eval.locate] at ends ⊢
  split
  · next ran =>
      rw [ran] at ends
      cases ends with
      | failed _ later complied => exact .failed _ later complied
  · exact ends

/-- The length of a value is a number; the heap stays as it is. -/
theorem extent (value : Value) :
    (Evaluation.extent value).Upholds standard (fun _ _ => True) machine := by
  unfold Evaluation.extent
  split
  · exact .fail _
  · refine .bind_look fun _ => ?_
    split
    · exact .pure trivial
    · exact .fail _

/-- Refusing a call gives no value. -/
theorem notCallable (callee : Value) :
    (Evaluation.notCallable callee).Upholds standard standard machine :=
  .bind_look fun _ => .fail _

/-- What a name is bound to in a frame meets the standard. -/
theorem readName (name : String) : (Eval.readName name).Upholds standard standard machine := by
  refine .bind_look fun complies => .ofExcept fun copy found => ?_
  obtain ⟨frame, bound⟩ := FrameTree.exists_find?_of_lookup found
  exact complies.frames frame copy (Bindings.mem_values_of_find? bound)

/-- The result of statements is the value they return, or `null`. -/
theorem result {computation : Eval Control}
    (upheld : computation.Upholds standard standard.Result machine) :
    (do
      let control ← computation
      Pure.pure control.result).Upholds standard standard machine :=
  .bind upheld fun _ _ _ _ met => .pure met

/-- A condition upholds the standard if its expression does. -/
theorem condition [NumericLibrary] {annotations : Annotations} {calls : Calls} {test : Node}
    (tested : (evaluate annotations calls test).Upholds standard standard machine) :
    (Execution.condition annotations calls test).Upholds standard (fun _ _ => True) machine :=
  .bind tested fun _ _ _ _ _ => .bind_ofExcept fun _ _ => .bind_look fun _ =>
    .ofExcept fun _ _ => trivial

/-- A computation that has ended with a value has upheld the standard. -/
theorem of_done {computation : Eval α} {value : α}
    (upheld : computation.Upholds standard right machine) (complies : machine.Complies standard)
    (ran : computation.run machine = .done value last) :
    last.Complies standard ∧ right last value := by
  have ends := upheld complies
  rw [ran] at ends
  cases ends with
  | done _ complies isRight => exact ⟨complies, isRight⟩

/-- However a computation has ended, it has upheld the standard. -/
theorem final {computation : Eval α} (upheld : computation.Upholds standard right machine)
    (complies : machine.Complies standard)
    (ended : (computation.run machine).machine? = some last) : last.Complies standard := by
  have ends := upheld complies
  generalize computation.run machine = outcome at ends ended
  cases ends with
  | done _ complies _ =>
      cases ended
      exact complies
  | failed _ _ complies =>
      cases ended
      exact complies
  | unfinished => cases ended

end Eval.Upholds

/-! ### Steps -/

variable [NumericLibrary]

namespace Standard.IsLawful

variable (lawful : standard.IsLawful admitted declared) {machine : Machine}

include lawful

/-- A machine still complies with the standard when it has grown and has got only copies and keys
that meet it. -/
theorem complies_after {final : Machine} (grows : machine.Grows final)
    (frames : ∀ id, standard.All machine (final.frames.own id).values)
    (objects : ∀ ref object, final.heap.get? ref = some object →
      standard.All machine object.copies)
    (keys : ∀ ref entries, final.heap.get? ref = some (.record entries) →
      ∀ key ∈ entries.names, standard machine (.new key.value)) : final.Complies standard where
  frames id copy isIn := lawful.mono grows (frames id copy isIn)
  objects ref object found copy isIn := lawful.mono grows (objects ref object found copy isIn)
  keys ref entries found key isIn := lawful.mono grows (keys ref entries found key isIn)

/-- A copy that is kept under a new number meets the standard if it did before. -/
theorem keep {copy : Copy} (meets : standard machine copy) :
    (Eval.keep copy).Upholds standard standard machine := by
  intro complies
  have counts : machine.Grows { machine with made := machine.made + 1 } :=
    ⟨Heap.ShapesStay.refl machine.heap, Nat.le_succ _⟩
  rw [Eval.run_keep]
  exact .done counts (lawful.complies_after counts complies.frames complies.objects complies.keys)
    (lawful.kept meets)

/-- An object may be made of copies and keys that meet the standard. -/
theorem make {object : Object} (meets : standard.All machine object.copies)
    (keysMeet : ∀ entries, object = .record entries →
      ∀ key ∈ entries.names, standard machine (.new key.value)) :
    (Eval.make object).Upholds standard standard machine := by
  intro complies
  have grown : machine.Grows { machine with heap := (machine.heap.alloc object).2 } :=
    ⟨Heap.shapesStay_alloc machine.heap object, Nat.le_refl _⟩
  rw [Eval.run_make]
  refine .done grown (lawful.complies_after grown complies.frames ?_ ?_) (lawful.object _ ?_)
  · intro ref held found
    rw [Heap.get?_alloc] at found
    split at found
    · cases found
      exact meets
    · exact complies.objects ref held found
  · intro ref entries found
    rw [Heap.get?_alloc] at found
    split at found
    · exact keysMeet entries (Option.some.inj found)
    · exact complies.keys ref entries found
  · rw [Heap.size_alloc]
    exact Nat.lt_succ_self _

/-- An array has no keys. -/
theorem makeArray {items : List Copy} (meets : standard.All machine items) :
    (Eval.make (.array items)).Upholds standard standard machine :=
  lawful.make meets fun entries isRecord => by cases isRecord

mutual

/-- The items of an operand may be kept as one value, `Eval.settle operand`. -/
theorem settle : (operand : Operand) → {machine : Machine} →
    (meets : standard.All machine operand.items) →
    (Eval.settle operand).Upholds standard standard machine
  | .item copy, _, meets => lawful.keep (meets copy List.mem_cons_self)
  | .row parts, _, meets =>
      .bind (settleAll parts meets) fun _ _ _ _ met => lawful.makeArray met

/-- The items of a row may be kept one after the other. -/
theorem settleAll : (parts : List Operand) → {machine : Machine} →
    (meets : standard.All machine (Nested.allItems parts)) →
    (Eval.settleAll parts).Upholds standard standard.All machine
  | [], _, _ => .pure fun _ isIn => absurd isIn List.not_mem_nil
  | part :: parts, _, meets =>
      .bind (settle part fun copy isIn => meets copy (List.mem_append_left _ isIn))
        fun _ _ _ grows met =>
          .bind (settleAll parts fun copy isIn =>
            lawful.mono grows (meets copy (List.mem_append_right _ isIn))) fun _ _ _ again rest =>
          .pure (List.forall_mem_cons.mpr ⟨lawful.mono again met, rest⟩)

end

/-- An operator is applied whose results meet the standard if its operands do. -/
theorem operate {operator : Heap → Except Failure Operand}
    (meets : ∀ result, machine.Complies standard → operator machine.heap = .ok result →
      standard.All machine result.items) :
    (Eval.operate operator).Upholds standard standard machine :=
  .bind_look fun complies => .bind_ofExcept fun result applied =>
    lawful.settle result (meets result complies applied)

/-- What is printed is handed on. -/
theorem print {copy : Copy} (meets : standard machine copy) :
    (Eval.print copy).Upholds standard standard machine := by
  intro complies
  have printed : machine.Grows
      { machine with output := machine.output ++ (machine.heap.unfold copy.value).text ++ "\n" } :=
    ⟨Heap.ShapesStay.refl machine.heap, Nat.le_refl _⟩
  have met := lawful.mono printed (lawful.shown meets)
  have complied := lawful.complies_after printed complies.frames complies.objects complies.keys
  exact (lawful.keep met complied).since printed

/-- An element that is read meets the standard, as all that the heap holds. -/
theorem readElement (value : Value) (index : Index) :
    (Evaluation.readElement value index).Upholds standard standard machine :=
  .bind_look fun complies => .bind_ofExcept fun _ found =>
    lawful.keep (complies.element (fun _ => lawful.plain machine trivial) found)

/-- A field that is read meets the standard, and so does the length of an array or a text, if the
standard admits the stem. -/
theorem readField {stem : Copy} (isAdmitted : admitted machine stem) (name : String) :
    (Evaluation.readField stem.value name).Upholds standard standard machine := by
  unfold Evaluation.readField
  split
  · exact .fail _
  · refine .bind_look fun complies => ?_
    split
    · next isRecord =>
        obtain ⟨ref, isObject, held⟩ := Heap.object?_eq_some isRecord
        split
        · next bound =>
            exact .pure (complies.objects ref _ held _ (Bindings.mem_values_of_find? bound))
        · exact .fail _
    · split
      · next hasItems => exact lawful.keep (lawful.counted complies isAdmitted hasItems)
      · exact .fail _

/-- An object is changed to one of its shape with copies and keys that meet the standard. -/
theorem upholds_replace (complies : machine.Complies standard) {ref : Ref} {old new : Object}
    (found : machine.heap.get? ref = some old) (same : old.SameShape new)
    (meets : standard.All machine new.copies)
    (keysMeet : ∀ entries, new = .record entries →
      ∀ key ∈ entries.names, standard machine (.new key.value)) :
    (Outcome.done () { machine with heap := machine.heap.replace ref new }).Upholds standard
      (fun _ _ => True) machine := by
  have replaced : machine.Grows { machine with heap := machine.heap.replace ref new } :=
    ⟨Heap.shapesStay_replace found same, Nat.le_refl _⟩
  refine .done replaced (lawful.complies_after replaced complies.frames ?_ ?_) trivial
  · intro other object foundOther
    rw [Heap.get?_replace] at foundOther
    split at foundOther
    · cases foundOther
      exact meets
    · exact complies.objects other object foundOther
  · intro other entries foundOther
    rw [Heap.get?_replace] at foundOther
    split at foundOther
    · exact keysMeet entries (Option.some.inj foundOther)
    · exact complies.keys other entries foundOther

/-- A structure complies with one more entry that meets the standard under a key that does. -/
theorem upholds_writeEntry (complies : machine.Complies standard) {ref : Ref}
    {entries : Bindings Key Copy} (found : machine.heap.get? ref = some (.record entries))
    {key : Key} (keyMeets : standard machine (.new key.value)) {value : Copy}
    (meets : standard machine value) :
    (Outcome.done () { machine with
      heap := machine.heap.replace ref (.record (entries.insert key value)) }).Upholds standard
      (fun _ _ => True) machine := by
  refine lawful.upholds_replace complies found (.record (Bindings.names_grow_insert _ key value)) ?_ ?_
  · intro copy isIn
    rcases Bindings.mem_values_insert isIn with rfl | before
    · exact meets
    · exact complies.objects ref _ found copy before
  · intro written isRecord other isIn
    cases isRecord
    rw [Bindings.names_insert] at isIn
    split at isIn
    · exact complies.keys ref entries found other isIn
    · rcases List.mem_append.mp isIn with before | new
      · exact complies.keys ref entries found other before
      · exact List.mem_singleton.mp new ▸ keyMeets

/-- An element is written at an index that is a key which meets the standard. -/
theorem writeElement (target : Value) {index : Index}
    (keyMeets : standard machine (.new (Key.ofIndex index).value)) {value : Copy}
    (meets : standard machine value) :
    (Evaluation.writeElement target index value).Upholds standard (fun _ _ => True) machine := by
  intro complies
  simp only [Evaluation.writeElement, Eval.run_bind, Eval.run_look]
  split
  · next items found =>
      split
      · refine lawful.upholds_replace complies found (.array (List.length_set ..)) ?_
          fun entries isRecord => by cases isRecord
        intro copy isIn
        rcases List.mem_or_eq_of_mem_set isIn with before | rfl
        · exact complies.objects _ _ found copy before
        · exact meets
      · exact .failed _ (.refl machine) complies
  · next entries found =>
      have keyThere := Standard.meets_among (complies.keys _ entries found) keyMeets
      exact lawful.upholds_writeEntry complies found keyThere meets
  · exact .failed _ (.refl machine) complies

/-- A value that meets the standard may be written to a field. -/
theorem writeField (stem : Value) (name : String) {value : Copy} (meets : standard machine value) :
    (Evaluation.writeField stem name value).Upholds standard (fun _ _ => True) machine := by
  intro complies
  simp only [Evaluation.writeField, Eval.run_bind, Eval.run_look]
  split
  · next found =>
      have keyMeets : standard machine (.new (Key.name name).value) := lawful.plain machine trivial
      exact lawful.upholds_writeEntry complies found keyMeets meets
  · exact .failed _ (.refl machine) complies

/-- A name is bound to a copy that meets the standard. -/
theorem upholds_insert (complies : machine.Complies standard) (frame : FrameId)
    (name : String) {value : Copy} (meets : standard machine value) :
    (Outcome.done () { machine with
      frames := machine.frames.insert frame name value }).Upholds standard
      (fun _ _ => True) machine := by
  have bound := machine.grows_moved (machine.frames.insert frame name value) machine.here
  refine .done bound (lawful.complies_after bound (fun id copy isIn => ?_) complies.objects
    complies.keys) trivial
  simp only [FrameTree.insert, FrameTree.own_setOwn] at isIn
  split at isIn
  · rcases Bindings.mem_values_insert isIn with rfl | before
    · exact meets
    · exact complies.frames frame copy before
  · exact complies.frames id copy isIn

/-- A value that meets the standard may be written to a name that is bound. -/
theorem writeName (name : String) {value : Copy} (meets : standard machine value) :
    (Eval.writeName name value).Upholds standard (fun _ _ => True) machine := by
  intro complies
  simp only [Eval.run, Eval.writeName]
  split
  · exact lawful.upholds_insert complies _ name meets
  · exact .failed _ (.refl machine) complies

/-- A value that meets the standard may be bound in the current frame. -/
theorem declare (name : String) {value : Copy} (meets : standard machine value) :
    (Eval.declare name value).Upholds standard (fun _ _ => True) machine :=
  fun complies => lawful.upholds_insert complies _ name meets

/-- Several values may be bound one after the other. -/
theorem declareAll : (entries : List (String × Copy)) → {machine : Machine} →
    (meets : ∀ entry ∈ entries, standard machine entry.2) →
    (Eval.declareAll entries).Upholds standard (fun _ _ => True) machine
  | [], _, _ => .pure trivial
  | (name, _) :: entries, _, meets =>
      .bind (lawful.declare name (meets _ List.mem_cons_self)) fun _ _ _ grows _ =>
        declareAll entries fun entry isIn =>
          lawful.mono grows (meets entry (List.mem_cons_of_mem _ isIn))

/-- A new frame binds nothing yet. -/
theorem complies_enter (complies : machine.Complies standard)
    {opening : FrameTree Copy → FrameId → FrameId × FrameTree Copy}
    (opens : ∀ frames here id, (opening frames here).2.own id = frames.own id) :
    (machine.enter opening).Complies standard :=
  lawful.complies_after (machine.grows_moved _ _)
    (fun id => by rw [Machine.enter, opens]; exact complies.frames id) complies.objects
    complies.keys

/-- In a new frame a computation upholds the standard as well. -/
theorem within {α : Type} {right : Machine → α → Prop}
    (steady : ∀ {before after value}, before.Grows after → right before value → right after value)
    {opening : FrameTree Copy → FrameId → FrameId × FrameTree Copy}
    (opens : ∀ frames here id, (opening frames here).2.own id = frames.own id)
    {computation : Eval α} (upheld : computation.Upholds standard right (machine.enter opening)) :
    (Eval.within opening computation).Upholds standard right machine := by
  intro complies
  have entered : machine.Grows (machine.enter opening) := machine.grows_moved _ _
  have ends := (upheld (lawful.complies_enter complies opens)).since entered
  change (Outcome.backIn machine.here (computation.run (machine.enter opening))).Upholds standard
    right machine
  generalize computation.run (machine.enter opening) = outcome at ends
  cases ends with
  | @done value last later complied isRight =>
      have left := last.grows_moved last.frames machine.here
      exact .done (later.trans left)
        (lawful.complies_after left complied.frames complied.objects complied.keys)
        (steady left isRight)
  | @failed failure last later complied =>
      have left := last.grows_moved last.frames machine.here
      exact .failed failure (later.trans left)
        (lawful.complies_after left complied.frames complied.objects complied.keys)
  | unfinished => exact .unfinished

/-- Widening makes a plain double or leaves the copy as it is. -/
theorem meets_widen (type : StaticType) {copy : Copy} (meets : standard machine copy) :
    standard machine (widen type copy) := by
  unfold widen
  split
  · exact lawful.plain machine trivial
  · exact meets

/-- A reference meets the standard, whether it is found in a frame or is bound to a declaration. -/
theorem resolve {annotations : Annotations} {reference : NodeId}
    (declares : ∀ id, annotations.bindingOf? reference = some id → declared id) (name : String) :
    (Evaluation.resolve annotations reference name).Upholds standard standard machine := by
  unfold Evaluation.resolve
  split
  · next value found =>
      obtain ⟨id, bound, isValue⟩ := Option.bind_eq_some_iff.mp found
      have isDeclared := declares id bound
      unfold Annotations.valueOf? at isValue
      split at isValue
      · cases isValue
        exact .pure (lawful.declaration machine _ rfl isDeclared)
      · cases isValue
        exact .pure (lawful.declaration machine _ rfl isDeclared)
      · cases isValue
  · exact .readName name

/-- Fields are keys that are texts. -/
theorem construct (annotations : Annotations) (of : Value) {arguments : List Copy}
    (meets : standard.All machine arguments) :
    (Evaluation.construct annotations of arguments).Upholds standard standard machine := by
  unfold Evaluation.construct
  split
  · split
    · next name fields _ =>
      split
      · refine lawful.make (fun copy isIn => ?_) fun entries isRecord key isKey => ?_
        · obtain ⟨entry, isEntry, rfl⟩ := List.mem_map.mp (Bindings.mem_of_mem_values_ofList isIn)
          exact meets _ (List.of_mem_zip isEntry).2
        · cases isRecord
          obtain ⟨entry, isEntry, rfl⟩ := List.mem_map.mp (Bindings.mem_of_mem_names_ofList isKey)
          obtain ⟨field, _, isField⟩ := List.mem_map.mp (List.of_mem_zip isEntry).1
          exact isField ▸ lawful.plain machine trivial
      · exact .fail _
    · exact .fail _
  · exact .fail _

/-- Nothing is returned from a statement that goes on. -/
theorem normal : (Pure.pure .normal : Eval Control).Upholds standard standard.Result machine :=
  .pure (lawful.plain machine trivial)

/-- A block upholds the standard if its statements do in a new frame within the current one. -/
theorem inBlock {computation : Eval Control}
    (upheld : computation.Upholds standard standard.Result (machine.enter FrameTree.child)) :
    (Eval.inBlock computation).Upholds standard standard.Result machine := by
  unfold Eval.inBlock
  refine lawful.within ?_ FrameTree.own_child upheld
  exact fun grows met => lawful.mono grows met

/-- A call upholds the standard if its statements do in a new frame at the root. -/
theorem inCall {computation : Eval Copy}
    (upheld : computation.Upholds standard standard (machine.enter FrameTree.callFrame)) :
    (Eval.inCall computation).Upholds standard standard machine := by
  unfold Eval.inCall
  refine lawful.within ?_ FrameTree.own_callFrame upheld
  exact fun grows met => lawful.mono grows met

end Standard.IsLawful

/-! ### Pieces -/

/-- What a piece results in meets a standard. -/
def Piece.Meets (standard : Standard) : (piece : Piece) → Machine → piece.Result → Prop
  | .expression _ _ | .program _ _ => standard
  | .row _ _ => standard.All
  | .statement _ _ _ | .sequence _ _ _ | .rounds _ _ _ _ _ => standard.Result

/-- A piece upholds a standard. -/
abbrev Piece.Upholds (annotations : Annotations) (standard : Standard) (piece : Piece)
    (machine : Machine) : Prop :=
  (piece.computation annotations).Upholds standard (piece.Meets standard) machine

/-- The value of every expression that a piece comes to is admitted. -/
def Piece.Admits (annotations : Annotations) (admitted : Standard) (piece : Piece)
    (machine : Machine) : Prop :=
  ∀ depth node start value final,
    Reaches annotations piece machine (.expression depth node) start →
    (evaluate annotations (callsTo annotations depth) node).run start = .done value final →
    admitted final value

/-- The declaration that a piece makes a value of by itself. -/
def Piece.declaration? (annotations : Annotations) : Piece → Option NodeId
  | .expression _ (.reference id _) => annotations.bindingOf? id
  | .statement _ _ (.function id _ _ _) | .statement _ _ (.struct id _ _) => some id
  | _ => none

/-- Every declaration that a piece comes to make a value of is declared. -/
def Piece.Declares (annotations : Annotations) (declared : NodeId → Prop) (piece : Piece)
    (machine : Machine) : Prop :=
  ∀ part start id, Reaches annotations piece machine part start →
    part.declaration? annotations = some id → declared id

namespace Piece

variable {annotations : Annotations} {piece part : Piece} {machine start final : Machine}

/-- What a piece runs makes a value of no other declarations than the piece does. -/
theorem Declares.of_runs (declares : piece.Declares annotations declared machine)
    (runs : Runs annotations piece machine part start) :
    part.Declares annotations declared start :=
  fun part start id later => declares part start id (.head runs later)

/-- What a piece may call, what it comes to run may call. -/
theorem Declares.of_reaches (declares : piece.Declares annotations declared machine)
    (reaches : Reaches annotations piece machine part start) :
    part.Declares annotations declared start :=
  fun part start id later => declares part start id (Relation.ReflTransGen.trans reaches later)

/-- What a piece comes to comes to nothing else than the piece does. -/
theorem Admits.of_runs (admits : piece.Admits annotations admitted machine)
    (runs : Runs annotations piece machine part start) : part.Admits annotations admitted start :=
  fun depth node origin value final later => admits depth node origin value final (.head runs later)

/-- The value of a piece is admitted, and so are those of the pieces that it runs. -/
theorem Admits.of_parts
    (own : ∀ depth node, piece = .expression depth node → ∀ value final,
      (evaluate annotations (callsTo annotations depth) node).run machine = .done value final →
      admitted final value)
    (parts : ∀ part start, Runs annotations piece machine part start →
      part.Admits annotations admitted start) : piece.Admits annotations admitted machine := by
  intro depth node start value final reaches ran
  rcases Relation.ReflTransGen.cases_head reaches with here | ⟨next, runs, further⟩
  · cases here
    exact own depth node rfl value final ran
  · exact parts next.1 next.2 runs depth node start value final further ran

/-- The values of all that a piece reaches are admitted. -/
theorem Admits.of_reaches (admits : piece.Admits annotations admitted machine)
    (reaches : Reaches annotations piece machine part start) :
    part.Admits annotations admitted start :=
  fun depth node origin value final later =>
    admits depth node origin value final (Relation.ReflTransGen.trans reaches later)

/-- The value of an expression that a piece runs is admitted. -/
theorem Admits.of_done {depth : Nat} {node : Node} {value : Copy}
    (admits : piece.Admits annotations admitted machine)
    (runs : Runs annotations piece machine (.expression depth node) start)
    (ran : (evaluate annotations (callsTo annotations depth) node).run start =
      .done value final) : admitted final value :=
  admits depth node start value final (.single runs) ran

section

variable (lawful : standard.IsLawful admitted declared) {depth limit : Nat}

include lawful

/-- A call upholds the standard if the body of the function does. -/
theorem upholds_apply {id : NodeId} {callee : Node} {arguments : List Node}
    {middle last : Machine} {function : Copy} {values : List Copy}
    (parts : ∀ part start, Runs annotations (.expression depth (.call id callee arguments)) machine
      part start → part.Upholds annotations standard start)
    (ranCallee : (evaluate annotations (callsTo annotations depth) callee).run machine =
      .done function middle)
    (ranArguments : (evaluateAll annotations (callsTo annotations depth) arguments).run middle =
      .done values last) (meets : standard.All last values) :
    (Evaluation.apply annotations (callsTo annotations depth) function.value values).Upholds
      standard standard last := by
  refine .bind_look fun _ => ?_
  -- What is called is `null`, the printer, a function, a constructor, or nothing of these.
  generalize isFunction : function.value = value
  split
  · exact .fail _
  · split
    · exact lawful.print (meets _ List.mem_cons_self)
    · exact .fail _
  · next name declaration _ =>
    split
    · next declaredName parameters body declared =>
      cases depth with
      | zero => exact .unfinished
      | succ depth =>
          have entered := last.grows_moved (FrameTree.callFrame last.frames last.here).2
            (FrameTree.callFrame last.frames last.here).1
          have entries (entry : String × Copy) (isIn : entry ∈ parameters.zip values) :
              standard (last.enter FrameTree.callFrame) entry.2 :=
            lawful.mono entered (meets _ (List.of_mem_zip isIn).2)
          refine lawful.inCall (.bind (lawful.declareAll _ entries) fun _ bound ranParameters _ _ => ?_)
          split
          · next fit =>
            exact Eval.Upholds.result (lawful.inBlock
              (parts _ _ (.called ranCallee ranArguments isFunction declared ranParameters fit)))
          · exact .fail _
    · exact .notCallable _
  · exact lawful.construct annotations _ meets
  · exact .notCallable _

/-- An assignment upholds the standard if what it runs does. -/
theorem upholds_assignment {id : NodeId} {target source : Node}
    (parts : ∀ part start, Runs annotations (.expression depth (.assign id target source)) machine
      part start → part.Upholds annotations standard start) :
    (Piece.expression depth (.assign id target source)).Upholds annotations standard machine := by
  unfold Piece.Upholds computation evaluate
  refine .locate _ (.bind_ofExcept fun type typed => ?_)
  -- The value is kept before it is written, and the kept copy is what the assignment gives.
  have written {write : Copy → Eval Unit} {middle : Machine}
      (ofSource : (evaluate annotations (callsTo annotations depth) source).Upholds standard standard
        middle)
      (writes : ∀ {copy last}, middle.Grows last → standard last copy →
        (write copy).Upholds standard (fun _ _ => True) last) :
      (do
        let value ← evaluate annotations (callsTo annotations depth) source
        let value ← Eval.keep (widen type value)
        write value
        Pure.pure value).Upholds standard standard middle :=
    .bind ofSource fun _ _ _ grows met =>
      .bind (lawful.keep (lawful.meets_widen type met)) fun _ _ _ later kept =>
      .bind (writes (grows.trans later) kept) fun _ _ _ written _ => .pure (lawful.mono written kept)
  cases target with
  | reference _ name =>
      exact written (parts _ _ (.toName typed)) fun _ => lawful.writeName name
  | index _ stem position =>
      refine .bind (parts _ _ (.targetArray typed)) fun array _ ranStem _ _ =>
        .bind (.extent _) fun length _ measured _ _ =>
        .bind (parts _ _ (.targetPosition typed ranStem measured))
          fun index _ ranPosition _ met =>
        .bind_ofExcept fun place checked => ?_
      exact written (parts _ _ (.toElement typed ranStem measured ranPosition checked))
        fun grows => lawful.writeElement array.value (lawful.mono grows (lawful.key met checked))
  | field _ stem name =>
      refine .bind (parts _ _ (.targetStem typed)) fun object _ ranStem _ _ => ?_
      split
      · exact .fail _
      · next there =>
        exact written (parts _ _ (.toField typed ranStem there)) fun _ =>
          lawful.writeField object.value name
  | _ => exact .fail _

/-- An expression upholds the standard if what it runs does. -/
theorem upholds_expression {node : Node}
    (admits : (Piece.expression depth node).Admits annotations admitted machine)
    (declares : ∀ id, (Piece.expression depth node).declaration? annotations = some id →
      declared id)
    (parts : ∀ part start, Runs annotations (.expression depth node) machine part start →
      part.Upholds annotations standard start) :
    (Piece.expression depth node).Upholds annotations standard machine := by
  cases node with
  | int id value => exact lawful.keep (lawful.plain machine (Word.wrap_inRange value))
  | float id value => exact .pure (lawful.written machine id trivial)
  | string id text => exact .pure (lawful.written machine id trivial)
  | null id => exact .pure (lawful.plain machine trivial)
  | reference id name => exact lawful.resolve declares name
  | constructor id of =>
      refine .locate _ (.bind (parts _ _ .ofType) fun type middle _ _ met => ?_)
      refine lawful.make (fun copy isIn => ?_) fun entries isRecord => by cases isRecord
      exact List.mem_singleton.mp isIn ▸ lawful.ofValue met
  | array id items =>
      refine .locate _ (.bind_ofExcept fun type typed =>
        .bind (parts _ _ (.items typed)) fun values middle _ _ met =>
        lawful.settle _ fun copy isIn => ?_)
      rw [Nested.items_ofList] at isIn
      obtain ⟨value, isValue, rfl⟩ := List.mem_map.mp isIn
      exact lawful.meets_widen _ (met value isValue)
  | paren id inner => exact .locate _ (parts _ _ .inner)
  | field id stem name =>
      exact .locate _ (.bind (parts _ _ .stem) fun object middle ranStem _ _ =>
        lawful.readField (admits.of_done .stem ranStem) name)
  | index id stem position =>
      exact .locate _ (.bind (parts _ _ .array) fun array _ ranStem _ _ =>
        .bind (.extent _) fun length _ measured _ _ =>
        .bind (parts _ _ (.position ranStem measured)) fun index _ _ _ _ =>
        .bind_ofExcept fun place _ => lawful.readElement array.value place)
  | call id callee arguments =>
      exact .locate _ (.bind (parts _ _ .callee) fun function _ ranCallee _ _ =>
        .bind (parts _ _ (.arguments ranCallee)) fun values _ ranArguments _ met =>
        upholds_apply lawful parts ranCallee ranArguments met)
  | diadic id left op right =>
      refine .locate _ (.bind_ofExcept fun leftType leftTyped =>
        .bind_ofExcept fun rightType rightTyped =>
        .bind (parts _ _ (.left leftTyped rightTyped)) fun leftValue middle ranLeft _ met => ?_)
      split
      · next decided =>
          obtain ⟨b, rfl⟩ := Evaluation.exists_of_decided? decided
          exact lawful.keep (lawful.plain middle (Value.isPlain_truth _ b))
      · next undecided =>
          -- The left value was met by an earlier machine, and the standard lasts while machines
          -- grow.
          exact .bind (parts _ _ (.right leftTyped rightTyped ranLeft undecided))
            fun rightValue last _ grows metRight =>
            lawful.operate fun result complies applied =>
              lawful.diadic complies (lawful.mono grows met) metRight applied
  | monadic id op operand =>
      exact .locate _ (.bind (parts _ _ .operand) fun value middle ranOperand _ met =>
        .bind_ofExcept fun type _ => lawful.operate fun result complies applied =>
          lawful.monadic complies met (admits.of_done .operand ranOperand) applied)
  | monadicFork id fork operand =>
      exact .locate _ (.bind (parts _ _ .forked) fun value middle ranOperand _ met =>
        .bind_ofExcept fun type _ => lawful.operate fun result complies applied =>
          lawful.monadicFork complies met (admits.of_done .forked ranOperand) applied)
  | diadicFork id left fork right =>
      exact .locate _ (.bind (parts _ _ .forkedLeft) fun leftValue middle ranLeft _ met =>
        .bind (parts _ _ (.forkedRight ranLeft)) fun rightValue last _ grows metRight =>
        .bind_ofExcept fun leftType _ => .bind_ofExcept fun rightType _ =>
        lawful.operate fun result complies applied =>
          lawful.diadicFork complies (lawful.mono grows met) metRight applied)
  | assign id target source => exact upholds_assignment lawful parts
  | _ => exact .fail _

/-- A statement upholds the standard if what it runs does. -/
theorem upholds_statement {node : Node}
    (declares : ∀ id, (Piece.statement depth limit node).declaration? annotations = some id →
      declared id)
    (parts : ∀ part start, Runs annotations (.statement depth limit node) machine part start →
      part.Upholds annotations standard start) :
    (Piece.statement depth limit node).Upholds annotations standard machine := by
  cases node with
  | block id body => exact lawful.inBlock (parts _ _ .block)
  | «variable» id name initial =>
      exact .bind (parts _ _ .initial) fun _ _ _ _ met => .bind_ofExcept fun type _ =>
        .bind (lawful.keep (lawful.meets_widen type met)) fun _ _ _ _ kept =>
        .bind (lawful.declare name kept) fun _ _ _ _ _ => lawful.normal
  | expression id inner => exact .bind (parts _ _ .effect) fun _ _ _ _ _ => lawful.normal
  | branch id test accepted rejected =>
      unfold Piece.Upholds computation execute
      refine .bind (.condition (parts _ _ .test)) fun holds middle tested _ _ => ?_
      cases holds with
      | true => exact parts _ _ (.accepted tested)
      | false =>
          cases rejected with
          | some rejected => exact parts _ _ (.rejected tested)
          | none => exact lawful.normal
  | loop id test body => exact parts (.rounds depth limit test body limit) machine .loop
  | «return» id result =>
      cases result with
      | none => exact .pure (lawful.plain machine trivial)
      | some result => exact .bind (parts _ _ .result) fun _ _ _ _ met => .pure met
  | function id name parameters body =>
      have meets := lawful.declaration machine (.function name id) rfl (declares id rfl)
      exact .bind (lawful.declare name meets) fun _ _ _ _ _ => lawful.normal
  | struct id name fields =>
      have meets := lawful.declaration machine (.type name id) rfl (declares id rfl)
      exact .bind (lawful.declare name meets) fun _ _ _ _ _ => lawful.normal
  | _ => exact .fail _

/-- A piece upholds a lawful standard if the pieces that it runs do. -/
theorem upholds_of_parts (admits : piece.Admits annotations admitted machine)
    (declares : ∀ id, piece.declaration? annotations = some id → declared id)
    (parts : ∀ part start, Runs annotations piece machine part start →
      part.Upholds annotations standard start) : piece.Upholds annotations standard machine := by
  cases piece with
  | expression depth node => exact upholds_expression lawful admits declares parts
  | row depth nodes =>
      cases nodes with
      | nil => exact .pure fun _ isIn => absurd isIn List.not_mem_nil
      | cons node nodes =>
          exact .bind (parts _ _ .firstOf) fun value _ ranFirst _ met =>
            .bind (parts _ _ (.othersOf ranFirst)) fun values _ _ grows rest =>
            .pure (List.forall_mem_cons.mpr ⟨lawful.mono grows met, rest⟩)
  | statement depth limit node => exact upholds_statement lawful declares parts
  | sequence depth limit nodes =>
      cases nodes with
      | nil => exact lawful.normal
      | cons node nodes =>
          refine .bind (parts _ _ .firstStatement) fun control _ ranFirst _ met => ?_
          cases control with
          | normal => exact parts _ _ (.otherStatements ranFirst)
          | returned value => exact .pure met
  | rounds depth limit test body left =>
      cases left with
      | zero => exact .unfinished
      -- A round runs its test, its body, and the rounds that are left, each from where the one
      -- before ended.
      | succ left =>
          refine .bind (.condition (parts _ _ .roundTest)) fun holds _ tested _ _ => ?_
          cases holds with
          | false => exact lawful.normal
          | true =>
              refine .bind (parts _ _ (.round tested)) fun control _ ranRound _ met => ?_
              cases control with
              | normal => exact parts _ _ (.otherRounds tested ranRound)
              | returned value => exact .pure met
  | program limit root =>
      change (Execution.program annotations limit root).Upholds standard standard machine
      unfold Execution.program
      split
      · next body isProgram => exact Eval.Upholds.result (parts _ _ (.statements isProgram))
      · exact .fail _

/-! ### Every machine of a run -/

/-- Every piece upholds a lawful standard if the values of its expressions are admitted, and the
declarations declared that it makes values of. -/
theorem upholds (piece : Piece) (machine : Machine)
    (admits : piece.Admits annotations admitted machine)
    (declares : piece.Declares annotations declared machine) :
    piece.Upholds annotations standard machine := by
  induction piece, machine using induct annotations with
  | step piece machine inductionHypothesis =>
      have own (id : NodeId) := declares piece machine id .refl
      exact upholds_of_parts lawful admits own fun part start runs =>
        inductionHypothesis part start runs (admits.of_runs runs) (declares.of_runs runs)

/-- A piece that comes to run starts from a machine that complies with a lawful standard if the piece
around it does, and if what this one runs upholds the standard. -/
theorem Runs.complies_of_parts (runs : Runs annotations piece machine part start)
    (parts : ∀ part start, Runs annotations piece machine part start →
      part.Upholds annotations standard start) (complies : machine.Complies standard) :
    start.Complies standard := by
  -- A piece that has ended has left a machine that complies, as the piece upholds the standard.
  have after {part : Piece} {start middle : Machine} {value : part.Result}
      (runs : Runs annotations piece machine part start) (complies : start.Complies standard)
      (ran : (part.computation annotations).run start = .done value middle) :
      middle.Complies standard ∧ part.Meets standard middle value :=
    (parts part start runs).of_done complies ran
  have counted {value : Value} {length : Nat} {before after : Machine}
      (complies : before.Complies standard)
      (measured : (Evaluation.extent value).run before = .done length after) :
      after.Complies standard :=
    ((Eval.Upholds.extent value).of_done complies measured).1
  have tested {depth : Nat} {test : Node} {middle : Machine} {holds : Bool}
      (runs : Runs annotations piece machine (.expression depth test) machine)
      (ran : (condition annotations (callsTo annotations depth) test).run machine =
        .done holds middle) : middle.Complies standard :=
    ((Eval.Upholds.condition (parts _ machine runs)).of_done complies ran).1
  cases runs with
  | position ranStem measured => exact counted (after .array complies ranStem).1 measured
  | targetPosition typed ranStem measured =>
      exact counted (after (.targetArray typed) complies ranStem).1 measured
  | toElement typed ranStem measured ranPosition _ =>
      have afterCount := counted (after (.targetArray typed) complies ranStem).1 measured
      exact (after (.targetPosition typed ranStem measured) afterCount ranPosition).1
  | arguments ranCallee => exact (after .callee complies ranCallee).1
  | right leftTyped rightTyped ranLeft _ =>
      exact (after (.left leftTyped rightTyped) complies ranLeft).1
  | forkedRight ranLeft => exact (after .forkedLeft complies ranLeft).1
  | toField typed ranStem _ => exact (after (.targetStem typed) complies ranStem).1
  | othersOf ranFirst => exact (after .firstOf complies ranFirst).1
  | @called _ _ _ _ _ _ _ values _ _ _ _ parameters _ _ ranCallee ranArguments _ _ ranParameters _ =>
      obtain ⟨afterArguments, met⟩ :=
        after (.arguments ranCallee) (after .callee complies ranCallee).1 ranArguments
      have entered := lawful.complies_enter afterArguments FrameTree.own_callFrame
      have bound := (lawful.declareAll (parameters.zip values) fun entry isIn =>
        lawful.mono (Machine.grows_moved _ _ _) (met _ (List.of_mem_zip isIn).2)).of_done entered
          ranParameters
      exact lawful.complies_enter bound.1 FrameTree.own_child
  | block => exact lawful.complies_enter complies FrameTree.own_child
  | accepted holds | rejected holds => exact tested .test holds
  | round holds => exact tested .roundTest holds
  | otherStatements ranFirst => exact (after .firstStatement complies ranFirst).1
  | otherRounds holds ranRound =>
      exact (after (.round holds) (tested .roundTest holds) ranRound).1
  -- Every other piece starts where the piece around it starts.
  | _ => exact complies

/-- A piece that comes to run starts from a machine that complies with a lawful standard if the piece
around it does. -/
theorem Runs.complies (runs : Runs annotations piece machine part start)
    (admits : piece.Admits annotations admitted machine)
    (declares : piece.Declares annotations declared machine)
    (complies : machine.Complies standard) : start.Complies standard :=
  runs.complies_of_parts lawful (fun part start runs =>
    upholds lawful part start (admits.of_runs runs) (declares.of_runs runs)) complies

section

variable (reaches : Reaches annotations piece machine part start)
  (admits : piece.Admits annotations admitted machine)
  (declares : piece.Declares annotations declared machine)
  (initially : machine.Complies standard)

include reaches admits declares initially

/-- Every piece of a run starts from a machine that complies with a lawful standard. -/
theorem Reaches.complies : start.Complies standard := by
  have all := reaches.along (fun piece machine =>
    piece.Admits annotations admitted machine ∧ piece.Declares annotations declared machine ∧
      machine.Complies standard) ⟨admits, declares, initially⟩ fun _ _ _ _ runs holds =>
    ⟨holds.1.of_runs runs, holds.2.1.of_runs runs,
      runs.complies lawful holds.1 holds.2.1 holds.2.2⟩
  exact all.2.2

/-- However a piece of a run ends, the machine complies with a lawful standard then. -/
theorem Reaches.complies_final
    (ended : ((part.computation annotations).run start).machine? = some final) :
    final.Complies standard := by
  have upheld := upholds lawful part start (admits.of_reaches reaches) (declares.of_reaches reaches)
  exact upheld.final (reaches.complies lawful admits declares initially) ended

/-- The value that a piece of a run ends with meets a lawful standard. -/
theorem Reaches.meets {value : part.Result}
    (ran : (part.computation annotations).run start = .done value final) :
    part.Meets standard final value := by
  have upheld := upholds lawful part start (admits.of_reaches reaches) (declares.of_reaches reaches)
  exact (upheld.of_done (reaches.complies lawful admits declares initially) ran).2

end

end

end Piece

end ArrayForks
