import ArrayForks.Proofs.Locations

/-! # Assignments

An assignment first finds out what it writes to, as far as this takes evaluation, then evaluates
the value, and then writes. The first half only reads, beside what the expressions in it do, and
refuses what cannot be written. The second half is one elementary write, or a failure that leaves
everything as it was. So an assignment writes one location or none, whatever its parts have written
before, and whatever else refers to the same object.

* **`aim`** and **`store`** are the two halves, and `evaluate_assign` is their sequence.
* **`differs_of_assign`**: an assignment with a value has `Machine.DiffersOnlyAt location`, for
  the location that its target `Names`.
* **`failsAlong_of_assign`**: one that fails `FailsAlong` its parts. -/

namespace ArrayForks

/-! ### Ends of sequences -/

namespace Eval

variable {α β γ : Type}

/-- Sequences may be grouped from either side. -/
theorem bind_assoc (computation : Eval α) (next : α → Eval β) (last : β → Eval γ) :
    (computation >>= next) >>= last = computation >>= fun value => next value >>= last := by
  funext machine
  change ((computation >>= next) >>= last).run machine =
    (computation >>= fun value => next value >>= last).run machine
  rw [run_bind, run_bind, run_bind]
  cases computation.run machine with
  | done value middle => rfl
  | failed failure middle => rfl
  | unfinished => rfl

/-- What follows a choice follows on either side. -/
theorem ite_bind (test : Prop) [Decidable test] (left right : Eval α) (next : α → Eval β) :
    (if test then left else right) >>= next = if test then left >>= next else right >>= next := by
  split <;> rfl

/-- Nothing follows a failure. -/
theorem run_bind_of_failed {computation : Eval α} {machine final : Machine} {failure : Failure}
    (ran : computation.run machine = .failed failure final) (next : α → Eval β) :
    (computation >>= next).run machine = .failed failure final := by
  rw [run_bind, ran]

/-- A sequence that ends with a value has run to its end. -/
theorem done_of_bind {computation : Eval α} {next : α → Eval β} {machine final : Machine}
    {result : β} (ran : (computation >>= next).run machine = .done result final) :
    ∃ value middle, computation.run machine = .done value middle ∧
      (next value).run middle = .done result final := by
  rw [run_bind] at ran
  split at ran
  · next value middle first => exact ⟨value, middle, first, ran⟩
  · cases ran
  · cases ran

/-- A failure gets its place. -/
theorem run_locate_of_failed {computation : Eval α} {machine final : Machine} {failure : Failure}
    (ran : computation.run machine = .failed failure final) (node : Unit → String) :
    (locate node computation).run machine = .failed (failure.locate node) final := by
  simp only [run, locate] at ran ⊢
  rw [ran]

/-- A value was there without a place. -/
theorem done_of_locate {computation : Eval α} {machine final : Machine} {value : α}
    {node : Unit → String} (ran : (locate node computation).run machine = .done value final) :
    computation.run machine = .done value final := by
  simp only [run, locate] at ran ⊢
  split at ran
  · cases ran
  · exact ran

end Eval

variable [NumericLibrary]

namespace Evaluation

variable {annotations : Annotations} {calls : Calls}

/-! ### The two halves -/

/-- What an assignment writes to, as far as it is known before its value is. -/
inductive Destination where
  /-- The nearest variable of a name. -/
  | name (name : String)
  /-- The element at an index that has been checked. -/
  | element (array : Value) (index : Index)
  /-- A field. -/
  | field (object : Value) (name : String)

/-- Evaluate a target up to what is written to, and refuse what cannot be. -/
def aim (annotations : Annotations) (calls : Calls) : (target : Node) → Eval Destination
  | .reference _ name => pure (.name name)
  | .index _ stem position => do
      let array ← evaluate annotations calls stem
      let length ← extent array.value
      let index ← evaluate annotations calls position
      let place ← Eval.ofExcept (Index.check index.value length)
      pure (.element array.value place)
  | .field _ stem name => do
      let object ← evaluate annotations calls stem
      if object.value = .null then Eval.raise (.nullDereference .field)
      else pure (.field object.value name)
  | target => Eval.fail (.violation (.notAssignable target.contents))

/-- Write a value. -/
def store : Destination → Copy → Eval Unit
  | .name name, value => Eval.writeName name value
  | .element array index, value => writeElement array index value
  | .field object name, value => writeField object name value

/-- Aim at a target, evaluate the value, and store it under a type. -/
def aimAndStore (annotations : Annotations) (calls : Calls) (type : StaticType)
    (target source : Node) : Eval Copy := do
  let destination ← aim annotations calls target
  let value ← evaluate annotations calls source
  let value ← Eval.keep (widen type value)
  store destination value
  pure value

/-- An assignment aims and stores. -/
theorem evaluate_assign (annotations : Annotations) (calls : Calls) (id : NodeId)
    (target source : Node) :
    evaluate annotations calls (.assign id target source) =
      located (.assign id target source) (do
        let type ← typeOf annotations (.assign id target source)
        aimAndStore annotations calls type target source) := by
  cases target with
  | index targetId stem position =>
      simp only [evaluate, aimAndStore, aim, Eval.bind_assoc]
      rfl
  | field targetId stem name =>
      simp only [evaluate, aimAndStore, aim, Eval.bind_assoc, Eval.ite_bind]
      rfl
  | _ =>
      simp only [evaluate, aimAndStore, aim]
      rfl

/-! ### Failing on the way -/

/-- Expressions are to be evaluated one after the other, and this fails: in one of them, or else in
a step before or after any of them that touches nothing. What such a step may refuse depends on the
values of the expressions before it. -/
inductive FailsAlong (annotations : Annotations) (calls : Calls)
    (refuses : (values : List Copy) → Machine → Failure → Prop) :
    (values : List Copy) → (nodes : List Node) → Machine → Failure → Machine → Prop where
  /-- The next step fails, and the expressions that are left are not evaluated. -/
  | step {values : List Copy} {nodes : List Node} {machine final : Machine} {failure : Failure}
      (refused : refuses values machine failure) (untouched : machine.Untouched final) :
      FailsAlong annotations calls refuses values nodes machine failure final
  /-- The next expression fails, and those after it are not evaluated. -/
  | within {values : List Copy} {node : Node} {nodes : List Node} {machine final : Machine}
      {failure : Failure}
      (failed : (evaluate annotations calls node).run machine = .failed failure final) :
      FailsAlong annotations calls refuses values (node :: nodes) machine failure final
  /-- The next expression has a value, and what follows it fails. -/
  | later {values : List Copy} {node : Node} {nodes : List Node} {machine middle final : Machine}
      {value : Copy} {failure : Failure}
      (ran : (evaluate annotations calls node).run machine = .done value middle)
      (rest : FailsAlong annotations calls refuses (values ++ [value]) nodes middle failure final) :
      FailsAlong annotations calls refuses values (node :: nodes) machine failure final

/-- Expressions are evaluated from left to right. -/
theorem done_of_evaluateAll_cons {node : Node} {nodes : List Node} {machine last : Machine}
    {values : List Copy}
    (ran : (evaluateAll annotations calls (node :: nodes)).run machine = .done values last) :
    ∃ value others middle, values = value :: others ∧
      (evaluate annotations calls node).run machine = .done value middle ∧
      (evaluateAll annotations calls nodes).run middle = .done others last := by
  obtain ⟨value, middle, ranNode, ranRest⟩ := Eval.done_of_bind ran
  obtain ⟨others, afterOthers, ranOthers, ended⟩ := Eval.done_of_bind ranRest
  cases ended
  exact ⟨value, others, middle, rfl, ranNode, ranOthers⟩

/-- Expressions that have values may come before a failure. -/
theorem FailsAlong.append {refuses : List Copy → Machine → Failure → Prop}
    {before values : List Copy} {nodes rest : List Node} {machine middle final : Machine}
    {failure : Failure}
    (ran : (evaluateAll annotations calls nodes).run machine = .done values middle)
    (fails : FailsAlong annotations calls refuses (before ++ values) rest middle failure final) :
    FailsAlong annotations calls refuses before (nodes ++ rest) machine failure final := by
  induction nodes generalizing machine before values with
  | nil =>
      cases ran
      rw [List.append_nil] at fails
      exact fails
  | cons node nodes inductionHypothesis =>
      obtain ⟨value, others, afterNode, rfl, ranNode, ranOthers⟩ := done_of_evaluateAll_cons ran
      rw [List.append_cons] at fails
      exact .later ranNode (inductionHypothesis ranOthers fails)

/-- There is a value for each expression. -/
theorem length_of_evaluateAll {nodes : List Node} {machine middle : Machine} {values : List Copy}
    (ran : (evaluateAll annotations calls nodes).run machine = .done values middle) :
    values.length = nodes.length := by
  induction nodes generalizing machine values with
  | nil =>
      cases ran
      rfl
  | cons node nodes inductionHypothesis =>
      obtain ⟨value, others, afterNode, rfl, ranNode, ranOthers⟩ := done_of_evaluateAll_cons ran
      rw [List.length_cons, List.length_cons, inductionHypothesis ranOthers]

/-- No expressions have no values. -/
theorem run_evaluateAll_nil (annotations : Annotations) (calls : Calls) (machine : Machine) :
    (evaluateAll annotations calls []).run machine = .done [] machine :=
  rfl

/-- One more expression may be evaluated at the end. -/
theorem run_evaluateAll_append {nodes : List Node} {node : Node} {machine middle last : Machine}
    {values : List Copy} {value : Copy}
    (ran : (evaluateAll annotations calls nodes).run machine = .done values middle)
    (ranLast : (evaluate annotations calls node).run middle = .done value last) :
    (evaluateAll annotations calls (nodes ++ [node])).run machine =
      .done (values ++ [value]) last := by
  induction nodes generalizing machine values with
  | nil =>
      cases ran
      rw [List.nil_append, evaluateAll, Eval.run_bind_of_done ranLast]
      rfl
  | cons first nodes inductionHypothesis =>
      obtain ⟨head, others, afterFirst, rfl, ranFirst, ranOthers⟩ := done_of_evaluateAll_cons ran
      rw [List.cons_append, evaluateAll, Eval.run_bind_of_done ranFirst,
        Eval.run_bind_of_done (inductionHypothesis ranOthers)]
      rfl

/-! ### The first half -/

/-- The expressions in a target, in the order in which they are evaluated. -/
def targetParts : (target : Node) → List Node
  | .index _ stem position => [stem, position]
  | .field _ stem _ => [stem]
  | _ => []

/-- What a target needs an object for, with the expression for it. -/
def stem? : (target : Node) → Option (Node × NullUse)
  | .index _ stem _ => some (stem, .index)
  | .field _ stem _ => some (stem, .field)
  | _ => none

/-- What the steps of an assignment itself refuse, given the values of the parts that have been
evaluated. -/
inductive Refuses (annotations : Annotations) (id : NodeId) (target source : Node) :
    (values : List Copy) → Machine → Failure → Prop where
  /-- The assignment has no type. -/
  | untyped {machine : Machine} {failure : Failure}
      (untyped : annotations.typeOf (.assign id target source) = .error failure) :
      Refuses annotations id target source [] machine failure
  /-- Nothing is ever written to such a node. -/
  | noTarget {machine : Machine} (noStem : stem? target = none)
      (noName : ∀ targetId name, target ≠ .reference targetId name) :
      Refuses annotations id target source [] machine
        (.violation (.notAssignable target.contents))
  /-- The stem is `null`. -/
  | null {stem : Node} {use : NullUse} {object : Copy} {machine : Machine}
      (isStem : stem? target = some (stem, use)) (isNull : object.value = .null) :
      Refuses annotations id target source [object] machine (.runtime (.nullDereference use) none)
  /-- The stem has no elements. -/
  | noElements {targetId : NodeId} {stem position : Node} {array : Copy} {machine : Machine}
      (isIndex : target = .index targetId stem position)
      (noItems : machine.heap.items? array.value = none) :
      Refuses annotations id target source [array] machine .wrongKind
  /-- The index does not pass the check. -/
  | unchecked {targetId : NodeId} {stem position : Node} {array index : Copy} {length : Nat}
      {machine : Machine} {failure : Failure} (isIndex : target = .index targetId stem position)
      (unchecked : Index.check index.value length = .error failure) :
      Refuses annotations id target source [array, index] machine failure
  /-- The value has been evaluated, and cannot be written. -/
  | unwritten {values : List Copy} {machine : Machine} {failure : Failure}
      (complete : values.length = (targetParts target).length + 1) :
      Refuses annotations id target source values machine failure

omit [NumericLibrary] in
/-- Counting elements fails for `null` and for what has none, and touches nothing. -/
theorem extent_failed {value : Value} {machine final : Machine} {failure : Failure}
    (failed : (extent value).run machine = .failed failure final) :
    final = machine ∧ (value = .null ∧ failure = .runtime (.nullDereference .index) none ∨
      machine.heap.items? value = none ∧ failure = .wrongKind) := by
  unfold extent at failed
  split at failed
  · next isNull =>
      cases failed
      exact ⟨rfl, .inl ⟨isNull, rfl⟩⟩
  · rw [Eval.run_bind, Eval.run_look] at failed
    simp only at failed
    split at failed
    · cases failed
    · next noItems =>
        cases failed
        exact ⟨rfl, .inr ⟨noItems, rfl⟩⟩

/-- Aiming fails in a part of the target or refuses it, and what would follow is not evaluated. -/
theorem failsAlong_of_aim {id : NodeId} {target source : Node} {machine final : Machine}
    {failure : Failure}
    (failed : (aim annotations calls target).run machine = .failed failure final)
    (rest : List Node) :
    FailsAlong annotations calls (Refuses annotations id target source) []
      (targetParts target ++ rest) machine failure final := by
  -- Whatever the kind of the target, its parts are evaluated in their order, and each step between
  -- them only reads.
  cases target with
  | reference _ name => cases failed
  | index _ stem position =>
      rcases Eval.failed_of_bind failed with ofStem | ⟨array, afterStem, ranStem, ofArray⟩
      · exact .within ofStem
      refine .later ranStem ?_
      rcases Eval.failed_of_bind ofArray with ofExtent | ⟨length, _, ranExtent, ofLength⟩
      · obtain ⟨rfl, ⟨isNull, rfl⟩ | ⟨noItems, rfl⟩⟩ := extent_failed ofExtent
        · exact .step (.null rfl isNull) (.refl _)
        · exact .step (.noElements rfl noItems) (.refl _)
      obtain ⟨rfl, -⟩ := items?_of_run_extent ranExtent
      rcases Eval.failed_of_bind ofLength with ofPosition | ⟨index, afterIndex, ranIndex, ofIndex⟩
      · exact .within ofPosition
      refine .later ranIndex ?_
      rcases Eval.failed_of_bind ofIndex with ofCheck | ⟨place, _, _, ofPlace⟩
      · obtain ⟨unchecked, rfl⟩ := Eval.run_ofExcept_eq_failed.mp ofCheck
        exact .step (.unchecked rfl unchecked) (.refl _)
      · cases ofPlace
  | field _ stem name =>
      rcases Eval.failed_of_bind failed with ofStem | ⟨object, afterStem, ranStem, ofObject⟩
      · exact .within ofStem
      refine .later ranStem ?_
      split at ofObject
      · next isNull =>
          cases ofObject
          exact .step (.null rfl isNull) (.refl _)
      · cases ofObject
  | _ =>
      cases failed
      exact .step (.noTarget rfl fun _ _ => Node.noConfusion) (.refl _)

/-- What is found out about a target: the values of its parts, and where the value is to be
written. -/
inductive Aimed (annotations : Annotations) (calls : Calls) (machine : Machine) :
    (target : Node) → (operands : List Copy) → Destination → Machine → Prop where
  /-- A variable is looked for only when it is written. -/
  | name {id : NodeId} {name : String} {last : Machine} :
      Aimed annotations calls machine (.reference id name) [] (.name name) last
  /-- The index has been checked against the elements that there were before it was evaluated. -/
  | element {id : NodeId} {stem position : Node} {array index : Copy} {items : List Copy}
      {place : Index} {middle last : Machine}
      (ranStem : (evaluate annotations calls stem).run machine = .done array middle)
      (counted : middle.heap.items? array.value = some items)
      (checked : Index.check index.value items.length = .ok place) (stay : middle.ShapesStay last) :
      Aimed annotations calls machine (.index id stem position) [array, index]
        (.element array.value place) last
  /-- A field is written to whatever is there. -/
  | field {id : NodeId} {stem : Node} {name : String} {object : Copy} {last : Machine} :
      Aimed annotations calls machine (.field id stem name) [object] (.field object.value name) last

/-- Aiming evaluates the parts of the target. -/
theorem aimed_of_aim (called : calls.Have (Eval.Keeps Machine.ShapesStay)) {target : Node}
    {machine last : Machine} {destination : Destination}
    (ran : (aim annotations calls target).run machine = .done destination last) :
    ∃ operands, (evaluateAll annotations calls (targetParts target)).run machine =
        .done operands last ∧
      Aimed annotations calls machine target operands destination last := by
  cases target with
  | reference _ name =>
      cases ran
      exact ⟨[], rfl, .name⟩
  | index _ stem position =>
      obtain ⟨array, afterStem, ranStem, ofArray⟩ := Eval.done_of_bind ran
      obtain ⟨length, _, ranExtent, ofLength⟩ := Eval.done_of_bind ofArray
      obtain ⟨rfl, items, counted, rfl⟩ := items?_of_run_extent ranExtent
      obtain ⟨index, afterIndex, ranIndex, ofIndex⟩ := Eval.done_of_bind ofLength
      obtain ⟨place, _, ranCheck, ofPlace⟩ := Eval.done_of_bind ofIndex
      obtain ⟨checked, rfl⟩ := Eval.run_ofExcept_eq_done.mp ranCheck
      cases ofPlace
      -- The index is evaluated after the array was counted, so the array may have been written
      -- meanwhile, but not made shorter.
      have stay := Machine.steps_shapes.evaluation.evaluate annotations called position _ last
        (by rw [ranIndex]; rfl)
      refine ⟨[array, index], ?_, .element ranStem counted checked stay⟩
      have ranFirst := run_evaluateAll_append (run_evaluateAll_nil _ _ _) ranStem
      have ranBoth := run_evaluateAll_append ranFirst ranIndex
      exact ranBoth
  | field _ stem name =>
      obtain ⟨object, afterStem, ranStem, ofObject⟩ := Eval.done_of_bind ran
      split at ofObject
      · cases ofObject
      · cases ofObject
        have ranOnly := run_evaluateAll_append (run_evaluateAll_nil _ _ _) ranStem
        exact ⟨[object], ranOnly, .field⟩
  | _ => cases ran

/-! ### The second half -/

/-- The location that a value is written to. -/
inductive Destination.At (machine : Machine) : Destination → Location → Prop where
  /-- The nearest variable of the name. -/
  | name {name : String} {frame : FrameId}
      (nearest : machine.frames.owner? machine.here name = some frame) :
      Destination.At machine (.name name) (.binding frame name)
  /-- An element of an array. -/
  | element {ref : Ref} {items : List Copy} {place : Nat}
      (found : machine.heap.get? ref = some (.array items)) (within : place < items.length) :
      Destination.At machine (.element (.object ref) (.word place)) (.element ref place)
  /-- An entry of a structure that is indexed. -/
  | entry {ref : Ref} {entries : Bindings Key Copy} {index : Index}
      (found : machine.heap.get? ref = some (.record entries)) :
      Destination.At machine (.element (.object ref) index)
        (.entry ref (.among entries.names index))
  /-- A field of a structure. -/
  | field {ref : Ref} {entries : Bindings Key Copy} {name : String}
      (found : machine.heap.get? ref = some (.record entries)) :
      Destination.At machine (.field (.object ref) name) (.entry ref (.name name))

omit [NumericLibrary] in
/-- A location does not depend on how many copies have been kept. -/
theorem Destination.At.of_untouched {before after : Machine} {destination : Destination}
    {location : Location} (untouched : before.Untouched after)
    (written : destination.At after location) : destination.At before location := by
  rw [untouched] at written
  cases written with
  | name nearest => exact .name nearest
  | element found within => exact .element found within
  | entry found => exact .entry found
  | field found => exact .field found

omit [NumericLibrary] in
/-- Storing fails without touching anything. -/
theorem store_failed {destination : Destination} {value : Copy} {machine final : Machine}
    {failure : Failure} (failed : (store destination value).run machine = .failed failure final) :
    final = machine := by
  cases destination with
  | name name =>
      simp only [store, Eval.run, Eval.writeName] at failed
      split at failed
      · cases failed
      · cases failed
        rfl
  | element array index =>
      simp only [store, writeElement, Eval.run_bind, Eval.run_look] at failed
      split at failed
      · split at failed
        · cases failed
        · cases failed
          rfl
      · cases failed
      · cases failed
        rfl
  | field object name =>
      simp only [store, writeField, Eval.run_bind, Eval.run_look] at failed
      split at failed
      · cases failed
      · cases failed
        rfl

omit [NumericLibrary] in
/-- Storing writes the value to one location. -/
theorem store_done {destination : Destination} {value : Copy} {machine final : Machine}
    (ran : (store destination value).run machine = .done () final) :
    ∃ location, destination.At machine location ∧ Machine.DiffersOnlyAt location machine final ∧
      final.content? location = some value := by
  cases destination with
  | name name =>
      simp only [store, Eval.run, Eval.writeName] at ran
      split at ran
      · next frame nearest =>
          cases ran
          exact ⟨_, .name nearest, Machine.writeName_differs nearest value⟩
      · cases ran
  | element array index =>
      simp only [store, writeElement, Eval.run_bind, Eval.run_look] at ran
      split at ran
      · next found =>
          split at ran
          · next within =>
              cases ran
              exact ⟨_, .element found within, Machine.writeItem_differs found within value⟩
          · cases ran
      · next found =>
          cases ran
          exact ⟨_, .entry found, Machine.writeEntry_differs found _ value⟩
      · cases ran
  | field object name =>
      simp only [store, writeField, Eval.run_bind, Eval.run_look] at ran
      split at ran
      · next found =>
          cases ran
          exact ⟨_, .field found, Machine.writeEntry_differs found _ value⟩
      · cases ran

/-! ### Both halves -/

/-- The stem of an indexed target evaluates to an array or to `null`, if it has a value. -/
def IndexesArray (annotations : Annotations) (calls : Calls) (machine : Machine) :
    (target : Node) → Prop
  | .index _ stem _ => ∀ value middle,
      (evaluate annotations calls stem).run machine = .done value middle →
        value.value = .null ∨
          ∃ ref items, value.value = .object ref ∧ middle.heap.get? ref = some (.array items)
  | _ => True

/-- The location that a target names once its parts have values: the variable in the nearest frame
that binds the name, the element of the array at the index, or the field of the structure. -/
inductive Names (machine : Machine) :
    (target : Node) → (operands : List Copy) → Location → Prop where
  | binding {id : NodeId} {name : String} {frame : FrameId}
      (nearest : machine.frames.owner? machine.here name = some frame) :
      Names machine (.reference id name) [] (.binding frame name)
  | element {id : NodeId} {stem position : Node} {array index : Copy} {ref : Ref}
      {items : List Copy} {place : Nat} (isArray : array.value = .object ref)
      (found : machine.heap.get? ref = some (.array items)) (isIndex : index.value = .int place)
      (within : place < items.length) :
      Names machine (.index id stem position) [array, index] (.element ref place)
  | field {id : NodeId} {stem : Node} {name : String} {object : Copy} {ref : Ref}
      {entries : Bindings Key Copy} (isObject : object.value = .object ref)
      (found : machine.heap.get? ref = some (.record entries)) :
      Names machine (.field id stem name) [object] (.entry ref (.name name))

omit [NumericLibrary] in
/-- An index that passes the check as a place is this word. -/
theorem eq_int_of_check {index : Value} {length place : Nat}
    (checked : Index.check index length = .ok (.word place)) : index = .int place := by
  unfold Index.check at checked
  split at checked
  · split at checked
    · cases checked
    · split at checked
      · cases checked
      · cases checked
        congr
        omega
  · split at checked
    · cases checked
    · split at checked
      · cases checked
      · cases checked
  · cases checked

/-- What was aimed at is where the value is written. -/
theorem Aimed.names {machine last after : Machine} {target : Node} {operands : List Copy}
    {destination : Destination} {location : Location}
    (aimed : Aimed annotations calls machine target operands destination last)
    (arrays : IndexesArray annotations calls machine target) (stay : last.ShapesStay after)
    (written : destination.At after location) : Names after target operands location := by
  cases aimed with
  | name =>
      cases written with
      | name nearest => exact .binding nearest
  | @element _ stem position array index items place middle _ ranStem counted checked stayed =>
      rcases arrays array middle ranStem with isNull | ⟨ref, elements, isArray, found⟩
      · rw [isNull] at counted
        cases counted
      · -- The array is still one of the same length, so it is no structure that is written to.
        obtain ⟨later, foundLater, same⟩ := stayed.trans stay ref _ found
        obtain ⟨current, rfl, -⟩ := same.of_array
        rw [isArray] at written
        cases written with
        | element foundNow within =>
            exact .element isArray foundNow (eq_int_of_check checked) within
        | entry foundNow =>
            rw [foundLater] at foundNow
            cases foundNow
  | @field _ _ _ object =>
      cases isObject : object.value with
      | object ref =>
          rw [isObject] at written
          cases written with
          | field found => exact .field isObject found
      | _ =>
          rw [isObject] at written
          cases written

section

variable {id : NodeId} {target source : Node} {machine final : Machine}

/-- An assignment that has a value has evaluated its parts, and then it has changed the location
that its target names, which now holds this value. -/
theorem differs_of_assign (called : calls.Have (Eval.Keeps Machine.ShapesStay))
    (arrays : IndexesArray annotations calls machine target) {yielded : Copy}
    (ran : (evaluate annotations calls (.assign id target source)).run machine =
      .done yielded final) :
    ∃ type operands value middle location,
      annotations.typeOf (.assign id target source) = .ok type ∧
      (evaluateAll annotations calls (targetParts target ++ [source])).run machine =
        .done (operands ++ [value]) middle ∧
      Names middle target operands location ∧
      yielded = (widen type value).keep middle.made ∧
      Machine.DiffersOnlyAt location middle final ∧ final.content? location = some yielded := by
  rw [evaluate_assign] at ran
  obtain ⟨type, _, ranType, ofType⟩ := Eval.done_of_bind (Eval.done_of_locate ran)
  obtain ⟨typed, rfl⟩ := Eval.run_ofExcept_eq_done.mp ranType
  obtain ⟨destination, afterTarget, ranTarget, ofTarget⟩ := Eval.done_of_bind ofType
  obtain ⟨value, middle, ranSource, ofSource⟩ := Eval.done_of_bind ofTarget
  obtain ⟨kept, _, ranKeep, ofKept⟩ := Eval.done_of_bind ofSource
  cases ranKeep
  obtain ⟨_, last, ranStore, ended⟩ := Eval.done_of_bind ofKept
  cases ended
  obtain ⟨operands, ranParts, aimed⟩ := aimed_of_aim called ranTarget
  obtain ⟨location, written, differs, held⟩ := store_done ranStore
  -- The value may have written to the array that was aimed at, but has not changed its length.
  have stay := Machine.steps_shapes.evaluation.evaluate annotations called source _ middle
    (by rw [ranSource]; rfl)
  have untouched := Machine.untouched_count middle (middle.made + 1)
  exact ⟨type, operands, value, middle, location, typed, run_evaluateAll_append ranParts ranSource,
    aimed.names arrays stay (written.of_untouched untouched), rfl, differs.of_untouched untouched,
    held⟩

/-- An assignment that fails does so in one of its parts or in a step that touches nothing. -/
theorem failsAlong_of_assign (called : calls.Have (Eval.Keeps Machine.ShapesStay))
    {failure : Failure}
    (failed : (evaluate annotations calls (.assign id target source)).run machine =
      .failed failure final) :
    ∃ inner, failure = inner.locate (fun _ => (Node.assign id target source).contents) ∧
      FailsAlong annotations calls (Refuses annotations id target source) []
        (targetParts target ++ [source]) machine inner final := by
  rw [evaluate_assign] at failed
  obtain ⟨inner, located, failedInner⟩ := Eval.failed_of_locate failed
  refine ⟨inner, located, ?_⟩
  rcases Eval.failed_of_bind failedInner with noType | ⟨type, _, ranType, ofType⟩
  · obtain ⟨untyped, rfl⟩ := Eval.run_ofExcept_eq_failed.mp noType
    exact .step (.untyped untyped) (.refl _)
  obtain ⟨-, rfl⟩ := Eval.run_ofExcept_eq_done.mp ranType
  rcases Eval.failed_of_bind ofType with unaimed | ⟨destination, middle, ranTarget, ofTarget⟩
  · exact failsAlong_of_aim unaimed [source]
  -- From here on nothing is refused before the value has been evaluated.
  obtain ⟨operands, ranParts, -⟩ := aimed_of_aim called ranTarget
  have complete := length_of_evaluateAll ranParts
  refine .append ranParts ?_
  rcases Eval.failed_of_bind ofTarget with ofSource | ⟨value, last, ranSource, ofValue⟩
  · exact .within ofSource
  refine .later ranSource ?_
  rcases Eval.failed_of_bind ofValue with unkept | ⟨kept, _, ranKeep, ofKept⟩
  · cases unkept
  cases ranKeep
  rcases Eval.failed_of_bind ofKept with unstored | ⟨_, _, _, ended⟩
  · rw [store_failed unstored]
    exact .step (.unwritten (by simp [complete])) (Machine.untouched_count last _)
  · cases ended

/-- An assignment fails in what it does under its type, and tells its place. -/
theorem run_assign_of_failed {type : StaticType} {failure : Failure}
    (typed : annotations.typeOf (.assign id target source) = .ok type)
    (failed : (aimAndStore annotations calls type target source).run machine =
      .failed failure final) :
    (evaluate annotations calls (.assign id target source)).run machine =
      .failed (failure.locate fun _ => (Node.assign id target source).contents) final := by
  rw [evaluate_assign]
  refine Eval.run_locate_of_failed ?_ _
  rw [Eval.run_bind_of_done (run_typeOf typed machine), failed]

/-- An assignment fails as soon as it cannot be aimed. -/
theorem run_assign_of_unaimed {type : StaticType} {failure : Failure}
    (typed : annotations.typeOf (.assign id target source) = .ok type)
    (unaimed : (aim annotations calls target).run machine = .failed failure final) :
    (evaluate annotations calls (.assign id target source)).run machine =
      .failed (failure.locate fun _ => (Node.assign id target source).contents) final :=
  run_assign_of_failed typed (Eval.run_bind_of_failed unaimed _)

end

/-! ### What is refused beforehand -/

/-- An index that no array of a length has an element at. -/
def IsOutside (length : Nat) : (index : Value) → Prop
  | .int n => n < 0 ∨ length ≤ n
  | .float x => x < 0.0 ∨ Float.ofNat length ≤ x
  | _ => False

omit [NumericLibrary] in
/-- An index that is negative or too large does not pass the check. -/
theorem check_of_isOutside {length : Nat} {index : Value} (outside : IsOutside length index) :
    ∃ error : RuntimeError, (error = .negativeIndex index ∨ error = .indexBeyond index length) ∧
      Index.check index length = error.raise := by
  cases index with
  | int n =>
      by_cases negative : n < 0
      · exact ⟨_, .inl rfl, if_pos negative⟩
      · have beyond : length ≤ n := outside.resolve_left negative
        exact ⟨_, .inr rfl, (if_neg negative).trans (if_pos beyond)⟩
  | float x =>
      by_cases negative : x < 0.0
      · exact ⟨_, .inl rfl, if_pos negative⟩
      · have beyond : Float.ofNat length ≤ x := outside.resolve_left negative
        exact ⟨_, .inr rfl, (if_neg negative).trans (if_pos beyond)⟩
  | _ => cases outside

section

variable {machine : Machine}

/-- Aiming fails after a stem that is `null`. -/
theorem aim_of_null {target stem : Node} {use : NullUse} {object : Copy} {middle : Machine}
    (isStem : stem? target = some (stem, use))
    (ran : (evaluate annotations calls stem).run machine = .done object middle)
    (isNull : object.value = .null) :
    (aim annotations calls target).run machine =
      .failed (.runtime (.nullDereference use) none) middle := by
  cases target with
  | index _ stem position =>
      cases isStem
      rw [aim, Eval.run_bind_of_done ran, isNull]
      rfl
  | field _ stem name =>
      cases isStem
      rw [aim, Eval.run_bind_of_done ran, if_pos isNull]
      rfl
  | _ => cases isStem

/-- Aiming fails after an index that does not pass the check. -/
theorem aim_of_unchecked {id : NodeId} {stem position : Node} {array index : Copy} {ref : Ref}
    {items : List Copy} {afterStem afterIndex : Machine} {failure : Failure}
    (ranStem : (evaluate annotations calls stem).run machine = .done array afterStem)
    (isArray : array.value = .object ref)
    (found : afterStem.heap.get? ref = some (.array items))
    (ranIndex : (evaluate annotations calls position).run afterStem = .done index afterIndex)
    (unchecked : Index.check index.value items.length = .error failure) :
    (aim annotations calls (.index id stem position)).run machine = .failed failure afterIndex := by
  rw [aim, Eval.run_bind_of_done ranStem, isArray, Eval.run_bind_of_done (run_extent found),
    Eval.run_bind_of_done ranIndex, unchecked]
  rfl

/-- An assignment to a name that is not bound fails after its value has been evaluated, and touches
nothing then. -/
theorem run_assign_undefined {id reference : NodeId} {name : String} {source : Node}
    {type : StaticType} {value : Copy} {middle : Machine}
    (typed : annotations.typeOf (.assign id (.reference reference name) source) = .ok type)
    (ran : (evaluate annotations calls source).run machine = .done value middle)
    (unbound : middle.frames.owner? middle.here name = none) :
    (evaluate annotations calls (.assign id (.reference reference name) source)).run machine =
      .failed (.undefinedTarget name) { middle with made := middle.made + 1 } := by
  have unwritten : (Eval.writeName name ((widen type value).keep middle.made)).run
      { middle with made := middle.made + 1 } =
      .failed (.undefinedTarget name) { middle with made := middle.made + 1 } := by
    simp only [Eval.run, Eval.writeName, unbound]
  have failed :
      (aimAndStore annotations calls type (.reference reference name) source).run machine =
        .failed (.undefinedTarget name) { middle with made := middle.made + 1 } := by
    rw [aimAndStore, aim, Eval.run_bind_of_done (Eval.run_pure _ _), Eval.run_bind_of_done ran,
      Eval.run_bind_of_done (Eval.run_keep _ _)]
    exact Eval.run_bind_of_failed unwritten _
  exact run_assign_of_failed typed failed

/-- An assignment to a name fails with its value, whether the name is bound or not. -/
theorem run_assign_of_source {id reference : NodeId} {name : String} {source : Node}
    {type : StaticType} {final : Machine} {failure : Failure}
    (typed : annotations.typeOf (.assign id (.reference reference name) source) = .ok type)
    (failed : (evaluate annotations calls source).run machine = .failed failure final) :
    (evaluate annotations calls (.assign id (.reference reference name) source)).run machine =
      .failed (failure.locate fun _ =>
        (Node.assign id (.reference reference name) source).contents) final := by
  refine run_assign_of_failed typed ?_
  rw [aimAndStore, aim, Eval.run_bind_of_done (Eval.run_pure _ _)]
  exact Eval.run_bind_of_failed failed _

end

end Evaluation

open Evaluation (evaluate evaluateAll widen aim aimAndStore targetParts stem? IndexesArray IsOutside
  FailsAlong Refuses Names)

/-- **An assignment writes one location or none.** Let `assign` be the run of `target = source`.

* If it is `.done yielded final` (and an indexed target is that of an array), then the parts have
  been evaluated up to a machine `middle`, the target `Names` a location there,
  `Machine.DiffersOnlyAt location middle final`, and `final.content? location = some yielded`.
* If it is `.failed`, then it `FailsAlong` its parts: in one of them, or in a step of its own that
  touches nothing.
* A stem that is `.null`, and an index that `IsOutside` the array, are refused before the value is
  evaluated. A name that is not bound is refused after that, `.undefinedTarget name`, with
  `machine.NamesStay final`. -/
theorem assignment_writes_one_location (annotations : Annotations) (callLimit : Nat) (id : NodeId)
    (target source : Node) (machine : Machine) :
    let calls := Execution.callsTo annotations callLimit
    let node := Node.assign id target source
    let assign := (evaluate annotations calls node).run machine
    (∀ yielded final, IndexesArray annotations calls machine target →
      assign = .done yielded final →
      ∃ type operands value middle location,
        annotations.typeOf node = .ok type ∧
        (evaluateAll annotations calls (targetParts target ++ [source])).run machine =
          .done (operands ++ [value]) middle ∧
        middle.here = machine.here ∧ Names middle target operands location ∧
        yielded = (widen type value).keep middle.made ∧
        Machine.DiffersOnlyAt location middle final ∧ final.content? location = some yielded) ∧
    (∀ failure final, assign = .failed failure final →
      ∃ inner, failure = inner.locate (fun _ => node.contents) ∧
        FailsAlong annotations calls (Refuses annotations id target source) []
          (targetParts target ++ [source]) machine inner final) ∧
    ∀ type, annotations.typeOf node = .ok type →
      (∀ stem use object middle, stem? target = some (stem, use) →
        (evaluate annotations calls stem).run machine = .done object middle →
        object.value = .null →
        assign = .failed (.runtime (.nullDereference use) (some node.contents)) middle) ∧
      (∀ targetId stem position array afterStem ref items index afterIndex,
        target = .index targetId stem position →
        (evaluate annotations calls stem).run machine = .done array afterStem →
        array.value = .object ref → afterStem.heap.get? ref = some (.array items) →
        (evaluate annotations calls position).run afterStem = .done index afterIndex →
        IsOutside items.length index.value →
        ∃ error, (error = .negativeIndex index.value ∨
            error = .indexBeyond index.value items.length) ∧
          assign = .failed (.runtime error (some node.contents)) afterIndex) ∧
      ∀ targetId name, target = .reference targetId name →
        (∀ failure final, (evaluate annotations calls source).run machine = .failed failure final →
          assign = .failed (failure.locate fun _ => node.contents) final) ∧
        ∀ value middle, (evaluate annotations calls source).run machine = .done value middle →
          middle.frames.owner? middle.here name = none →
          ∃ final, assign = .failed (.undefinedTarget name) final ∧ middle.Untouched final ∧
            machine.NamesStay final := by
  intro calls node assign
  have shapes := Machine.steps_shapes.callsTo annotations callLimit
  have names := Machine.steps_names.callsTo annotations callLimit
  refine ⟨?_, fun failure final failed => Evaluation.failsAlong_of_assign shapes failed, ?_⟩
  · intro yielded final arrays ran
    obtain ⟨type, operands, value, middle, location, typed, ranParts, named, isYielded, differs,
      held⟩ := Evaluation.differs_of_assign shapes arrays ran
    -- The parts are evaluated in the frame of the assignment.
    have stay := Machine.steps_names.evaluation.toQuietSteps.evaluateAll annotations
      (targetParts target ++ [source]) (.inr ⟨Machine.steps_names.evaluation, names⟩) machine middle
      (by rw [ranParts]; rfl)
    exact ⟨type, operands, value, middle, location, typed, ranParts, stay.here_eq, named, isYielded,
      differs, held⟩
  · intro type typed
    refine ⟨?_, ?_, ?_⟩
    · intro stem use object middle isStem ran isNull
      exact Evaluation.run_assign_of_unaimed typed (Evaluation.aim_of_null isStem ran isNull)
    · rintro targetId stem position array afterStem ref items index afterIndex rfl ranStem isArray
        found ranIndex outside
      obtain ⟨error, isError, unchecked⟩ := Evaluation.check_of_isOutside outside
      exact ⟨error, isError, Evaluation.run_assign_of_unaimed typed
        (Evaluation.aim_of_unchecked ranStem isArray found ranIndex unchecked)⟩
    · rintro targetId name rfl
      refine ⟨fun failure final failed => Evaluation.run_assign_of_source typed failed, ?_⟩
      intro value middle ran unbound
      have failed := Evaluation.run_assign_undefined typed ran unbound
      have stay := Machine.steps_names.evaluation.evaluate annotations names node machine _
        (by rw [failed]; rfl)
      exact ⟨_, failed, Machine.untouched_count middle _, stay⟩

omit [NumericLibrary] in
/-- Zero is assigned to a variable, as a double; to no other name, to no element of `null`, and to
no element behind the last one of an empty array. -/
theorem assignment_writes_one_location_zero :
    letI : NumericLibrary := .standard
    let machine : Machine := { Machine.initial with
      frames := Machine.initial.frames.insert 0 "x" (.new (.int 3)) }
    let annotations := Annotations.empty |>.annotate 1 .float |>.annotate 2 (.array .float)
    let calls := Execution.callsTo annotations 1
    let assign (target : Node) :=
      (evaluate annotations calls (.assign 1 target (.int 3 0))).run machine
    (∃ yielded middle final, assign (.reference 4 "x") = .done yielded final ∧
      yielded.value = .float (Float.ofInt 0) ∧
      Machine.DiffersOnlyAt (.binding 0 "x") middle final ∧
      final.content? (.binding 0 "x") = some yielded) ∧
    (∃ final, assign (.reference 4 "y") = .failed (.undefinedTarget "y") final ∧
      machine.NamesStay final) ∧
    (∃ node, assign (.index 4 (.null 5) (.int 6 0)) =
      .failed (.runtime (.nullDereference .index) node) machine) ∧
    ∃ error node final, assign (.index 4 (.array 2 []) (.int 6 0)) =
      .failed (.runtime error node) final := by
  let : NumericLibrary := .standard
  intro machine annotations calls assign
  have typed (target : Node) : annotations.typeOf (.assign 1 target (.int 3 0)) = .ok .float := by
    simp [annotations, Annotations.typeOf, Annotations.types_annotate, Node.id]
  have assigned (target : Node) := assignment_writes_one_location annotations 1 1 target (.int 3 0)
    machine
  have ranZero : (evaluate annotations calls (.int 3 0)).run machine =
      .done (.new (.int 0)) { machine with made := 1 } := rfl
  let zero : Copy := (Copy.new (.float (Float.ofInt 0))).keep 1
  have chain : machine.frames.chain machine.here = [0] := by
    rw [FrameTree.chain_eq_cons (by decide)]
    rfl
  have nearest : machine.frames.owner? machine.here "x" = some 0 := by
    rw [FrameTree.owner?, chain]
    rfl
  have unbound : machine.frames.owner? machine.here "y" = none := by
    rw [FrameTree.owner?, chain]
    rfl
  have ranStore : (aimAndStore annotations calls .float (.reference 4 "x") (.int 3 0)).run machine =
      .done zero { machine with made := 2, frames := machine.frames.insert 0 "x" zero } := by
    have stored : (Evaluation.store (.name "x") zero).run { machine with made := 2 } =
        .done () { machine with made := 2, frames := machine.frames.insert 0 "x" zero } := by
      simp only [Evaluation.store, Eval.run, Eval.writeName, nearest]
    rw [aimAndStore, aim, Eval.run_bind_of_done (Eval.run_pure _ _), Eval.run_bind_of_done ranZero,
      Eval.run_bind_of_done (Eval.run_keep _ _)]
    exact Eval.run_bind_of_done stored _
  refine ⟨?_, ?_, ?_, ?_⟩
  · have ran : assign (.reference 4 "x") =
        .done zero { machine with made := 2, frames := machine.frames.insert 0 "x" zero } := by
      change (evaluate annotations calls _).run machine = _
      rw [Evaluation.evaluate_assign]
      refine Eval.run_locate_of_done ?_ _
      rw [Eval.run_bind_of_done (Evaluation.run_typeOf (typed _) machine), ranStore]
    obtain ⟨_, operands, value, middle, location, -, ranParts, -, named, -, differs, held⟩ :=
      (assigned (.reference 4 "x")).1 zero _ trivial ran
    have ranSource := Evaluation.run_evaluateAll_append
      (Evaluation.run_evaluateAll_nil annotations calls machine) ranZero
    obtain ⟨-, rfl⟩ := Outcome.done.inj (ranSource.symm.trans ranParts)
    cases named with
    | @binding _ _ frame found =>
        obtain rfl : 0 = frame := Option.some.inj (nearest.symm.trans found)
        exact ⟨zero, _, _, ran, rfl, differs, held⟩
  · have toName := ((assigned (.reference 4 "y")).2.2 .float (typed _)).2.2 4 "y" rfl
    obtain ⟨final, failed, -, stay⟩ := toName.2 _ _ ranZero unbound
    exact ⟨final, failed, stay⟩
  · exact ⟨_, ((assigned (.index 4 (.null 5) (.int 6 0))).2.2 .float (typed _)).1 (.null 5) .index
      (.new .null) machine rfl rfl rfl⟩
  · have arrayTyped : annotations.typeOf (.array 2 []) = .ok (.array .float) := by
      simp [annotations, Annotations.typeOf, Annotations.types_annotate, Node.id]
    have ranArray : (evaluate annotations calls (.array 2 [])).run machine =
        .done (.new (.object 0)) { machine with heap := ⟨#[.array []]⟩ } := by
      unfold evaluate
      refine Eval.run_locate_of_done ?_ _
      rw [Eval.run_bind_of_done (Evaluation.run_typeOf arrayTyped machine)]
      rfl
    obtain ⟨error, -, failed⟩ := ((assigned (.index 4 (.array 2 []) (.int 6 0))).2.2 .float
      (typed _)).2.1 4 (.array 2 []) (.int 6 0) _ _ 0 [] (.new (.int 0)) _ rfl ranArray rfl rfl rfl
      (.inr (Int.le_refl 0))
    exact ⟨error, _, _, failed⟩

end ArrayForks
