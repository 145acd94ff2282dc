import ArrayForks.Machine
import ArrayForks.Operation.Condition
import ArrayForks.Operation.Fork
import ArrayForks.Syntax.Annotations
import ArrayForks.Word

/-! # Expressions

How the nodes that are expressions evaluate. Evaluation follows the tree; only the body of a called
function lies outside of it, and how that one is run is a parameter. A runtime error gets the text
of the innermost node in whose evaluation it arises, and no node farther out changes it.

* **`evaluate annotations calls node : Eval Copy`** is the evaluation of a node, where `calls`
  runs the bodies of functions.
* **`decided?`** is what the left operand of a connective decides by itself.
* **`readElement`**, **`writeElement`**, **`readField`**, **`writeField`** are the steps on
  objects. -/

namespace ArrayForks

/-- How the body of a function is run on its arguments. -/
abbrev Calls := (parameters : List String) → (body : List Node) → (arguments : List Copy) →
  Eval Copy

namespace Evaluation

/-! ### Steps on values -/

/-- A value under a static type: a word under `Float` is widened, into a fresh double. -/
def widen : StaticType → Copy → Copy
  | .float, ⟨.int n, _⟩ => .new (.float (Float.ofInt n))
  | _, value => value

/-- The component type of the elements of an array literal. -/
def elementType : StaticType → StaticType
  | .array component => component
  | type => type

/-- The result of a connective that its left operand decides alone: `and` of a zero, `or` of
anything else. Only connectives of two numbers are decided early, and the result lies in the domain
of their types. -/
def decided? (op : DiadicOp) (leftType rightType : StaticType) (left : Value) : Option Value :=
  if leftType.isNumeric && rightType.isNumeric then
    match op with
    | .connective .and =>
        if left.isZero then some (.truth (leftType.floatingWith rightType) false) else none
    | .connective .or =>
        if left.isZero then none else some (.truth (leftType.floatingWith rightType) true)
    | _ => none
  else none

/-- What a connective decides early is a truth value as a number. -/
theorem exists_of_decided? {op : DiadicOp} {leftType rightType : StaticType} {left value : Value}
    (decided : decided? op leftType rightType left = some value) :
    ∃ b, value = .truth (leftType.floatingWith rightType) b := by
  simp only [decided?] at decided
  split at decided
  · split at decided
    · split at decided
      · exact ⟨false, (Option.some.inj decided).symm⟩
      · cases decided
    · split at decided
      · cases decided
      · exact ⟨true, (Option.some.inj decided).symm⟩
    · cases decided
  · cases decided

/-- The number of elements of a value that is indexed. -/
def extent (value : Value) : Eval Nat :=
  if value = .null then Eval.raise (.nullDereference .index)
  else do
    match ← Eval.look fun machine => machine.heap.items? value with
    | some items => pure items.length
    | none => Eval.fail .wrongKind

/-- The number of elements of an array that is there. -/
theorem run_extent {machine : Machine} {ref : Ref} {items : List Copy}
    (found : machine.heap.get? ref = some (.array items)) :
    (extent (.object ref)).run machine = .done items.length machine := by
  have object : machine.heap.items? (.object ref) = some items := by
    simp only [Heap.items?, Heap.object?, found]
  simp only [extent, reduceCtorEq, if_false, Eval.run_bind, Eval.run_look, object, Eval.run_pure]

/-- Read the element at an index that has been checked. -/
def readElement (value : Value) (index : Index) : Eval Copy := do
  let heap ← Eval.look Machine.heap
  let element ← Eval.ofExcept (heap.element value index)
  Eval.keep element

/-- Write the element at an index that has been checked. An array has to reach that far when it is
written, and a structure gets an entry with the index for a key if the index finds none. -/
def writeElement (target : Value) (index : Index) (value : Copy) : Eval Unit := do
  match target, index, ← Eval.look fun machine => machine.heap.object? target with
  | .object ref, .word place, some (.array items) =>
      if place < items.length then Eval.replace ref (.array (items.set place value))
      else Eval.fail .missingElement
  | .object ref, index, some (.record entries) =>
      Eval.replace ref (.record (entries.insert (.among entries.names index) value))
  | _, _, _ => Eval.fail .wrongKind

/-- Read a field of a structure; any other field of a value with elements is their number. -/
def readField (stem : Value) (name : String) : Eval Copy :=
  if stem = .null then Eval.raise (.nullDereference .field)
  else do
    let heap ← Eval.look Machine.heap
    match heap.object? stem with
    | some (.record entries) =>
        match entries.find? (.name name) with
        | some value => pure value
        | none => Eval.fail (.missingField name)
    | _ =>
        match heap.items? stem with
        | some items => Eval.keep (.new (.int items.length))
        | none => Eval.fail .wrongKind

/-- Write a field of a structure, which need not be there before. -/
def writeField (stem : Value) (name : String) (value : Copy) : Eval Unit := do
  match stem, ← Eval.look fun machine => machine.heap.object? stem with
  | .object ref, some (.record entries) =>
      Eval.replace ref (.record (entries.insert (.name name) value))
  | _, _ => Eval.fail .wrongKind

/-- Make a structure of a type, with a value for each field. -/
def construct (annotations : Annotations) (of : Value) (arguments : List Copy) : Eval Copy :=
  match of with
  | .type _ id =>
      match annotations.declaration? id with
      | some (.struct _ fields) =>
          if fields.length = arguments.length then
            Eval.make (.record (Bindings.ofList ((fields.map Key.name).zip arguments)))
          else Eval.fail .argumentCount
      | _ => Eval.fail .notAStructure
  | _ => Eval.fail .notAStructure

/-- The failure to call a value. -/
def notCallable (callee : Value) : Eval Copy := do
  let text ← Eval.look fun machine => (machine.heap.unfold callee).text
  Eval.fail (.violation (.notCallable text))

/-- Call a value with arguments. -/
def apply (annotations : Annotations) (calls : Calls) (callee : Value)
    (arguments : List Copy) : Eval Copy := do
  match callee, ← Eval.look fun machine => machine.heap.object? callee with
  | .null, _ => Eval.raise (.nullDereference .call)
  | .builtin _ _, _ =>
      match arguments with
      | [value] => Eval.print value
      | _ => Eval.fail .wrongKind
  | .function _ id, _ =>
      match annotations.declaration? id with
      | some (.function _ parameters body) => calls parameters body arguments
      | _ => notCallable callee
  | _, some (.constructor of) => construct annotations of arguments
  | _, _ => notCallable callee

/-- The value of a reference: the declaration that it is bound to, or else the variable of its
name. -/
def resolve (annotations : Annotations) (reference : NodeId) (name : String) : Eval Copy :=
  match (annotations.bindingOf? reference).bind annotations.valueOf? with
  | some value => pure (.new value)
  | none => Eval.readName name

/-- A reference that is bound gives the value of its declaration. -/
theorem run_resolve {annotations : Annotations} {reference : NodeId} {value : Value}
    (bound : (annotations.bindingOf? reference).bind annotations.valueOf? = some value)
    (name : String) (machine : Machine) :
    (resolve annotations reference name).run machine = .done (.new value) machine := by
  rw [resolve, bound]
  rfl

/-- The static type of a node. -/
def typeOf (annotations : Annotations) (node : Node) : Eval StaticType :=
  Eval.ofExcept (annotations.typeOf node)

/-- The type of a node that carries one. -/
theorem run_typeOf {annotations : Annotations} {node : Node} {type : StaticType}
    (typed : annotations.typeOf node = .ok type) (machine : Machine) :
    (typeOf annotations node).run machine = .done type machine := by
  rw [typeOf, typed, Eval.run_ofExcept_ok]

/-- Run the computation of a node; its runtime errors arise in this node, unless they have arisen
in a node further in. -/
def located (node : Node) (computation : Eval Copy) : Eval Copy :=
  Eval.locate (fun _ => node.contents) computation

/-! ### Evaluation -/

variable [NumericLibrary]

mutual

/-- Evaluate a node. -/
def evaluate (annotations : Annotations) (calls : Calls) (node : Node) : Eval Copy :=
  match node with
  | .int _ value => Eval.keep (.new (.int (Word.wrap value)))
  | .float id value => pure (.written id (.float value))
  | .string id value => pure (.written id (.string value))
  | .null _ => pure (.new .null)
  | .reference id name => resolve annotations id name
  | .constructor _ of => located node do
      let type ← evaluate annotations calls of
      Eval.make (.constructor type.value)
  | .array _ items => located node do
      let type ← typeOf annotations node
      let values ← evaluateAll annotations calls items
      Eval.settle (.ofList (values.map (widen (elementType type))))
  | .paren _ inner => located node (evaluate annotations calls inner)
  | .field _ stem name => located node do
      let object ← evaluate annotations calls stem
      readField object.value name
  -- The array is counted before the index is evaluated, and the index is checked against that
  -- count.
  | .index _ stem position => located node do
      let array ← evaluate annotations calls stem
      let length ← extent array.value
      let index ← evaluate annotations calls position
      let place ← Eval.ofExcept (Index.check index.value length)
      readElement array.value place
  | .call _ callee arguments => located node do
      let function ← evaluate annotations calls callee
      let values ← evaluateAll annotations calls arguments
      apply annotations calls function.value values
  -- The types are those of the nodes, so a connective may be decided without its right operand.
  | .diadic _ left op right => located node do
      let leftType ← typeOf annotations left
      let rightType ← typeOf annotations right
      let leftValue ← evaluate annotations calls left
      match decided? op leftType rightType leftValue.value with
      | some value => Eval.keep (.new value)
      | none => do
          let rightValue ← evaluate annotations calls right
          Eval.operate fun heap =>
            Operation.diadic heap op leftType rightType (.item leftValue) (.item rightValue)
  | .monadic _ op operand => located node do
      let value ← evaluate annotations calls operand
      let type ← typeOf annotations operand
      Eval.operate fun heap => Operation.monadic heap op type (.item value)
  | .monadicFork _ fork operand => located node do
      let value ← evaluate annotations calls operand
      let type ← typeOf annotations operand
      Eval.operate fun heap => Operation.monadicFork heap fork type (.item value)
  | .diadicFork _ left fork right => located node do
      let leftValue ← evaluate annotations calls left
      let rightValue ← evaluate annotations calls right
      let leftType ← typeOf annotations left
      let rightType ← typeOf annotations right
      Eval.operate fun heap =>
        Operation.diadicFork heap fork leftType rightType (.item leftValue) (.item rightValue)
  | .assign _ target source => located node do
      let type ← typeOf annotations node
      match target with
      | .reference _ name => do
          let value ← evaluate annotations calls source
          let value ← Eval.keep (widen type value)
          Eval.writeName name value
          pure value
      | .index _ stem position => do
          let array ← evaluate annotations calls stem
          let length ← extent array.value
          let index ← evaluate annotations calls position
          let place ← Eval.ofExcept (Index.check index.value length)
          let value ← evaluate annotations calls source
          let value ← Eval.keep (widen type value)
          writeElement array.value place value
          pure value
      | .field _ stem name => do
          let object ← evaluate annotations calls stem
          if object.value = .null then Eval.raise (.nullDereference .field)
          else do
            let value ← evaluate annotations calls source
            let value ← Eval.keep (widen type value)
            writeField object.value name value
            pure value
      | target => Eval.fail (.violation (.notAssignable target.contents))
  | node => Eval.fail (.violation (.notExpression node.kind))
termination_by structural node

/-- Evaluate nodes from left to right. -/
def evaluateAll (annotations : Annotations) (calls : Calls) : List Node → Eval (List Copy)
  | [] => pure []
  | node :: nodes => do
      let value ← evaluate annotations calls node
      let values ← evaluateAll annotations calls nodes
      pure (value :: values)
termination_by structural nodes => nodes

end

end Evaluation

end ArrayForks
