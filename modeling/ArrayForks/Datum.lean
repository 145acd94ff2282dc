import ArrayForks.Heap
import ArrayForks.Violation

/-! # Data

A datum is a value with all that it refers to, laid out as a tree. It is what printing a value,
reading it as numbers and recovering its type look at. A value of the heap is unfolded into a datum
by following its references, once around for an object that lies within itself.

* **`heap.unfold value : Datum`** unfolds a value.
* **`Datum.text`**, **`Datum.type`** are its text and the type that it shows. -/

namespace ArrayForks

/-- A value together with everything that it refers to. -/
inductive Datum where
  /-- A value that refers to nothing. -/
  | atom (value : Value)
  /-- An array. -/
  | array (items : List Datum)
  /-- A structure with its entries in order. -/
  | record (entries : List (Key × Datum))
  /-- A constructor of a type, at its place in the heap. -/
  | constructor (of : Datum) (ref : Ref)

namespace Heap

/-- Unfold a value along chains of at most `depth` references. A reference stays if it leads
nowhere, or back into one of the objects around it. -/
def unfoldTo (heap : Heap) : (depth : Nat) → (around : List Ref) → Value → Datum
  | depth + 1, around, .object ref =>
      if ref ∈ around then .atom (.object ref)
      else
        match heap.get? ref with
        | none => .atom (.object ref)
        | some (.array items) =>
            .array (items.map fun item => unfoldTo heap depth (ref :: around) item.value)
        | some (.record bindings) =>
            .record (bindings.entries.map fun entry =>
              (entry.1, unfoldTo heap depth (ref :: around) entry.2.value))
        | some (.constructor of) => .constructor (unfoldTo heap depth (ref :: around) of) ref
  | _, _, value => .atom value

/-- The datum of a value. A chain that is followed passes each object at most once, so the number of
objects is depth enough. -/
def unfold (heap : Heap) (value : Value) : Datum :=
  heap.unfoldTo (heap.objects.size + 1) [] value

end Heap

namespace Datum

/-! ### Text -/

mutual

/-- The text of a datum, as it is printed and joined to other text. -/
def text : Datum → String
  | .atom value => value.text
  | .array items => "[" ++ ", ".intercalate (textAll items) ++ "]"
  | .record entries => "\x7b" ++ ", ".intercalate (textEntries entries) ++ "\x7d"
  | .constructor of _ => "$" ++ of.text

/-- The texts of elements. -/
def textAll : List Datum → List String
  | [] => []
  | item :: items => item.text :: textAll items

/-- The texts of entries. -/
def textEntries : List (Key × Datum) → List String
  | [] => []
  | (key, value) :: entries => (key.text ++ "=" ++ value.text) :: textEntries entries

end

/-! ### Arrays of arrays -/

mutual

/-- Whether a datum is `null`, or an array that holds it. What lies within structures does not
count. -/
def holdsNull : Datum → Bool
  | .atom value => value = .null
  | .array items => anyHoldsNull items
  | .record _ => false
  | .constructor _ _ => false

/-- Whether an element is `null` or an array that holds it. -/
def anyHoldsNull : List Datum → Bool
  | [] => false
  | item :: items => item.holdsNull || anyHoldsNull items

end

mutual

/-- The lengths of an array and of the arrays within it, outermost first, if arrays beside each
other are of one shape. -/
def shape? : Datum → Option (List Nat)
  | .array [] => some [0]
  | .array (first :: rest) => do
      let shape ← first.shape?
      if haveShape shape rest then some ((rest.length + 1) :: shape) else none
  | _ => some []

/-- Whether all elements are of a shape. -/
def haveShape (shape : List Nat) : List Datum → Bool
  | [] => true
  | item :: items => item.shape? == some shape && haveShape shape items

end

/-! ### Types of intermediate results -/

/-- The name of the kind of a datum. -/
def kind : Datum → String
  | .atom (.int _) => "int"
  | .atom (.float _) => "float"
  | .atom (.string _) => "str"
  | .atom .null => "NoneType"
  | .atom (.object _) => "object"
  | .atom (.function _ _) => "FunDeclaration"
  | .atom (.type _ _) => "StructDeclaration"
  | .atom (.builtin _ _) => "Builtin"
  | .array _ => "list"
  | .record _ => "dict"
  | .constructor _ _ => "StructConstructor"

mutual

/-- The type that a datum shows: a number shows its own type, and an array shows the type of its
first element. -/
def type : Datum → Except Violation StaticType
  | .atom (.int _) => .ok .int
  | .atom (.float _) => .ok .float
  | .array items => (componentType items).map .array
  | datum => .error (.untypedIntermediate datum.kind)

/-- The type that the first element of an array shows, which has to be a number or an array. -/
def componentType : List Datum → Except Violation StaticType
  | [] => .error .emptyIntermediate
  | .atom (.int _) :: _ => .ok .int
  | .atom (.float _) :: _ => .ok .float
  | .array items :: _ => (componentType items).map .array
  | datum :: _ => .error (.untypedElement datum.kind)

end

end Datum

end ArrayForks
