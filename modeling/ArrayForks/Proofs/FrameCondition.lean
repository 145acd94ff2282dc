import ArrayForks.Proofs.Steps

/-! # What a run leaves as it was

A frame condition relates the machine before a computation to the machine after it, whether the
computation ends with a value or with a failure. There are few elementary changes of the machine: an
object is made, an element or a field is written, a variable is written, a copy is counted, a line
is printed. A reflexive and transitive relation that allows each of them holds across every
evaluation, provided that it holds across calls. -/

namespace ArrayForks

/-- The computations after which the machine stands in a relation to the machine before. -/
def Eval.Keeps (kept : Machine → Machine → Prop) : Eval.Trait := fun _ computation =>
  ∀ machine final, (computation.run machine).machine? = some final → kept machine final

namespace Eval

variable {kept : Machine → Machine → Prop}

/-- Sequencing keeps what is reflexive and transitive. -/
theorem composes_keeps (refl : ∀ machine, kept machine machine)
    (trans : ∀ {first middle last}, kept first middle → kept middle last → kept first last) :
    Composes (Keeps kept) where
  pure value machine final ends := by
    cases ends
    exact refl machine
  bind first rest machine final ends := by
    rw [run_bind] at ends
    split at ends
    · next value middle ran =>
        have start := first machine middle (by rw [ran]; rfl)
        exact trans start (rest value middle final ends)
    · next failure middle ran => exact first machine final (by rw [ran]; exact ends)
    · cases ends
  fail failure machine final ends := by
    cases ends
    exact refl machine
  look view machine final ends := by
    cases ends
    exact refl machine

/-- The place of a failure does not matter. -/
theorem keeps_locate {α : Type} (node : Unit → String) {computation : Eval α}
    (keeps : Keeps kept α computation) : Keeps kept α (locate node computation) := by
  intro machine final ends
  refine keeps machine final ?_
  simp only [run, locate] at ends ⊢
  split at ends
  · next ran => rw [ran]; exact ends
  · exact ends

/-- What does not end keeps everything. -/
theorem keeps_unfinished {α : Type} : Keeps kept α unfinished := by
  intro machine final ends
  cases ends

/-- A computation in a new frame ends with what it ends with there, but back in the old frame. -/
theorem machine?_within {α : Type} {opening : FrameTree Copy → FrameId → FrameId × FrameTree Copy}
    {computation : Eval α} {machine final : Machine}
    (ends : ((within opening computation).run machine).machine? = some final) :
    ∃ last, final = { last with here := machine.here } ∧
      (computation.run (machine.enter opening)).machine? = some last := by
  change (Outcome.backIn machine.here (computation.run (machine.enter opening))).machine? =
    some final at ends
  generalize computation.run (machine.enter opening) = outcome at ends ⊢
  cases outcome with
  | done value last =>
      cases ends
      exact ⟨last, rfl, rfl⟩
  | failed failure last =>
      cases ends
      exact ⟨last, rfl, rfl⟩
  | unfinished => cases ends

end Eval

/-! ### Elementary changes -/

/-- A relation that allows every change of the machine that evaluating an expression makes itself. -/
structure Machine.Allows (kept : Machine → Machine → Prop) : Prop where
  refl (machine : Machine) : kept machine machine
  trans {first middle last : Machine} (start : kept first middle) (rest : kept middle last) :
    kept first last
  count (machine : Machine) (made : Nat) : kept machine { machine with made }
  print (machine : Machine) (output : String) : kept machine { machine with output }
  make (machine : Machine) (object : Object) :
    kept machine { machine with heap := (machine.heap.alloc object).2 }
  writeItem {machine : Machine} {ref : Ref} {items : List Copy} {place : Nat}
    (found : machine.heap.get? ref = some (.array items)) (value : Copy) :
    kept machine { machine with heap := machine.heap.replace ref (.array (items.set place value)) }
  writeEntry {machine : Machine} {ref : Ref} {entries : Bindings Key Copy}
    (found : machine.heap.get? ref = some (.record entries)) (key : Key) (value : Copy) :
    kept machine
      { machine with heap := machine.heap.replace ref (.record (entries.insert key value)) }
  writeName {machine : Machine} {name : String} {frame : FrameId}
    (found : machine.frames.owner? machine.here name = some frame) (value : Copy) :
    kept machine { machine with frames := machine.frames.insert frame name value }

namespace Machine.Allows

open Eval (Keeps)

variable {kept : Machine → Machine → Prop} (allows : Machine.Allows kept)

include allows

/-- Writing to a name keeps what binding it in a frame keeps. -/
theorem keeps_writeName (name : String) (value : Copy) :
    Keeps kept Unit (Eval.writeName name value) := by
  intro machine final ends
  simp only [Eval.run, Eval.writeName] at ends
  split at ends
  · next frame found =>
      cases ends
      exact allows.writeName found value
  · cases ends
    exact allows.refl machine

/-- Writing to an element keeps what replacing the array keeps. -/
theorem keeps_writeElement (target : Value) (index : Index) (value : Copy) :
    Keeps kept Unit (Evaluation.writeElement target index value) := by
  intro machine final ends
  simp only [Evaluation.writeElement, Eval.run_bind, Eval.run_look] at ends
  split at ends
  · next found =>
      split at ends
      · cases ends
        exact allows.writeItem found value
      · cases ends
        exact allows.refl machine
  · next found =>
      cases ends
      exact allows.writeEntry found _ value
  · cases ends
    exact allows.refl machine

/-- Writing to a field keeps what replacing the structure keeps. -/
theorem keeps_writeField (stem : Value) (name : String) (value : Copy) :
    Keeps kept Unit (Evaluation.writeField stem name value) := by
  intro machine final ends
  simp only [Evaluation.writeField, Eval.run_bind, Eval.run_look] at ends
  split at ends
  · next found =>
      cases ends
      exact allows.writeEntry found _ value
  · cases ends
    exact allows.refl machine

/-- A relation that allows every elementary change holds across every step of an evaluation. -/
theorem steps : Evaluation.Steps (Keeps kept) where
  toComposes := Eval.composes_keeps allows.refl allows.trans
  locate := Eval.keeps_locate
  make object machine final ends := by
    cases ends
    exact allows.make machine object
  keep copy machine final ends := by
    cases ends
    exact allows.count machine (machine.made + 1)
  print copy machine final ends := by
    cases ends
    exact allows.trans (allows.print machine _) (allows.count _ _)
  readName name machine final ends := by
    simp only [Eval.readName, Eval.run_bind, Eval.run_look] at ends
    cases found : machine.frames.lookup machine.here name with
    | ok value =>
        rw [found] at ends
        cases ends
        exact allows.refl machine
    | error failure =>
        rw [found] at ends
        cases ends
        exact allows.refl machine
  writeName := allows.keeps_writeName
  writeElement := allows.keeps_writeElement
  writeField := allows.keeps_writeField

end Machine.Allows

end ArrayForks
