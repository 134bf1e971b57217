import StackLowering.Proofs.Lowering.Steps

/-!
# Lowering takes nothing away

The registered symbols, the remembered instances, the variables and the slots of a function only grow
while it is lowered. Each step of lowering shows this by itself, and a row of steps follows by
induction:

* `LoweringState.Steps.registry` is about the entries of the registry. It asks nothing of the state.
* `LoweringState.Steps.extends` is about the remembered instances and the variables too. An instance
  is remembered under the identity that its template has, so the registry must have its templates under
  their own identities, as every registry has that a host can build (`Registry.Built`). This is kept on
  the way (`LoweringState.Steps.built`).
* `LoweringState.Steps.oneToOne` is about the slots. They follow each other without gaps
  (`Frame.Sequential`), and as long as they have numbers of 32 bits no two variables share one.

What was found out at the start of a computation may therefore be used at its end: a resolved type
still has its entry, a class that was laid out keeps its layout, and a variable keeps its slot.
-/

namespace StackLowering

open Relation

namespace Symbols

variable {s s' : Symbols}

/-- A step leads from a registry that a host can build to another such registry. -/
theorem Step.built (h : s.Step s') (hs : s.registry.Built) : s'.registry.Built := by
  cases h with
  | request template args span => exact (answer_instantiate s template args span).built hs
  | layOut h => exact hs.step (.layOutClass h)

/-- A step takes no entry away, whatever registry it starts with. -/
theorem Step.registry (h : s.Step s') : s.registry.Extends s'.registry := by
  cases h with
  | request template args span => exact (answer_instantiate s template args span).registry
  | layOut h => exact .of_layOutClass h

/-- A step takes no remembered instance away either. Here the registry must have its entries under
their own identities, since an instance is remembered under the identity that its template has. -/
theorem Step.extends (h : s.Step s') (hs : s.registry.Built) : s.Extends s' := by
  cases h with
  | request template args span => exact (answer_instantiate s template args span).extends hs.indexed.keyed
  | layOut h => exact ⟨.of_layOutClass h, fun hfind ↦ hfind⟩

/-- So do steps in a row. -/
theorem Steps.built (h : s.Steps s') (hs : s.registry.Built) : s'.registry.Built := by
  induction h with
  | refl => exact hs
  | tail _ hstep ih => exact hstep.built ih

/-- Steps in a row take nothing away. -/
theorem Steps.extends (h : s.Steps s') (hs : s.registry.Built) : s.Extends s' := by
  induction h with
  | refl => exact .refl s
  | tail hsteps hstep ih => exact ih.trans (hstep.extends (Steps.built hsteps hs))

end Symbols

/-- The symbols and the frame of one state grow into those of the other. -/
structure LoweringState.Extends (s s' : LoweringState) : Prop where
  symbols : s.symbols.Extends s'.symbols
  frame : s.frame.Extends s'.frame

namespace LoweringState

variable {s s' s'' : LoweringState}

/-- A state extends itself. -/
theorem Extends.refl (s : LoweringState) : s.Extends s :=
  ⟨.refl _, .refl _⟩

/-- A state that extends an extension of a third one extends this too. -/
theorem Extends.trans (h : s.Extends s') (h' : s'.Extends s'') : s.Extends s'' :=
  ⟨h.symbols.trans h'.symbols, h.frame.trans h'.frame⟩

/-- A step of the state keeps the registry one that a host can build. Only a step of the symbols
touches it. -/
theorem Step.built (h : s.Step s') (hs : s.symbols.registry.Built) : s'.symbols.registry.Built := by
  cases h with
  | line => exact hs
  | symbols h => exact h.built hs
  | declare => exact hs
  | temporary => exact hs

/-- A step of the state takes no entry of the registry away. -/
theorem Step.registry (h : s.Step s') : s.symbols.registry.Extends s'.symbols.registry := by
  cases h with
  | line => exact .refl _
  | symbols h => exact h.registry
  | declare => exact .refl _
  | temporary => exact .refl _

/-- Steps in a row take no entry of the registry away. -/
theorem Steps.registry (h : s.Steps s') : s.symbols.registry.Extends s'.symbols.registry := by
  induction h with
  | refl => exact .refl _
  | tail _ hstep ih => exact ih.trans hstep.registry

/-- A step takes away neither symbols nor variables. -/
theorem Step.extends (h : s.Step s') (hs : s.symbols.registry.Built) : s.Extends s' := by
  refine ⟨?_, h.frame⟩
  cases h with
  | line => exact .refl _
  | symbols h => exact h.extends hs
  | declare => exact .refl _
  | temporary => exact .refl _

/-- So do steps in a row. -/
theorem Steps.built (h : s.Steps s') (hs : s.symbols.registry.Built) :
    s'.symbols.registry.Built := by
  induction h with
  | refl => exact hs
  | tail _ hstep ih => exact hstep.built ih

/-- Steps in a row take away neither symbols nor variables. -/
theorem Steps.extends (h : s.Steps s') (hs : s.symbols.registry.Built) : s.Extends s' := by
  induction h with
  | refl => exact .refl s
  | tail hsteps hstep ih => exact ih.trans (hstep.extends (Steps.built hsteps hs))

/-! ### Slots -/

/-- A step adds at most one slot, after all others. -/
theorem Step.sequential (h : s.Step s') (hs : s.frame.Sequential) : s'.frame.Sequential := by
  cases h with
  | line => exact hs
  | symbols => exact hs
  | declare name type span => exact hs.declare name type span
  | temporary => exact hs.temporary _ _

/-- The slots of a frame keep following each other. -/
theorem Steps.sequential (h : s.Steps s') (hs : s.frame.Sequential) : s'.frame.Sequential := by
  induction h with
  | refl => exact hs
  | tail _ hstep ih => exact hstep.sequential ih

/-- If the slots have numbers in the end, they correspond to the variables one to one. -/
theorem Steps.oneToOne (h : s.Steps s') (hs : s.frame.Sequential)
    (hsize : s'.frame.slots.size ≤ UInt32.size) : s'.frame.OneToOne :=
  (h.sequential hs).oneToOne hsize

end LoweringState

end StackLowering
