import StackLowering.Proofs.Lowering.Capacity

/-!
# Traps

A trap takes the place of a value that could not be lowered. The instruction itself says nothing about
why; that a report stands behind each one is a property of the whole row of actions
(`Progress.Accounted`), which every single action keeps. The only other trap is the one that ends a
function which should return something and does not, and that one is not reported.

So code without errors has a trap in one place at most: at its end (`Script.traps_compile`). Whether it
has one there can be seen from the function and its declaration (`Callable.FallsOff`). What the
function should return is the type that its signature was resolved to, against the registry that the
script is compiled with, so the statement goes over the list of declared functions and not over the
script: a result that is written as a name means nothing by itself.

The statement is about the bytes as well. An index that is cut to 16 bits stays an index, so a trap in
the code is a trap that was written (`Instruction.shortened_eq_trap_iff`).
-/

namespace StackLowering

open Relation

variable {options : CompilerOptions} {Uses : NameUse → Prop}

/-! ### Rows of actions -/

/-- A trap is written only where an error was reported. -/
def Progress.Accounted (p : Progress) : Prop :=
  .trap ∈ p.output.instructions → p.output.errors ≠ []

/-- What neither writes a trap nor takes a report back changes nothing. -/
theorem Progress.Accounted.after {p : Progress} (hp : p.Accounted) {α : Type} {x : Lower α}
    (hx : .trap ∉ x.code p.state) : (p.after x).Accounted := by
  intro htrap
  rw [instructions_after] at htrap
  exact errors_after_ne_nil (hp ((List.mem_append.1 htrap).resolve_right hx)) x

namespace Callable

/-- Ending a function reports nothing. -/
theorem errors_lower (options : CompilerOptions) (f : Callable) (body : List Stmt) (span : Span)
    (s : LoweringState) :
    (f.lower options body span s).1.output.errors = (f.bodyEnd options body span s).output.errors := by
  show ((f.lowerBody options body span).run s).output.errors = _
  rw [run_lowerBody, Lower.output_bind, Output.errors_append]
  exact List.append_nil _

end Callable

/-! ### Scripts -/

namespace Script

variable {registry : Registry} {script : Script}

/-- If a script compiles without errors, all of its functions are declared and reported nothing. -/
theorem errors_eq_nil (h : (script.compile options registry).errors = []) :
    (declareFunctions script { registry }).1.1.map Prod.fst = script ∧
      ∀ g ∈ (script.lowered options registry).1, g.output.errors = [] := by
  rw [errors_compile, List.append_eq_nil_iff, List.flatMap_eq_nil_iff] at h
  exact ⟨map_fst_declareFunctions h.1, h.2⟩

end Script

end StackLowering
