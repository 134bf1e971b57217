import StackLowering.Report.Error

/-!
# Diagnostics

The errors of a run, in the order in which they were reported.
-/

namespace StackLowering

/-- Reported errors, oldest first. -/
structure Diagnostics where
  /-- The errors in order. -/
  errors : List CompileError := []
deriving DecidableEq, Inhabited, Repr

namespace Diagnostics

/-- No error so far. -/
def empty : Diagnostics := {}

/-- Adds an error at the end. -/
def report (d : Diagnostics) (error : CompileError) : Diagnostics := ⟨d.errors ++ [error]⟩

/-- Adds a run of errors at the end. -/
def reportAll (d : Diagnostics) (errors : List CompileError) : Diagnostics := ⟨d.errors ++ errors⟩

/-- The number of errors. -/
def count (d : Diagnostics) : Nat := d.errors.length

/-- Whether nothing was reported. -/
def isEmpty (d : Diagnostics) : Bool := d.errors.isEmpty

/-- One line for each error. -/
def text (d : Diagnostics) : String :=
  String.join (d.errors.map fun error ↦ s!"error: {error.text}\n")

theorem reportAll_nil (d : Diagnostics) : d.reportAll [] = d := by
  simp [reportAll]

theorem reportAll_cons (d : Diagnostics) (error : CompileError) (errors : List CompileError) :
    d.reportAll (error :: errors) = (d.report error).reportAll errors := by
  simp [reportAll, report]

end Diagnostics

end StackLowering
