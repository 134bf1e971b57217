import StackLowering.Lowering.Names
import StackLowering.Machine.Instruction

/-!
# Lowering computations

Lowering a function reads and changes three things: the registered symbols, the local variables and
the current source line. It writes three others, which it never reads back: instructions, errors and
findings about constructions. A computation returns its value and the state after it together with
what it wrote itself, so that the output of two computations in a row is that of the first followed
by that of the second.

A computation that fails keeps the state that it has reached and the output that it has written.
-/

namespace StackLowering

/-- What lowering reads and changes. -/
structure LoweringState where
  /-- The registered types and functions. -/
  symbols : Symbols
  /-- The local variables. -/
  frame : Frame := .empty
  /-- The source line that new instructions belong to. -/
  line : UInt32 := 1

/-- What lowering writes. -/
structure Output where
  /-- Instructions in order. -/
  code : List LocatedInstruction := []
  /-- Errors in order. -/
  errors : List CompileError := []
  /-- Findings about constructions in order. -/
  findings : List (NodeId × Fingerprint) := []
deriving DecidableEq, Repr

namespace Output

/-- No output. -/
def empty : Output := {}

instance : Append Output where
  append a b := ⟨a.code ++ b.code, a.errors ++ b.errors, a.findings ++ b.findings⟩

@[simp] theorem code_empty : empty.code = [] := rfl
@[simp] theorem errors_empty : empty.errors = [] := rfl
@[simp] theorem findings_empty : empty.findings = [] := rfl

@[simp] theorem code_append (a b : Output) : (a ++ b).code = a.code ++ b.code := rfl
@[simp] theorem errors_append (a b : Output) : (a ++ b).errors = a.errors ++ b.errors := rfl
@[simp] theorem findings_append (a b : Output) : (a ++ b).findings = a.findings ++ b.findings := rfl

@[simp] theorem empty_append (a : Output) : empty ++ a = a := rfl

@[simp] theorem append_empty (a : Output) : a ++ empty = a := by
  cases a
  change Output.mk _ _ _ = _
  simp

theorem append_assoc (a b c : Output) : a ++ b ++ c = a ++ (b ++ c) := by
  change Output.mk _ _ _ = Output.mk _ _ _
  simp

end Output

/-- The result of a computation. -/
structure Outcome (α : Type) where
  /-- The value. -/
  value : α
  /-- The state after the computation. -/
  state : LoweringState
  /-- What the computation wrote. -/
  output : Output

/-- A lowering computation. -/
def Lower (α : Type) : Type := LoweringState → Outcome α

namespace Lower

/-- Runs a computation. -/
def run {α : Type} (x : Lower α) (s : LoweringState) : Outcome α := x s

/-- Returns a value and does nothing else. -/
protected def pure {α : Type} (a : α) : Lower α := fun s ↦ ⟨a, s, .empty⟩

/-- One computation after another. -/
protected def bind {α β : Type} (x : Lower α) (f : α → Lower β) : Lower β := fun s ↦
  let first := x s
  let second := f first.value first.state
  ⟨second.value, second.state, first.output ++ second.output⟩

instance : Monad Lower where
  pure := Lower.pure
  bind := Lower.bind

@[simp] theorem run_pure {α : Type} (a : α) (s : LoweringState) :
    (pure a : Lower α).run s = ⟨a, s, .empty⟩ := rfl

@[simp] theorem value_bind {α β : Type} (x : Lower α) (f : α → Lower β) (s : LoweringState) :
    ((x >>= f).run s).value = ((f (x.run s).value).run (x.run s).state).value := rfl

@[simp] theorem state_bind {α β : Type} (x : Lower α) (f : α → Lower β) (s : LoweringState) :
    ((x >>= f).run s).state = ((f (x.run s).value).run (x.run s).state).state := rfl

@[simp] theorem output_bind {α β : Type} (x : Lower α) (f : α → Lower β) (s : LoweringState) :
    ((x >>= f).run s).output =
      (x.run s).output ++ ((f (x.run s).value).run (x.run s).state).output := rfl

@[ext] theorem ext {α : Type} {x y : Lower α} (h : ∀ s, x.run s = y.run s) : x = y :=
  funext h

instance : LawfulMonad Lower := LawfulMonad.mk' Lower
  (by
    intro α x
    ext s
    change Outcome.mk _ _ (_ ++ Output.empty) = x.run s
    rw [Output.append_empty]
    rfl)
  (by intros; rfl)
  (by
    intro α β γ x f g
    ext s
    change Outcome.mk _ _ (_ ++ _ ++ _) = Outcome.mk _ _ (_ ++ (_ ++ _))
    rw [Output.append_assoc]
    rfl)

/-! ### State -/

/-- The state. -/
def get : Lower LoweringState := fun s ↦ ⟨s, s, .empty⟩

/-- Changes the state. -/
def modify (f : LoweringState → LoweringState) : Lower Unit := fun s ↦ ⟨(), f s, .empty⟩

/-- The registered types and functions. -/
def registry : Lower Registry := return (← get).symbols.registry

/-- The pointer width of the target machine. -/
def width : Lower Width := return (← registry).width

/-- Changes the source line that new instructions belong to. -/
def setLine (line : UInt32) : Lower Unit := modify fun s ↦ { s with line }

/-- The slot of a temporary. -/
def temporary (name : String) (type : Fingerprint) : Lower UInt32 := fun s ↦
  let (slot, frame) := s.frame.temporary name type
  ⟨slot, { s with frame }, .empty⟩

/-! ### Output -/

/-- Writes an instruction on the current line. -/
def emit (i : SymbolicInstruction) : Lower Unit := fun s ↦
  ⟨(), s, { code := [⟨s.line, i⟩] }⟩

/-- Writes a run of instructions on the current line. -/
def emitAll (is : List SymbolicInstruction) : Lower Unit := fun s ↦
  ⟨(), s, { code := is.map (⟨s.line, ·⟩) }⟩

/-- Reports an error. -/
def report (error : CompileError) : Lower Unit := fun s ↦ ⟨(), s, { errors := [error] }⟩

/-- Records the type of a construction. -/
def annotate (node : NodeId) (type : Fingerprint) : Lower Unit := fun s ↦
  ⟨(), s, { findings := [(node, type)] }⟩

/-- Reports an error and writes a trap in the place of what could not be lowered. -/
def trap (error : CompileError) : Lower Unit := do
  report error
  emit .trap

end Lower

/-- A lowering computation that may fail. -/
abbrev Attempt := ExceptT CompileError Lower

namespace Attempt

/-- Resolves types on the registered symbols. -/
def resolve {α : Type} (x : Resolution α) : Attempt α := ExceptT.mk fun s ↦
  let (result, symbols) := x.run.run s.symbols
  ⟨result, { s with symbols }, .empty⟩

/-- Lays out a class and tells the size of its objects. -/
def layOutClass (id : Fingerprint) (span : Span) : Attempt UInt32 := ExceptT.mk fun s ↦
  match s.symbols.registry.layOutClass id with
  | .error error => ⟨.error (.registration error span), s, .empty⟩
  | .ok (size, registry) =>
    ⟨.ok size, { s with symbols := { s.symbols with registry } }, .empty⟩

/-- Declares a variable and tells its slot. -/
def declare (name : String) (type : Fingerprint) (span : Span) : Attempt UInt32 :=
  ExceptT.mk fun s ↦
    let (result, frame) := s.frame.declare name type span
    ⟨result, { s with frame }, .empty⟩

end Attempt

end StackLowering
