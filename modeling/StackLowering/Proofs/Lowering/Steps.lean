import Mathlib.Logic.Relation
import StackLowering.Proofs.Lowering.Frame

/-!
# What lowering does to its state

Lowering changes its state in five ways (`LoweringState.Step`): it goes to another line, requests an
instance, lays out a class, declares a variable or asks for one of two temporaries. Every computation
that lowers a part of a script is a sequence of such steps, whatever it is given and whether it fails
or not. What a step preserves is therefore preserved by lowering; in particular the registered symbols
and the slots of the function only grow (`LoweringState.Extends`).

A step is said once here, with all that it can do; every invariant of the state is a case analysis over
it and an induction along the sequence. A request that is refused and a declaration of a name that is
taken are steps like the others. Whether they change anything is not asked here.

There is one rule for each way to build a computation, in the order of the definitions: for resolutions
(`Resolution.Steps`), for computations that cannot fail (`Lower.Steps`) and for those that can
(`Attempt.Steps`). The last part of the module is about what computations give and write, apart from
their steps: `Attempt.run_bind_ok` and its companions run an attempt piece by piece, and `Lower.code`
is the code that a computation writes, which is all that most statements need of its output.
-/

namespace StackLowering

open Relation

/-! ### Steps -/

/-- What lowering may do to the registered symbols. -/
inductive Symbols.Step : Symbols → Symbols → Prop
  | request (s : Symbols) (template : Fingerprint) (args : List Fingerprint) (span : Span) :
      Step s (s.instantiate template args span).2
  | layOut {s : Symbols} {id : Fingerprint} {size : UInt32} {r : Registry}
      (h : s.registry.layOutClass id = .ok (size, r)) : Step s { s with registry := r }

/-- What lowering may do to its state. -/
inductive LoweringState.Step : LoweringState → LoweringState → Prop
  | line (s : LoweringState) (line : UInt32) : Step s { s with line }
  | symbols (s : LoweringState) {symbols : Symbols} (h : s.symbols.Step symbols) :
      Step s { s with symbols }
  | declare (s : LoweringState) (name : String) (type : Fingerprint) (span : Span) :
      Step s { s with frame := (s.frame.declare name type span).2 }
  | temporary (s : LoweringState) {name : String}
      (h : name = countTemporary ∨ name = addressTemporary) :
      Step s { s with frame := (s.frame.temporary name addressType).2 }

/-- Some steps in a row. -/
abbrev Symbols.Steps : Symbols → Symbols → Prop := ReflTransGen Symbols.Step

/-- Some steps in a row. -/
abbrev LoweringState.Steps : LoweringState → LoweringState → Prop := ReflTransGen LoweringState.Step

/-- A step keeps the variables and their slots. -/
theorem LoweringState.Step.frame {s s' : LoweringState} (h : s.Step s') :
    s.frame.Extends s'.frame := by
  cases h with
  | line => exact .refl _
  | symbols => exact .refl _
  | declare name type span => exact .declare _ name type span
  | temporary => exact .temporary _ _ _

/-- Steps in a row keep the variables and their slots. -/
theorem LoweringState.Steps.frame {s s' : LoweringState} (h : s.Steps s') :
    s.frame.Extends s'.frame := by
  induction h with
  | refl => exact .refl _
  | tail _ hstep ih => exact ih.trans hstep.frame

/-- In some steps the symbols make some steps. -/
theorem LoweringState.Steps.symbols {s s' : LoweringState} (h : s.Steps s') :
    s.symbols.Steps s'.symbols := by
  induction h with
  | refl => exact .refl
  | tail _ hstep ih =>
    rcases hstep with _ | h
    · exact ih
    · exact ih.tail h
    · exact ih
    · exact ih

/-- Steps of the symbols are steps of the state. -/
theorem Symbols.Steps.state {s : LoweringState} {symbols : Symbols}
    (h : s.symbols.Steps symbols) : s.Steps { s with symbols } := by
  induction h with
  | refl => exact .refl
  | tail _ hstep ih => exact ih.tail (.symbols _ hstep)

/-! ### Resolutions -/

/-- The second of two resolutions starts where the first one ends, unless that failed. -/
theorem Resolution.run_bind {α β : Type} (x : Resolution α) (f : α → Resolution β) (s : Symbols) :
    (x >>= f).run.run s =
      match x.run.run s with
      | (.ok a, s') => (f a).run.run s'
      | (.error error, s') => (.error error, s') := by
  rw [ExceptT.run_bind, StateT.run_bind]
  rcases x.run.run s with ⟨_ | a, s'⟩ <;> rfl

theorem Resolution.run_get_bind {β : Type} (f : Symbols → Resolution β) (s : Symbols) :
    (MonadState.get >>= f : Resolution β).run.run s = (f s).run.run s := Resolution.run_bind _ _ _

/-- A resolution that only makes steps. -/
def Resolution.Steps {α : Type} (x : Resolution α) : Prop :=
  ∀ s : Symbols, s.Steps (x.run.run s).2

namespace Resolution.Steps

variable {α β : Type}

theorem pure (a : α) : Steps (pure a : Resolution α) :=
  fun _ ↦ .refl

theorem throw (error : CompileError) : Steps (throw error : Resolution α) :=
  fun _ ↦ .refl

theorem get : Steps (MonadState.get : Resolution Symbols) :=
  fun _ ↦ .refl

/-- If the first of two resolutions fails, the second one makes no steps at all. -/
theorem bind {x : Resolution α} {f : α → Resolution β} (hx : x.Steps) (hf : ∀ a, (f a).Steps) :
    (x >>= f).Steps := by
  intro s
  have hfirst := hx s
  rw [Resolution.run_bind]
  generalize x.run.run s = out at hfirst
  rcases out with ⟨_ | a, s'⟩
  · exact hfirst
  · exact hfirst.trans (hf a s')

/-- The request of an instance is a step, also if it is refused. -/
theorem instantiate (template : Fingerprint) (args : List Fingerprint) (span : Span) :
    (Resolution.instantiate template args span).Steps :=
  fun s ↦ .single (.request s template args span)

end Resolution.Steps

mutual

/-- To resolve a type is to request instances, from the inside out. The recursion is that of the
definition. -/
theorem TypeExpr.steps_resolve : (t : TypeExpr) → t.resolve.Steps
  | .apply name args span => by
    rw [TypeExpr.resolve]
    refine .bind .get fun s ↦ ?_
    split
    · exact .throw _
    · split
      · exact .throw _
      · exact .bind (steps_resolveTypes args) fun _ ↦ .instantiate _ _ _
    · split
      · exact .pure _
      · exact .throw _
termination_by structural t => t

/-- To resolve some types is to resolve one after the other, up to the first that fails. -/
theorem steps_resolveTypes : (ts : List TypeExpr) → (resolveTypes ts).Steps
  | [] => .pure _
  | t :: ts => by
    rw [resolveTypes]
    exact .bind t.steps_resolve fun _ ↦ .bind (steps_resolveTypes ts) fun _ ↦ .pure _
termination_by structural ts => ts

end

/-! ### Lowering computations -/

/-- A computation that only makes steps. -/
def Lower.Steps {α : Type} (x : Lower α) : Prop := ∀ s : LoweringState, s.Steps (x.run s).state

namespace Lower.Steps

variable {α : Type}

theorem pure (a : α) : Steps (pure a) :=
  fun _ ↦ .refl

theorem get : Lower.get.Steps :=
  fun _ ↦ .refl

theorem registry : Lower.registry.Steps :=
  fun _ ↦ .refl

theorem width : Lower.width.Steps :=
  fun _ ↦ .refl

theorem setLine (line : UInt32) : (Lower.setLine line).Steps :=
  fun s ↦ .single (.line s line)

theorem emit (i : SymbolicInstruction) : (Lower.emit i).Steps :=
  fun _ ↦ .refl

theorem emitAll (is : List SymbolicInstruction) : (Lower.emitAll is).Steps :=
  fun _ ↦ .refl

theorem report (error : CompileError) : (Lower.report error).Steps :=
  fun _ ↦ .refl

theorem annotate (node : NodeId) (type : Fingerprint) : (Lower.annotate node type).Steps :=
  fun _ ↦ .refl

/-- The two temporaries of a construction are asked for as addresses. -/
theorem temporary {name : String} (h : name = countTemporary ∨ name = addressTemporary) :
    (Lower.temporary name addressType).Steps :=
  fun s ↦ .single (.temporary s h)

end Lower.Steps

/-- What two computations in a row give: the value and the state of the second one, and both outputs.
-/
theorem Lower.run_bind {α β : Type} (x : Lower α) (f : α → Lower β) (s : LoweringState) :
    (x >>= f).run s =
      ⟨((f (x.run s).value).run (x.run s).state).value, ((f (x.run s).value).run (x.run s).state).state,
        (x.run s).output ++ ((f (x.run s).value).run (x.run s).state).output⟩ := rfl

/-- After a computation that succeeds, the next one starts with its value. -/
theorem Attempt.run_bind_ok {α β : Type} {x : Attempt α} (f : α → Attempt β) {s s' : LoweringState}
    {a : α} {o : Output} (h : x.run.run s = ⟨.ok a, s', o⟩) :
    (x >>= f).run.run s =
      ⟨((f a).run.run s').value, ((f a).run.run s').state, o ++ ((f a).run.run s').output⟩ := by
  rw [ExceptT.run_bind, Lower.run_bind, h]

/-- A computation that fails is the end of those in a row. -/
theorem Attempt.run_bind_error {α β : Type} {x : Attempt α} (f : α → Attempt β) {s s' : LoweringState}
    {error : CompileError} {o : Output} (h : x.run.run s = ⟨.error error, s', o⟩) :
    (x >>= f).run.run s = ⟨.error error, s', o⟩ := by
  rw [ExceptT.run_bind, Lower.run_bind, h]
  exact congrArg (Outcome.mk _ _) o.append_empty

/-- A computation that cannot fail is followed by the next one in any case. -/
theorem Attempt.lift_bind_run {α β : Type} (x : Lower α) (f : α → Attempt β) :
    (liftM x >>= f : Attempt β).run = x >>= fun a ↦ (f a).run :=
  ExceptT.run_bind_lift x f

/-- After a computation that cannot fail, the next one starts with its value. -/
theorem Attempt.run_lift_bind {α β : Type} {x : Lower α} (f : α → Attempt β) {s s' : LoweringState}
    {a : α} {o : Output} (h : x.run s = ⟨a, s', o⟩) :
    (liftM x >>= f : Attempt β).run.run s =
      ⟨((f a).run.run s').value, ((f a).run.run s').state, o ++ ((f a).run.run s').output⟩ := by
  rw [Attempt.lift_bind_run, Lower.run_bind, h]

/-- What only looks at the registry does not show in the next computation. -/
theorem Attempt.run_registry_bind {β : Type} (f : Registry → Attempt β) (s : LoweringState) :
    (liftM Lower.registry >>= f : Attempt β).run.run s = (f s.symbols.registry).run.run s :=
  Attempt.run_lift_bind (x := Lower.registry) f (s := s) rfl

/-- Two computations in a row succeed if both do. -/
theorem Attempt.bind_eq_ok {α β : Type} {x : Attempt α} {f : α → Attempt β} {s : LoweringState}
    {b : β} :
    ((x >>= f).run.run s).value = .ok b ↔
      ∃ a, (x.run.run s).value = .ok a ∧ ((f a).run.run (x.run.run s).state).value = .ok b := by
  rw [ExceptT.run_bind, Lower.value_bind]
  cases (x.run.run s).value with
  | ok a => simp
  | error error => simp

/-- Two computations in a row lead to where the second one does, if the first one succeeds. -/
theorem Attempt.state_bind {α β : Type} {x : Attempt α} (f : α → Attempt β) {s : LoweringState}
    {a : α} (h : (x.run.run s).value = .ok a) :
    ((x >>= f).run.run s).state = ((f a).run.run (x.run.run s).state).state := by
  rw [ExceptT.run_bind, Lower.state_bind, h]

/-- A refused class leaves the state as it is. -/
theorem Attempt.run_layOutClass (id : Fingerprint) (span : Span) (s : LoweringState) :
    (Attempt.layOutClass id span).run.run s =
      match s.symbols.registry.layOutClass id with
      | .error error => ⟨.error (.registration error span), s, .empty⟩
      | .ok (size, registry) =>
        ⟨.ok size, { s with symbols := { s.symbols with registry } }, .empty⟩ := rfl

/-- A declaration changes the frame and writes nothing. -/
theorem Attempt.run_declare (name : String) (type : Fingerprint) (span : Span)
    (s : LoweringState) :
    (Attempt.declare name type span).run.run s =
      ⟨(s.frame.declare name type span).1,
        { s with frame := (s.frame.declare name type span).2 }, .empty⟩ := rfl

/-- A computation that may fail and only makes steps. -/
def Attempt.Steps {α : Type} (x : Attempt α) : Prop := Lower.Steps x.run

namespace Attempt.Steps

variable {α : Type}

/-- A resolution takes its steps on the symbols of the state. -/
theorem resolve {x : Resolution α} (h : x.Steps) : (Attempt.resolve x).Steps :=
  fun s ↦ (h s.symbols).state

/-- A class that cannot be laid out is no step at all. -/
theorem layOutClass (id : Fingerprint) (span : Span) : (Attempt.layOutClass id span).Steps := by
  intro s
  rw [Attempt.run_layOutClass]
  split
  next => exact .refl
  next h => exact .single (.symbols s (.layOut h))

theorem declare (name : String) (type : Fingerprint) (span : Span) :
    (Attempt.declare name type span).Steps :=
  fun s ↦ .single (.declare s name type span)

end Attempt.Steps

/-! ### Instructions -/

/-- The instructions of an output. -/
def Output.instructions (o : Output) : List SymbolicInstruction := o.code.map (·.instruction)

/-- The instructions of two outputs in a row. -/
theorem Output.instructions_append (a b : Output) :
    (a ++ b).instructions = a.instructions ++ b.instructions := by
  simp [instructions]

namespace Lower

/-- The instructions that a computation writes. -/
def code {α : Type} (x : Lower α) (s : LoweringState) : List SymbolicInstruction :=
  (x.run s).output.instructions

/-- The code of two computations in a row: the second one is run with what the first one leaves. -/
theorem code_bind {α β : Type} (x : Lower α) (f : α → Lower β) (s : LoweringState) :
    (x >>= f).code s = x.code s ++ (f (x.run s).value).code (x.run s).state := by
  rw [code, output_bind, Output.instructions_append]
  rfl

/-- An instruction is its own code. -/
theorem code_emit (i : SymbolicInstruction) (s : LoweringState) : (emit i).code s = [i] := rfl

/-- A run of instructions is its own code. -/
theorem code_emitAll (is : List SymbolicInstruction) (s : LoweringState) :
    (emitAll is).code s = is := by
  simp [code, emitAll, run, Output.instructions, Function.comp_def]

/-- The code does not depend on whether the value is used. -/
theorem code_discard {α : Type} (x : Lower α) (s : LoweringState) : (discard x).code s = x.code s := by
  show (x >>= fun _ ↦ Pure.pure ()).code s = x.code s
  rw [code_bind]
  exact List.append_nil _

end Lower

end StackLowering
