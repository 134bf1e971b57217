import StackLowering.Lowering.Function
import StackLowering.Proofs.Lowering.Construction
import StackLowering.Proofs.Machine.Assembly

/-!
# The actions of lowering

What a computation does to its state and what it writes is a row of actions (`Action`): a step of the
state, a report, a finding, or an instruction. An instruction is written only where there are grounds
for what it refers to (`Progress.Grounds`): a variable that a script reads has been declared, a
function that it calls has been found, and a trap stands behind the report of an error.

Steps alone (`LoweringState.Steps`) do not tell when something was written, and the code alone does not
tell what was known then. A row of actions keeps both together: `Progress` is a state with all that was
written on the way to it. So a property of whole functions, such as that a slot is stored before it is
read, is an invariant of one action, and what a run preserves follows by induction along the row.

`Lower.Traced` says of a computation that it is such a row, wherever it starts. Some computations write
an instruction because of what they found out before; for them there are rules about a single start
(`Progress.Traces`), which end in the same rows.

The parameters of a function are declared without a store, since the caller has stored them. After that
a variable is new only together with its store, apart from the temporaries of constructions.
`BodyAction` says so, and `BodyTrace` is a row of such actions. Both are taken relative to the names
that the script uses (`NameUse`), so that a function that is called, or a variable that is read, is one
that stands in the script.
-/

namespace StackLowering

open Relation

/-! ### Names in a script -/

/-- How a script uses a name. -/
inductive NameUse where
  /-- It reads a variable. -/
  | read (name : String)
  /-- It calls a function. -/
  | call (name : String)
  /-- It declares a parameter or a variable. -/
  | declare (name : String)
deriving DecidableEq, Repr

mutual

/-- The uses of names in an expression. The callee of a construction is none of them, since no code
refers to it. -/
def Expr.uses : Expr → List NameUse
  | .literal _ _ => []
  | .var name _ => [.read name.name]
  | .call callee args _ => .call (callee.ident?.getD anonymousCallee) :: usesOfList args
  | .construct _ _ _ args _ => usesOfArgs args
  | .paren inner _ => inner.uses
termination_by structural e => e

/-- The uses of names in a list of expressions. -/
def usesOfList : List Expr → List NameUse
  | [] => []
  | e :: es => e.uses ++ usesOfList es
termination_by structural es => es

/-- The uses of names in the arguments of a construction. -/
def usesOfArgs : Option (List Expr) → List NameUse
  | none => []
  | some es => usesOfList es
termination_by structural es => es

end

/-- The uses of names in a statement. -/
def Stmt.uses : Stmt → List NameUse
  | .expr e _ => e.uses
  | .declare name _ value _ => .declare name.name :: value.uses
  | .ret (some value) _ => value.uses
  | .ret none _ => []

/-- The uses of names in a function. -/
def FunctionDecl.uses (d : FunctionDecl) : List NameUse :=
  d.params.map (fun p ↦ .declare p.name.name) ++ d.body.flatMap Stmt.uses

/-! ### Progress -/

/-- Where lowering has got to: its state, and all that was written. -/
structure Progress where
  /-- The state. -/
  state : LoweringState
  /-- What was written. -/
  output : Output := .empty

namespace Progress

variable {α β : Type}

/-- The progress after a computation. -/
def after (p : Progress) (x : Lower α) : Progress :=
  ⟨(x.run p.state).state, p.output ++ (x.run p.state).output⟩

/-- To return a value is no progress. -/
theorem after_pure (p : Progress) (a : α) : p.after (pure a) = p :=
  congrArg (Progress.mk p.state) p.output.append_empty

/-- Two computations in a row get to where the second one gets from the end of the first. -/
theorem after_bind (p : Progress) (x : Lower α) (f : α → Lower β) :
    p.after (x >>= f) = (p.after x).after (f (x.run p.state).value) :=
  congrArg (Progress.mk _) (Output.append_assoc _ _ _).symm

/-- A computation that writes nothing changes the state only. -/
theorem after_of_output_eq (p : Progress) {x : Lower α} (h : (x.run p.state).output = .empty) :
    p.after x = ⟨(x.run p.state).state, p.output⟩ := by
  rw [after, h, Output.append_empty]

/-- The code of a computation comes behind what was written before. -/
theorem instructions_after (p : Progress) (x : Lower α) :
    (p.after x).output.instructions = p.output.instructions ++ x.code p.state :=
  Output.instructions_append _ _

/-- A computation without code leaves the instructions as they were. -/
theorem instructions_after_of_code_eq_nil (p : Progress) {x : Lower α} (h : x.code p.state = []) :
    (p.after x).output.instructions = p.output.instructions := by
  rw [instructions_after, h, List.append_nil]

/-- An error that was reported stays reported. -/
theorem errors_after_ne_nil {p : Progress} (h : p.output.errors ≠ []) (x : Lower α) :
    (p.after x).output.errors ≠ [] := by
  simp [after, h]

/-- After a report there is an error. -/
theorem errors_after_report_ne_nil (p : Progress) (error : CompileError) :
    (p.after (Lower.report error)).output.errors ≠ [] := by
  simp [after, Lower.report, Lower.run]

end Progress

/-! ### Grounds -/

/-- An instruction that refers to nothing and does not stand for an error. -/
def Instruction.Plain (i : SymbolicInstruction) : Prop :=
  i.constant? = none ∧ i.slot? = none ∧ i ≠ .trap

instance (i : SymbolicInstruction) : Decidable i.Plain := by
  unfold Instruction.Plain
  infer_instance

variable {options : CompilerOptions} {Uses : NameUse → Prop}

/-- The grounds on which an instruction is written. A temporary is read only after it was written, and
a trap stands only where an error was reported. -/
inductive Progress.Grounds (options : CompilerOptions) (Uses : NameUse → Prop) (p : Progress) :
    SymbolicInstruction → Prop
  | plain {i : SymbolicInstruction} (h : i.Plain) : Grounds options Uses p i
  | const (c : Constant) : Grounds options Uses p (.const c)
  | read {name : String} {v : LocalVariable} (hname : Uses (.read name))
      (hv : p.state.frame.find? name = some v) : Grounds options Uses p (.getLocal v.slot)
  | keep {name : String} {v : LocalVariable} (hname : IsTemporary name)
      (hv : p.state.frame.find? name = some v) : Grounds options Uses p (.teeLocal v.slot)
  | reload {name : String} {v : LocalVariable} (hname : IsTemporary name)
      (hv : p.state.frame.find? name = some v) (hkept : .teeLocal v.slot ∈ p.output.instructions) :
      Grounds options Uses p (.getLocal v.slot)
  | allocate : Grounds options Uses p (.call options.allocator 1)
  | call {name : String} {f : Callable} {argc : UInt8} (hname : Uses (.call name))
      (hf : p.state.symbols.registry.functionNamed? name = some f)
      (hargc : argcByte? f.arity = some argc) : Grounds options Uses p (.call f.name argc)
  | construct {id : Fingerprint} {f : Callable} {argc : UInt8}
      (hf : p.state.symbols.registry.constructorOf? id = some f)
      (hargc : argcByte? (constructorArgc f) = some argc) : Grounds options Uses p (.call f.name argc)
  | trap (h : p.output.errors ≠ []) : Grounds options Uses p .trap

/-! ### Actions -/

/-- What lowering may do. -/
inductive Action (options : CompilerOptions) (Uses : NameUse → Prop) : Progress → Progress → Prop
  | line (p : Progress) (line : UInt32) : Action options Uses p (p.after (Lower.setLine line))
  | symbols (p : Progress) {symbols : Symbols} (h : p.state.symbols.Step symbols) :
      Action options Uses p ⟨{ p.state with symbols }, p.output⟩
  | parameter (p : Progress) (name : String) (hname : Uses (.declare name)) (type : Fingerprint)
      (span : Span) :
      Action options Uses p
        ⟨{ p.state with frame := (p.state.frame.declare name type span).2 }, p.output⟩
  | declare (p : Progress) (name : String) (hname : Uses (.declare name))
      (hnew : p.state.frame.find? name = none) (type : Fingerprint) (span : Span) :
      Action options Uses p
        (Progress.after ⟨{ p.state with frame := (p.state.frame.allocate name type span).2 }, p.output⟩
          (Lower.emit (.setLocal p.state.frame.size)))
  | temporaries (p : Progress) :
      Action options Uses p ⟨ConstructionPlan.countState p.state, p.output⟩
  | report (p : Progress) (error : CompileError) :
      Action options Uses p (p.after (Lower.report error))
  | annotate (p : Progress) (node : NodeId) (type : Fingerprint) :
      Action options Uses p (p.after (Lower.annotate node type))
  | write (p : Progress) {i : SymbolicInstruction} (h : p.Grounds options Uses i) :
      Action options Uses p (p.after (Lower.emit i))

/-- Some actions in a row. -/
abbrev Trace (options : CompilerOptions) (Uses : NameUse → Prop) : Progress → Progress → Prop :=
  ReflTransGen (Action options Uses)

/-- An action makes steps. -/
theorem Action.steps {p p' : Progress} (h : Action options Uses p p') :
    p.state.Steps p'.state := by
  cases h with
  | line line => exact .single (.line _ line)
  | symbols h => exact .single (.symbols _ h)
  | parameter name hname type span => exact .single (.declare _ name type span)
  | declare name hname hnew type span =>
    have hdeclare := LoweringState.Step.declare p.state name type span
    rw [Frame.declare, hnew] at hdeclare
    exact .single hdeclare
  | temporaries => exact ConstructionPlan.steps_countState p.state
  | report | annotate | write => exact .refl

/-- Actions in a row make steps. -/
theorem Trace.steps {p p' : Progress} (h : Trace options Uses p p') : p.state.Steps p'.state := by
  induction h with
  | refl => exact .refl
  | tail _ hstep ih => exact ih.trans hstep.steps

/-! ### Actions in a body -/

/-- What lowering may do once the parameters are declared: a variable that is no temporary is new only
if it is stored at the same time. -/
structure BodyAction (options : CompilerOptions) (Uses : NameUse → Prop) (p p' : Progress) :
    Prop where
  action : Action options Uses p p'
  stored : p'.output.instructions = p.output.instructions → ∀ {name : String} {v : LocalVariable},
    p'.state.frame.find? name = some v → IsTemporary name ∨ p.state.frame.find? name = some v

namespace BodyAction

theorem line (p : Progress) (line : UInt32) :
    BodyAction options Uses p (p.after (Lower.setLine line)) :=
  ⟨.line p line, fun _ _ _ hv ↦ .inr hv⟩

theorem symbols (p : Progress) {symbols : Symbols} (h : p.state.symbols.Step symbols) :
    BodyAction options Uses p ⟨{ p.state with symbols }, p.output⟩ :=
  ⟨.symbols p h, fun _ _ _ hv ↦ .inr hv⟩

/-- A declaration writes its store, so that it never stands for nothing written. -/
theorem declare (p : Progress) (name : String) (hname : Uses (.declare name))
    (hnew : p.state.frame.find? name = none) (type : Fingerprint) (span : Span) :
    BodyAction options Uses p
      (Progress.after ⟨{ p.state with frame := (p.state.frame.allocate name type span).2 }, p.output⟩
        (Lower.emit (.setLocal p.state.frame.size))) := by
  refine ⟨.declare p name hname hnew type span, fun heq ↦ ?_⟩
  rw [Progress.instructions_after] at heq
  exact absurd (List.append_right_eq_self.1 heq) (List.cons_ne_nil _ _)

/-- The temporaries are the only variables that are new without a store. -/
theorem temporaries (p : Progress) :
    BodyAction options Uses p ⟨ConstructionPlan.countState p.state, p.output⟩ :=
  ⟨.temporaries p, fun _ _ _ hv ↦ ConstructionPlan.find?_countState hv⟩

theorem report (p : Progress) (error : CompileError) :
    BodyAction options Uses p (p.after (Lower.report error)) :=
  ⟨.report p error, fun _ _ _ hv ↦ .inr hv⟩

theorem annotate (p : Progress) (node : NodeId) (type : Fingerprint) :
    BodyAction options Uses p (p.after (Lower.annotate node type)) :=
  ⟨.annotate p node type, fun _ _ _ hv ↦ .inr hv⟩

theorem write (p : Progress) {i : SymbolicInstruction} (h : p.Grounds options Uses i) :
    BodyAction options Uses p (p.after (Lower.emit i)) :=
  ⟨.write p h, fun _ _ _ hv ↦ .inr hv⟩

end BodyAction

/-- Some actions in a row, once the parameters are declared. -/
abbrev BodyTrace (options : CompilerOptions) (Uses : NameUse → Prop) : Progress → Progress → Prop :=
  ReflTransGen (BodyAction options Uses)

/-- What is done in a body is done. -/
theorem BodyTrace.trace {p p' : Progress} (h : BodyTrace options Uses p p') :
    Trace options Uses p p' :=
  ReflTransGen.mono (fun _ _ ↦ BodyAction.action) _ _ h

/-! ### Computations -/

/-- A computation that is a row of actions where it starts. -/
def Progress.Traces {α : Type} (options : CompilerOptions) (Uses : NameUse → Prop) (p : Progress)
    (x : Lower α) : Prop :=
  BodyTrace options Uses p (p.after x)

namespace Progress.Traces

variable {α β : Type} {p : Progress}

/-- A row of actions makes steps. -/
theorem steps {x : Lower α} (h : p.Traces options Uses x) : p.state.Steps (x.run p.state).state :=
  (BodyTrace.trace h).steps

/-- Rows of actions compose if the second one starts where the first one ends. -/
theorem bind {x : Lower α} {f : α → Lower β} (hx : p.Traces options Uses x)
    (hf : (p.after x).Traces options Uses (f (x.run p.state).value)) :
    p.Traces options Uses (x >>= f) := by
  rw [Traces, after_bind]
  exact hx.trans hf

theorem pure (a : α) : p.Traces options Uses (pure a) := by
  rw [Traces, after_pure]

/-- An instruction is written on its grounds. -/
theorem emit {i : SymbolicInstruction} (h : p.Grounds options Uses i) :
    p.Traces options Uses (Lower.emit i) :=
  .single (.write p h)

/-- A run of no instructions needs no grounds. -/
theorem emitAll_nil : p.Traces options Uses (Lower.emitAll []) := by
  have h : p.after (Lower.emitAll []) = p := congrArg (Progress.mk p.state) p.output.append_empty
  rw [Traces, h]

/-- The instructions of a run are written one by one. -/
theorem emitAll_cons {i : SymbolicInstruction} {is : List SymbolicInstruction}
    (hi : p.Grounds options Uses i)
    (his : (p.after (Lower.emit i)).Traces options Uses (Lower.emitAll is)) :
    p.Traces options Uses (Lower.emitAll (i :: is)) :=
  bind (f := fun _ ↦ Lower.emitAll is) (emit hi) his

/-- A computation for each element of a list, where each one keeps a condition that the next one
needs. -/
theorem forM {I : Progress → Prop} {l : List α} {f : α → Lower Unit}
    (h : ∀ q, I q → ∀ a ∈ l, q.Traces options Uses (f a) ∧ I (q.after (f a))) (hp : I p) :
    p.Traces options Uses (l.forM f) := by
  induction l generalizing p with
  | nil => exact pure ()
  | cons a l ih =>
    obtain ⟨hfirst, hnext⟩ := h p hp a List.mem_cons_self
    refine bind (f := fun _ ↦ l.forM f) hfirst ?_
    exact ih (fun q hq b hb ↦ h q hq b (List.mem_cons_of_mem a hb)) hnext

/-- After a computation that cannot fail, an attempt goes on with its value. -/
theorem lift_bind {x : Lower α} {f : α → Attempt β} (hx : p.Traces options Uses x)
    (hf : (p.after x).Traces options Uses (f (x.run p.state).value).run) :
    p.Traces options Uses (liftM x >>= f : Attempt β).run := by
  rw [Attempt.lift_bind_run]
  exact bind hx hf

end Progress.Traces

/-- A computation that is a row of actions wherever it starts. -/
def Lower.Traced {α : Type} (options : CompilerOptions) (Uses : NameUse → Prop) (x : Lower α) : Prop :=
  ∀ p : Progress, p.Traces options Uses x

namespace Lower.Traced

variable {α β : Type}

theorem pure (a : α) : Traced options Uses (pure a) :=
  fun _ ↦ .pure a

/-- Two computations in a row are a row of actions, whatever value the first one has. -/
theorem bind {x : Lower α} {f : α → Lower β} (hx : x.Traced options Uses)
    (hf : ∀ a, (f a).Traced options Uses) : (x >>= f).Traced options Uses :=
  fun p ↦ (hx p).bind (hf _ _)

/-- A computation that only looks at the state. -/
theorem of_reads {x : Lower α} (hstate : ∀ s, (x.run s).state = s)
    (houtput : ∀ s, (x.run s).output = .empty) : x.Traced options Uses := by
  intro p
  rw [Progress.Traces, p.after_of_output_eq (houtput p.state), hstate]

theorem get : Lower.get.Traced options Uses :=
  .of_reads (fun _ ↦ rfl) fun _ ↦ rfl

theorem registry : Lower.registry.Traced options Uses :=
  .of_reads (fun _ ↦ rfl) fun _ ↦ rfl

theorem width : Lower.width.Traced options Uses :=
  .of_reads (fun _ ↦ rfl) fun _ ↦ rfl

theorem setLine (line : UInt32) : (Lower.setLine line).Traced options Uses :=
  fun p ↦ .single (.line p line)

theorem const (c : Constant) : (Lower.emit (.const c)).Traced options Uses :=
  fun _ ↦ .emit (.const c)

theorem plain {i : SymbolicInstruction} (h : i.Plain) : (Lower.emit i).Traced options Uses :=
  fun _ ↦ .emit (.plain h)

/-- A run of instructions that refer to nothing needs no grounds. -/
theorem plainAll {is : List SymbolicInstruction} (h : ∀ i ∈ is, i.Plain) :
    (Lower.emitAll is).Traced options Uses := by
  induction is with
  | nil => exact fun _ ↦ .emitAll_nil
  | cons i is ih =>
    have htail := ih fun j hj ↦ h j (List.mem_cons_of_mem i hj)
    exact fun _ ↦ .emitAll_cons (.plain (h i List.mem_cons_self)) (htail _)

theorem report (error : CompileError) : (Lower.report error).Traced options Uses :=
  fun p ↦ .single (.report p error)

theorem annotate (node : NodeId) (type : Fingerprint) :
    (Lower.annotate node type).Traced options Uses :=
  fun p ↦ .single (.annotate p node type)

/-- A trap has its grounds in the report that it comes with. -/
theorem trap (error : CompileError) : (Lower.trap error).Traced options Uses :=
  fun p ↦ (report error p).bind (.emit (.trap (p.errors_after_report_ne_nil error)))

theorem discard {x : Lower α} (h : x.Traced options Uses) : (discard x).Traced options Uses :=
  .bind h fun _ ↦ .pure ()

/-- A computation for each element of a list, where none of them depends on the others. -/
theorem forM {l : List α} {f : α → Lower Unit} (h : ∀ a ∈ l, (f a).Traced options Uses) :
    (l.forM f).Traced options Uses :=
  fun _ ↦ .forM (I := fun _ ↦ True) (fun q _ a ha ↦ ⟨h a ha q, trivial⟩) trivial

/-- Steps of the symbols are actions. -/
theorem trace_symbols {p : Progress} {symbols : Symbols} (h : p.state.symbols.Steps symbols) :
    BodyTrace options Uses p ⟨{ p.state with symbols }, p.output⟩ := by
  induction h with
  | refl => exact .refl
  | tail _ hstep ih => exact ih.tail (.symbols ⟨{ p.state with symbols := _ }, p.output⟩ hstep)

/-- A computation that writes nothing and at most makes steps of the symbols. -/
theorem of_quiet {x : Attempt α} (h : x.Quiet) : Lower.Traced options Uses x.run := by
  intro p
  obtain ⟨symbols, hsteps, hstate, houtput⟩ := h p.state
  rw [Progress.Traces, p.after_of_output_eq houtput, hstate]
  exact trace_symbols hsteps

end Lower.Traced

/-- A computation that may fail and is a row of actions. -/
def Attempt.Traced {α : Type} (options : CompilerOptions) (Uses : NameUse → Prop) (x : Attempt α) :
    Prop :=
  Lower.Traced options Uses x.run

namespace Attempt.Traced

variable {α β : Type}

theorem pure (a : α) : Traced options Uses (pure a : Attempt α) :=
  Lower.Traced.pure _

theorem throw (error : CompileError) : Traced options Uses (throw error : Attempt α) :=
  Lower.Traced.pure _

theorem lift {x : Lower α} (h : x.Traced options Uses) : Traced options Uses (liftM x : Attempt α) :=
  Lower.Traced.bind h fun _ ↦ .pure _

/-- Two attempts in a row. If the first one fails, the second one does nothing. -/
theorem bind {x : Attempt α} {f : α → Attempt β} (hx : x.Traced options Uses)
    (hf : ∀ a, (f a).Traced options Uses) : Traced options Uses (x >>= f) := by
  refine Lower.Traced.bind hx fun r ↦ ?_
  cases r with
  | ok a => exact hf a
  | error error => exact .pure _

end Attempt.Traced

end StackLowering
