import StackLowering.Lowering.Expr
import StackLowering.Machine.Assembler

/-!
# Statements and functions

A function body is lowered statement by statement into a fresh frame, in which the parameters are
declared before anything else. A parameter whose name is taken gets no slot. It is reported, but the
parameters behind it then lie one slot lower than the arguments that a caller passes for them. If all
names differ, the first slots are those of the parameters in order.

A body that does not end in a return gets an ending: it returns if the function has no result, and traps
if it should have one. Only the last statement is looked at, and no statement contains others, so that
this is the only place where a function can be left without a return.
-/

namespace StackLowering

namespace Lower

/-- Declares a parameter; a name that is taken is reported. -/
def declareParam (span : Span) (param : Param) : Lower Unit := do
  match ← (Attempt.declare param.name param.type span).run with
  | .ok _ => return ()
  | .error error => report error

/-- Stores the value on top of the stack in a new variable. A value of no type is trapped; the value
for a name that is taken is dropped. -/
def storeVariable (name : Ident) (span : Span) (type : Fingerprint) : Lower Unit := do
  if type = voidType then
    trap (.unsizedType ((← registry).typeName type) span)
  else
    match ← (Attempt.declare name.name type name.span).run with
    | .ok slot => emit (.setLocal slot)
    | .error error =>
      report error
      emit .pop

/-- Lowers a variable declaration, with a written type or without. -/
def declareVariable (name : Ident) (type : Option TypeExpr) (value : Operand) (span : Span) :
    Lower Unit := do
  match type with
  | none =>
    match ← value.inferOrTrap with
    | some info => storeVariable name span info.type
    | none => return ()
  | some written =>
    match ← (Attempt.resolve written.resolve).run with
    | .error error => trap error
    | .ok expected =>
      let info ← value.checkOrTrap expected
      storeVariable name span info.type

/-- Ends the function: with the value on top of the stack, or without one if there is no result. -/
def finish (returns : Fingerprint) : Lower Unit :=
  emit (if returns = voidType then .retVoid else .ret)

/-- Leaves the result of a return on the stack. A return without a value is trapped in a function that
has a result. -/
def pushResult (returns : Fingerprint) (value : Option Operand) (span : Span) : Lower Unit :=
  match value with
  | some value => discard (value.checkOrTrap returns)
  | none => do
    if returns = voidType then return ()
    let registry ← registry
    trap (.conversionFailure (registry.typeName voidType) (registry.typeName returns) span)

/-- Lowers a return. -/
def returnValue (returns : Fingerprint) (value : Option Operand) (span : Span) : Lower Unit := do
  pushResult returns value span
  finish returns

end Lower

/-- Lowers a statement of a function with the given result type. -/
def Stmt.lower (options : CompilerOptions) (returns : Fingerprint) (stmt : Stmt) : Lower Unit := do
  Lower.setLine stmt.span.line
  match stmt with
  | .expr e _ => (e.operand options).evaluateAndDrop
  | .declare name type value span =>
    Lower.declareVariable name type (value.operand options) span
  | .ret value span => Lower.returnValue returns (value.map (Expr.operand options)) span

/-- Whether a body ends in a return. -/
def endsInReturn (body : List Stmt) : Bool :=
  match body.getLast? with
  | some (.ret _ _) => true
  | _ => false

/-- Lowers the body of a function, whose parameters are placed at `span`. -/
def Callable.lowerBody (options : CompilerOptions) (f : Callable) (body : List Stmt) (span : Span) :
    Lower Unit := do
  Lower.modify fun s ↦ { s with frame := .empty, line := 1 }
  f.params.forM (Lower.declareParam span)
  body.forM (Stmt.lower options f.returns)
  if endsInReturn body then return ()
  else Lower.emit (if f.returns = voidType then .retVoid else .trap)

/-- A lowered function. -/
structure LoweredFunction where
  /-- Its name. -/
  name : String
  /-- The number of its parameters. -/
  paramCount : Nat
  /-- The types of its slots. -/
  locals : Array Fingerprint
  /-- What its lowering wrote. -/
  output : Output
deriving DecidableEq, Repr

/-- Lowers a function and keeps the state for the next one. -/
def Callable.lower (options : CompilerOptions) (f : Callable) (body : List Stmt) (span : Span)
    (s : LoweringState) : LoweredFunction × LoweringState :=
  let outcome := (f.lowerBody options body span).run s
  ({ name := f.name
     paramCount := f.arity
     locals := outcome.state.frame.slots
     output := outcome.output }, outcome.state)

/-- A compiled function. -/
structure CompiledFunction where
  /-- Its name. -/
  name : String
  /-- Its code. -/
  chunk : Chunk
  /-- The number of its parameters. -/
  paramCount : Nat
  /-- The types of its slots. -/
  locals : Array Fingerprint
deriving DecidableEq, Repr

/-- Assembles a lowered function; its constants go into the pool. -/
def LoweredFunction.assemble (f : LoweredFunction) (pool : ConstantPool) :
    CompiledFunction × ConstantPool :=
  let a := (Assembler.start pool).pushAll f.output.code
  ({ name := f.name, chunk := a.chunk, paramCount := f.paramCount, locals := f.locals }, a.pool)

end StackLowering
