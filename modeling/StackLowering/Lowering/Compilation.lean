import StackLowering.Lowering.Function

/-!
# Compilation of scripts

A script is compiled in two passes. The first registers the signatures of all functions, so that the
bodies can call every function of the script; a function whose signature fails is reported and left
out. The second lowers the bodies in order and assembles them into one program with a common pool.

Both passes work on one registry, which grows: the types of a signature may create instances, and so
may a body. The remembered instances are those of this compilation, and none are remembered at its
start. Frames and lines start anew in each function, and what a function writes is kept apart until it
is assembled, so that errors and findings of the whole script are those of its functions in order
(`Script.compile`).

Assembly comes after all lowering. It needs no registry, and lowering needs no pool, so the order of
the two makes no difference to what is compiled; a function has its places in the pool from its own
turn on.
-/

namespace StackLowering

/-! ### Signatures -/

/-- The signature of a function, which becomes registered. Parameter types are resolved in order,
then the type of the result. -/
def FunctionDecl.signature (d : FunctionDecl) : Resolution Callable := do
  let types ← resolveTypes (d.params.map (·.type))
  let returns ←
    match d.returns with
    | some type => type.resolve
    | none => pure voidType
  let params := (d.params.zip types).map fun (p, type) ↦ { name := p.name.name, type : Param }
  let f := Callable.function d.name.name params returns
  let s ← get
  match s.registry.registerFunction f with
  | .error error => throw (.registration error d.name.span)
  | .ok registry =>
    set { s with registry }
    return f

/-- The functions of a script whose signatures are registered, and the errors of the others. -/
def declareFunctions : Script → Symbols →
    (List (FunctionDecl × Callable) × List CompileError) × Symbols
  | [], s => (([], []), s)
  | d :: ds, s =>
    match d.signature.run.run s with
    | (.ok f, s) =>
      let ((declared, errors), s) := declareFunctions ds s
      (((d, f) :: declared, errors), s)
    | (.error error, s) =>
      let ((declared, errors), s) := declareFunctions ds s
      ((declared, error :: errors), s)

/-! ### Bodies -/

/-- Lowers functions one after the other. -/
def lowerFunctions (options : CompilerOptions) : List (FunctionDecl × Callable) → LoweringState →
    List LoweredFunction × LoweringState
  | [], s => ([], s)
  | (d, f) :: rest, s =>
    let (lowered, s) := f.lower options d.body d.span s
    let (others, s) := lowerFunctions options rest s
    (lowered :: others, s)

/-- Assembles functions one after the other into one pool. -/
def assembleFunctions : List LoweredFunction → ConstantPool →
    List CompiledFunction × ConstantPool
  | [], pool => ([], pool)
  | f :: rest, pool =>
    let (compiled, pool) := f.assemble pool
    let (others, pool) := assembleFunctions rest pool
    (compiled :: others, pool)

/-- A compiled script. -/
structure Compilation where
  /-- The functions of the script, without those whose signature failed. -/
  functions : List CompiledFunction
  /-- The constants and symbols of all functions. -/
  pool : ConstantPool
  /-- The errors, those of the signatures first. -/
  errors : List CompileError
  /-- What was learnt about constructions. -/
  annotations : Annotations
  /-- The registry after the compilation. -/
  registry : Registry

namespace Compilation

/-- Whether nothing was reported. -/
def isSuccess (c : Compilation) : Bool := c.errors.isEmpty

/-- The first function with the given name. -/
def function? (c : Compilation) (name : String) : Option CompiledFunction :=
  c.functions.find? (·.name == name)

end Compilation

/-- Compiles a script against the types and functions of a registry. -/
def Script.compile (options : CompilerOptions) (registry : Registry) (script : Script) :
    Compilation :=
  let ((declared, signatureErrors), symbols) := declareFunctions script { registry }
  let (lowered, state) := lowerFunctions options declared { symbols }
  let (functions, pool) := assembleFunctions lowered .empty
  { functions, pool
    errors := signatureErrors ++ lowered.flatMap (·.output.errors)
    annotations := ⟨lowered.flatMap (·.output.findings)⟩
    registry := state.symbols.registry }

end StackLowering
