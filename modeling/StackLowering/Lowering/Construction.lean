import StackLowering.Lowering.Arguments

/-!
# Constructions

What `new` does. An array `new Array<T>(n)` and a string `new String(n)` are buffers: a header of four
bytes that holds the number of elements, and after it the elements. Every other construction makes an
object of a class, or of the instance of a template, and calls its constructor if it has one. The value
of a construction is the address of what it made.

A construction is first planned, which settles everything that can fail, and then lowered. A
construction that cannot be planned leaves a trap.

## What is decided by the way a construction is written

Whether it is a buffer: an array needs one type argument and one argument, a string no type arguments
and one argument. This is asked before the name is looked up, so that a class of that name is not seen
(`Construction.classify`). Written in any other way, `Array` and `String` are names like others.

## What is not checked

The type arguments of a class are passed over, and so are the arguments of a class without a
constructor. The size of a buffer is computed with the width of pointers and may wrap around; the
header holds the low 32 bits of the number of elements. All buffers of a function share two
temporaries. Each of them writes these after its count was run, and reads them before anything else is
(`ConstructionPlan.lowerBuffer`).
-/

namespace StackLowering

/-! ### Names and sizes -/

/-- The name of the array constructor. -/
def arrayName : String := "Array"

/-- The name of the string constructor. -/
def stringName : String := "String"

/-- The size of the header of a buffer in bytes. -/
def headerSize : UInt32 := 4

/-- The size of an element of a string in bytes. -/
def codeUnitSize : UInt32 := 2

/-- The temporary for the number of elements of a buffer. -/
def countTemporary : String := ".newsize"

/-- The temporary for the address of a buffer. -/
def addressTemporary : String := ".newptr"

/-! ### Planning -/

/-- The elements of a buffer. -/
inductive BufferElement where
  /-- Elements of a written type. -/
  | declared (type : TypeExpr)
  /-- The code units of a string. -/
  | codeUnit

/-- What a construction makes, going by how it is written. -/
inductive Construction where
  /-- A buffer with a number of elements. -/
  | buffer (element : BufferElement) (count : Operand)
  /-- An object of a class. -/
  | object (id : Fingerprint)
  /-- An object of an instance of a template. -/
  | template (id : Fingerprint) (typeArgs : List TypeExpr)
  /-- Nothing that can be made. -/
  | unsupported

/-- The element and the count of a construction that is written like that of a buffer. -/
def bufferShape? (name : String) (typeArgs : Option (List TypeExpr))
    (args : Option (List Operand)) : Option (BufferElement × Operand) :=
  match typeArgs, args with
  | some [element], some [count] =>
    if name = arrayName then some (.declared element, count) else none
  | some [], some [count] => if name = stringName then some (.codeUnit, count) else none
  | none, some [count] => if name = stringName then some (.codeUnit, count) else none
  | _, _ => none

/-- What a construction with a given callee makes. The two buffers come before every type that is
registered under their names. -/
def Construction.classify (r : Registry) (f : Frame) (callee : Option String)
    (typeArgs : Option (List TypeExpr)) (args : Option (List Operand)) : Construction :=
  match callee with
  | none => unsupported
  | some name =>
    match bufferShape? name typeArgs args with
    | some (element, count) => buffer element count
    | none =>
      match Meaning.ofName r f name with
      | .object id => object id
      | .template id => template id (typeArgs.getD [])
      | .variable _ | .primitive _ | .function _ | .unresolved => unsupported

/-- A construction that nothing stands in the way of. -/
inductive ConstructionPlan where
  /-- A buffer with elements of a given size. -/
  | buffer (elementSize : UInt32) (count : Operand)
  /-- An object of a given size, and its constructor. -/
  | object (size : UInt32) (constructor? : Option Callable)

/-- The number of stack cells that a constructor takes: the object and one for each parameter. -/
def constructorArgc (c : Callable) : Nat := c.arity + 1

/-- The number of arguments as the byte that a call holds, if it fits. -/
def argcByte? (argc : Nat) : Option UInt8 :=
  if argc < 256 then some argc.toUInt8 else none

namespace ConstructionPlan

/-- The size of an element; the type of a written element has to have a layout. -/
def elementSize : BufferElement → Attempt UInt32
  | .codeUnit => return codeUnitSize
  | .declared type => do
    let id ← Attempt.resolve type.resolve
    let registry ← Lower.registry
    match registry.layout? id with
    | some layout => return layout.size
    | none => throw (.unsizedType (registry.typeName id) type.span)

/-- The plan of an object: its class is laid out, and its constructor may not have more parameters
than a call can pass. -/
def ofClass (id : Fingerprint) (span : Span) : Attempt ConstructionPlan := do
  let size ← Attempt.layOutClass id span
  match (← Lower.registry).constructorOf? id with
  | none => return object size none
  | some c =>
    match argcByte? (constructorArgc c) with
    | some _ => return object size (some c)
    | none => throw (.internal s!"constructor '{c.name}' has too many parameters")

/-- Plans a construction. -/
def ofConstruction (span : Span) : Construction → Attempt ConstructionPlan
  | .buffer element count => do return buffer (← elementSize element) count
  | .object id => ofClass id span
  | .template id typeArgs => do
    let args ← Attempt.resolve (resolveTypes typeArgs)
    let instanceId ← Attempt.resolve (Resolution.instantiate id args span)
    ofClass instanceId span
  | .unsupported => throw (.unsupportedConstruction span)

/-! ### Lowering -/

/-- Brings a count of pointer width to the width of a header. -/
def narrowCount : Width → List SymbolicInstruction
  | .w32 => []
  | .w64 => [.convert .i64 .i32 false]

/-- Allocates a buffer and writes its header. The count is kept while the size is computed from it,
and the address while the header is written. -/
def lowerBuffer (options : CompilerOptions) (elementSize : UInt32) (count : Operand) :
    Lower Unit := do
  let width ← Lower.width
  let countSlot ← Lower.temporary countTemporary addressType
  let addressSlot ← Lower.temporary addressTemporary addressType
  Lower.emit (.const (.ofPointer headerSize.toUInt64 width))
  Lower.emit (.const (.ofPointer elementSize.toUInt64 width))
  discard (count.checkOrTrap addressType)
  Lower.emitAll [.teeLocal countSlot, .mul width, .add width, .call options.allocator 1,
    .teeLocal addressSlot, .getLocal countSlot]
  Lower.emitAll (narrowCount width)
  Lower.emitAll [.store .i32 0 headerSize.toUInt8, .getLocal addressSlot]

/-- Allocates an object and calls its constructor. Without a constructor the arguments are
ignored. -/
def lowerObject (options : CompilerOptions) (size : UInt32) (constructor? : Option Callable)
    (args : List Operand) (span : Span) : Lower Unit := do
  Lower.emit (.const (.ofPointer size.toUInt64 (← Lower.width)))
  Lower.emit (.call options.allocator 1)
  match constructor? with
  | none => return ()
  | some c =>
    Lower.bindArguments options c.params args span
    Lower.emit (.call c.name (constructorArgc c).toUInt8)

/-- Lowers a planned construction. -/
def lower (options : CompilerOptions) (args : List Operand) (span : Span) :
    ConstructionPlan → Lower Unit
  | buffer elementSize count => lowerBuffer options elementSize count
  | object size constructor? => lowerObject options size constructor? args span

end ConstructionPlan

/-- A construction. It always has the type of an address, also if it fails. -/
def Operand.construct (options : CompilerOptions) (node : NodeId) (callee : Option String)
    (typeArgs : Option (List TypeExpr)) (args : Option (List Operand)) (span : Span) : Operand :=
  .ofInference span do
    Lower.annotate node addressType
    let state ← Lower.get
    let shape := Construction.classify state.symbols.registry state.frame callee typeArgs args
    let plan : Except CompileError ConstructionPlan ←
      ((ConstructionPlan.ofConstruction span shape).run : Lower _)
    match plan with
    | .ok plan => plan.lower options (args.getD []) span
    | .error error => Lower.trap error
    return .computed addressType

end StackLowering
