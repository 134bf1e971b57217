import StackLowering.Lowering.Basic
import StackLowering.Lowering.Conversion

/-!
# Operands

An operand is an expression as the code that surrounds it sees it: something that can be lowered for
its own sake, which tells the type of the value that it leaves on the stack, or against a type that is
expected in its place. Lowering against a type ends by a conversion if the types differ.

Operands are put together from operands, so that what holds of an expression follows from what holds of
its parts. Only two operands have two ways of their own: an integer literal takes on a number type that
has room for it, and parentheses are looked through where a type is expected. Everything else is
lowered in one way and then converted (`Operand.ofInference`).

An operand that fails says so and leaves it to its surroundings to go on. Code that needs a value in
its place asks for one with a trap in reserve (`Operand.checkOrTrap`, `Operand.inferOrTrap`); this is
where the error of an operand is reported, and after it nothing has to know that something failed.

Lowering goes to the line of an operand and does not come back. Only an integer literal that takes on a
type, and parentheses that are looked through, do not go to a line of their own.
-/

namespace StackLowering

/-- Where a value comes from. -/
inductive ValueSource where
  /-- It was computed. -/
  | temporary
  /-- It was read from a local variable. -/
  | variable
deriving DecidableEq, Repr

/-- What is known about a lowered value. -/
structure ValueInfo where
  /-- Its type. -/
  type : Fingerprint
  /-- Where it comes from. -/
  source : ValueSource
deriving DecidableEq, Repr

namespace ValueInfo

/-- A computed value. -/
def computed (type : Fingerprint) : ValueInfo := ⟨type, .temporary⟩

/-- The value of a local variable. -/
def ofVariable (type : Fingerprint) : ValueInfo := ⟨type, .variable⟩

/-- Whether the value has a place that could be assigned to. -/
def hasPlace (info : ValueInfo) : Bool := info.source == .variable

end ValueInfo

/-- The type of no value. -/
def voidType : Fingerprint := Primitive.void.fingerprint

/-- The type of addresses. -/
def addressType : Fingerprint := Primitive.uintptr.fingerprint

/-- An expression that can be lowered in the two ways in which code asks for values. -/
structure Operand where
  /-- Lowers the expression for its own sake. -/
  infer : Attempt ValueInfo
  /-- Lowers the expression where a value of a given type is expected. -/
  check : Fingerprint → Attempt ValueInfo

namespace Operand

/-- Lowers against a type. If that fails, the error is reported, and a trap stands for the value. -/
def checkOrTrap (o : Operand) (expected : Fingerprint) : Lower ValueInfo := do
  match ← (o.check expected).run with
  | .ok info => return info
  | .error error =>
    Lower.trap error
    return .computed expected

/-- Lowers for its own sake. If that fails, the error is reported, and a trap stands for the
value. -/
def inferOrTrap (o : Operand) : Lower (Option ValueInfo) := do
  match ← o.infer.run with
  | .ok info => return some info
  | .error error =>
    Lower.trap error
    return none

/-- Lowers for its own sake and drops the value, if there is one. -/
def evaluateAndDrop (o : Operand) : Lower Unit := do
  match ← o.inferOrTrap with
  | some info => if info.type = voidType then return () else Lower.emit .pop
  | none => return ()

/-- Makes the value on top of the stack one of the expected type. -/
def convert (span : Span) (expected : Fingerprint) (info : ValueInfo) : Attempt ValueInfo := do
  if info.type = expected then
    return info
  else
    let registry ← Lower.registry
    match Conversion.find? registry info.type expected with
    | some conversion =>
      Lower.emitAll (conversion.code registry.width)
      return .computed expected
    | none =>
      throw (.conversionFailure (registry.typeName info.type) (registry.typeName expected) span)

/-- The operand at a place that is lowered in one way only and then converted. -/
def ofInference (span : Span) (x : Attempt ValueInfo) : Operand :=
  let infer : Attempt ValueInfo := do
    Lower.setLine span.line
    x
  { infer, check := fun expected ↦ infer >>= convert span expected }

/-! ### Literals and variables -/

end Operand

namespace Literal

/-- The constant of a literal that nothing is known about. -/
def constant : Literal → Constant
  | int value =>
    if (IntRange.signed 32).contains value.toInt then .i32 value.toInt32 else .i64 value
  | float bits => .f32 bits
  | double bits => .f64 bits
  | bool value => .ofBool value

/-- The type of a literal that nothing is known about: an integer is an `int` if it fits, and an
`int64` if not. -/
def type : Literal → Fingerprint
  | int value =>
    if (IntRange.signed 32).contains value.toInt then Primitive.int32.fingerprint
    else Primitive.int64.fingerprint
  | float _ => Primitive.float.fingerprint
  | double _ => Primitive.double.fingerprint
  | bool _ => Primitive.bool.fingerprint

/-- The constant of an integer literal where a number type is expected that has room for it. A
floating-point type always has room. -/
def constantAs? (pointer : Width) (expected : Fingerprint) : Literal → Option Constant
  | int value => do
    let kind ← Primitive.ofFingerprint? expected
    let layout ← kind.layout pointer
    let fits := kind.isFloat || (kind.range? pointer).any (·.contains value.toInt)
    if fits then some (.ofInt value layout.category) else none
  | _ => none

end Literal

namespace Operand

/-- A literal. An integer literal takes on the number type that is expected of it, if that type has
room for it; such a literal stays on the line of what surrounds it. -/
def literal (value : Literal) (span : Span) : Operand :=
  let plain := ofInference span do
    Lower.emit (.const value.constant)
    return .computed value.type
  { plain with
    check := fun expected ↦ do
      match value.constantAs? (← Lower.width) expected with
      | some constant =>
        Lower.emit (.const constant)
        return .computed expected
      | none => plain.check expected }

/-- A variable. -/
def var (name : String) (span : Span) : Operand :=
  ofInference span do
    match (← Lower.get).frame.find? name with
    | some v =>
      Lower.emit (.getLocal v.slot)
      return .ofVariable v.type
    | none => throw (.unknownVariable name span)

/-- An operand in parentheses: the same operand, found on another line. -/
def paren (inner : Operand) (span : Span) : Operand where
  infer := do
    Lower.setLine span.line
    inner.infer
  check := inner.check

end Operand

end StackLowering
