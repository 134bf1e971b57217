import StackLowering.Machine.Instruction
import StackLowering.Symbols.Registry

/-!
# Conversions

Which values can take the place of others, and the code that converts them. A type converts to itself;
numbers convert to numbers, integers to truth values and back; an object converts to its address and
back, which takes no code.

Integers of one and two bytes are held in a 32-bit cell and are kept within their range: a conversion
to such a type ends by extending the sign or by masking, unless every value of the other type is in
range anyway.

The code goes by the categories of the two types and then by the range of the target
(`Primitive.conversionCode`). A change of category reads an integer by the sign of the type that it
comes from; from a floating-point number it goes by the sign of the type that it leads to
(`Primitive.convertsSigned`). To a truth value there is only the test for zero, and from one there is
nothing to be done but perhaps a change of category, since 0 and 1 are in every range.

Conversions are looked up in the registry as it is, since a type may be a class or not; whether that
class is laid out plays no part.
-/

namespace StackLowering

/-- How a value of one type becomes a value of another. -/
inductive Conversion where
  /-- The types are the same. -/
  | identity
  /-- A number or truth value becomes another one. -/
  | primitive (source target : Primitive)
  /-- An object and its address are the same cell. -/
  | reinterpret
deriving DecidableEq, Repr

namespace Primitive

/-- Whether values of one primitive type convert to another: between numbers, and between integers
and `bool`. -/
def convertsTo (source target : Primitive) : Bool :=
  if source.isInteger then target.isInteger || target.isFloat || target == .bool
  else if source.isFloat then target.isInteger || target.isFloat
  else source == .bool && target.isInteger

/-- The instruction that brings a 32-bit cell into the range of an integer type of one or two
bytes. -/
def normalize : Primitive → List SymbolicInstruction
  | int8 => [.extend8S]
  | uint8 => [.mask8]
  | int16 => [.extend16S]
  | uint16 => [.mask16]
  | _ => []

/-- Whether every value of one type is in the range of another; floating-point types have no
range. -/
def rangeWithin (pointer : Width) (source target : Primitive) : Bool :=
  match source.valueRange? pointer, target.valueRange? pointer with
  | some r, some s => r.within s
  | _, _ => false

/-- The test that turns a value of a category into a truth value. -/
def truthTest : Category → SymbolicInstruction
  | .i64 => .nonZero .w64
  | _ => .nonZero .w32

/-- Whether a change of category treats the integer as signed: the one that it starts from, or the
one that it leads to if it starts from a floating-point number. -/
def convertsSigned (source target : Primitive) : Bool :=
  if source.isFloat then target.isSigned else source.isSigned

/-- The code that converts a value of one primitive type to another. -/
def conversionCode (pointer : Width) (source target : Primitive) : List SymbolicInstruction :=
  match source.layout pointer, target.layout pointer with
  | some here, some there =>
    if target = .bool then [truthTest here.category]
    else
      (if here.category = there.category then []
        else [.convert here.category there.category (convertsSigned source target)]) ++
      (if rangeWithin pointer source target then [] else target.normalize)
  | _, _ => []

end Primitive

namespace Conversion

/-- The conversion between two primitive types. A primitive type other than `void` converts to
itself. -/
def primitive? (source target : Fingerprint) : Option Conversion := do
  let p ← Primitive.ofFingerprint? source
  let q ← Primitive.ofFingerprint? target
  if p = q ∧ p ≠ .void then some identity
  else if p.convertsTo q then some (primitive p q)
  else none

/-- Whether a type is the integer of pointer width. -/
def isAddress (type : Fingerprint) : Bool :=
  Primitive.ofFingerprint? type == some .uintptr

/-- The conversion between an object and its address. -/
def handle? (r : Registry) (source target : Fingerprint) : Option Conversion :=
  let isObject (type : Fingerprint) : Bool := (r.class? type).isSome
  if (isObject source && isAddress target) || (isAddress source && isObject target) then
    some reinterpret
  else none

/-- The conversion between any two types. -/
def find? (r : Registry) (source target : Fingerprint) : Option Conversion :=
  if source = target then some identity
  else (primitive? source target).or (handle? r source target)

/-- Whether a conversion takes no code. -/
def isFree : Conversion → Bool
  | identity | reinterpret => true
  | primitive _ _ => false

/-- The code of a conversion. -/
def code (pointer : Width) : Conversion → List SymbolicInstruction
  | primitive source target => source.conversionCode pointer target
  | identity | reinterpret => []

theorem code_eq_nil_of_isFree {c : Conversion} (h : c.isFree = true) (pointer : Width) :
    c.code pointer = [] := by
  cases c <;> simp_all [isFree, code]

end Conversion

end StackLowering
