import StackLowering.Hash.Fingerprint
import StackLowering.Types.Layout

/-!
# Primitive types

The thirteen types that every program starts with: their names, identities, layouts and integer ranges.
`uintptr` is the integer of pointer width; `void` has no layout.

The identities are tabulated. They are the fingerprints of the names
(`Primitive.fingerprint_eq_ofTypeName`), so that a primitive type is found by its name like every other
type; and they are different (`Primitive.fingerprint_injective`), so that a primitive type can be told
by its identity alone.

A truth value is no integer, but it is one of two numbers. `Primitive.range?` leaves it out, which is
what an integer literal goes by, and `Primitive.valueRange?` has it, which is what conversions go by.
-/

namespace StackLowering

/-- A built-in type. -/
inductive Primitive where
  | void
  | bool
  | int8
  | int16
  | int32
  | int64
  | uint8
  | uint16
  | uint32
  | uint64
  | float
  | double
  | uintptr
deriving DecidableEq, Repr

/-- The integers from `lo` to `hi`, ends included. -/
structure IntRange where
  /-- Least member. -/
  lo : Int
  /-- Greatest member. -/
  hi : Int
deriving DecidableEq, Repr

namespace IntRange

/-- Membership of an integer. -/
def contains (r : IntRange) (n : Int) : Bool := r.lo ≤ n && n ≤ r.hi

/-- Whether every member of `r` is one of `s`, for nonempty ranges. -/
def within (r s : IntRange) : Bool := s.lo ≤ r.lo && r.hi ≤ s.hi

/-- The two's complement integers of `bits` bits. -/
def signed (bits : Nat) : IntRange := ⟨-(1 <<< (bits - 1) : Nat), (1 <<< (bits - 1) : Nat) - 1⟩

/-- The natural numbers below `2 ^ bits`. -/
def unsigned (bits : Nat) : IntRange := ⟨0, (1 <<< bits : Nat) - 1⟩

end IntRange

namespace Primitive

/-- All primitive types, in the order in which they are registered. -/
def all : List Primitive :=
  [void, bool, int8, int16, int32, int64, uint8, uint16, uint32, uint64, float, double, uintptr]

/-- The name of a primitive type in source text. -/
def name : Primitive → String
  | void => "void"
  | bool => "bool"
  | int8 => "int8"
  | int16 => "int16"
  | int32 => "int"
  | int64 => "int64"
  | uint8 => "uint8"
  | uint16 => "uint16"
  | uint32 => "uint"
  | uint64 => "uint64"
  | float => "float"
  | double => "double"
  | uintptr => "uintptr"

/-- The primitive type with the given name. -/
def ofName? (name : String) : Option Primitive := all.find? (·.name == name)

/-- The identity of a primitive type: the fingerprint of its name, tabulated. -/
def fingerprint : Primitive → Fingerprint
  | void => ⟨0xe4b3797ddcf989ea⟩
  | bool => ⟨0x1e0c8fa4cced99c1⟩
  | int8 => ⟨0x2b44191092e74388⟩
  | int16 => ⟨0x95aebfc985e9b115⟩
  | int32 => ⟨0x4f5e5320cd1c92bf⟩
  | int64 => ⟨0x7d6c550df59a1924⟩
  | uint8 => ⟨0x0e8b2d31cdfa9716⟩
  | uint16 => ⟨0x269d68dfde65ae7f⟩
  | uint32 => ⟨0x543fb8f520aa3e26⟩
  | uint64 => ⟨0x32ba58d17fda82dd⟩
  | float => ⟨0x02d5a2fddaf5bb69⟩
  | double => ⟨0xeb125587f6c2a79b⟩
  | uintptr => ⟨0xb7d37994d5045391⟩

/-- The primitive type that a fingerprint identifies. -/
def ofFingerprint? (f : Fingerprint) : Option Primitive := all.find? (·.fingerprint == f)

/-- The layout of a primitive type on a machine with the given pointer width. -/
def layout (pointer : Width) : Primitive → Option Layout
  | void => none
  | bool | int8 | uint8 => some (.natural 1 .i32)
  | int16 | uint16 => some (.natural 2 .i32)
  | int32 | uint32 => some (.natural 4 .i32)
  | int64 | uint64 => some (.natural 8 .i64)
  | float => some (.natural 4 .f32)
  | double => some (.natural 8 .f64)
  | uintptr => some pointer.layout

/-- The integer types; `bool` is not one of them. -/
def isInteger : Primitive → Bool
  | int8 | int16 | int32 | int64 | uint8 | uint16 | uint32 | uint64 | uintptr => true
  | void | bool | float | double => false

/-- The integer types with negative members. -/
def isSigned : Primitive → Bool
  | int8 | int16 | int32 | int64 => true
  | _ => false

/-- The two floating-point types. -/
def isFloat : Primitive → Bool
  | float | double => true
  | _ => false

/-- The members of an integer type. -/
def range? (pointer : Width) : Primitive → Option IntRange
  | int8 => some (.signed 8)
  | int16 => some (.signed 16)
  | int32 => some (.signed 32)
  | int64 => some (.signed 64)
  | uint8 => some (.unsigned 8)
  | uint16 => some (.unsigned 16)
  | uint32 => some (.unsigned 32)
  | uint64 => some (.unsigned 64)
  | uintptr =>
    match pointer with
    | .w32 => some (.unsigned 32)
    | .w64 => some (.unsigned 64)
  | void | bool | float | double => none

/-- The members of an integer type, and 0 and 1 for `bool`. -/
def valueRange? (pointer : Width) : Primitive → Option IntRange
  | bool => some ⟨0, 1⟩
  | p => p.range? pointer

theorem mem_all (p : Primitive) : p ∈ all := by
  cases p <;> decide

/-- The tabulated fingerprints are those of the names. -/
theorem fingerprint_eq_ofTypeName (p : Primitive) :
    p.fingerprint = Fingerprint.ofTypeName p.name := by
  cases p <;> decide +kernel

/-- Different primitive types have different fingerprints. -/
theorem fingerprint_injective {p q : Primitive} (h : p.fingerprint = q.fingerprint) : p = q := by
  revert h
  cases p <;> cases q <;> decide

theorem ofFingerprint?_fingerprint (p : Primitive) :
    ofFingerprint? p.fingerprint = some p := by
  cases p <;> decide

end Primitive

end StackLowering
