import Std.Data.ExtTreeMap
import StackLowering.Number.Binary
import StackLowering.Types.Layout

/-!
# Constants and the constant pool

Code refers to constants, and to the symbols that it calls, by their place in a pool. The pool keeps
every constant once: two constants are the same if they are of the same kind and have the same bits, so
that the two zeros differ and a NaN equals itself. That is why floating-point numbers are held by their
bit patterns, on which equality is decidable and is what is wanted.

A pool has the constants in order, and an index that finds the place of each. Nothing in the type says
that the two agree. They do in a pool that was built from the empty one, since a constant is put into
both at once, and only if the index does not find it (`ConstantPool.add`).

A place is a number of 32 bits. It is the size of the pool before the constant is added, and is not
checked: after 2³² constants the places would start anew.
-/

namespace StackLowering

/-- A constant; floating-point numbers are held by their bit patterns. -/
inductive Constant where
  /-- A 32-bit integer. -/
  | i32 (value : Int32)
  /-- A 64-bit integer. -/
  | i64 (value : Int64)
  /-- A 32-bit floating-point number. -/
  | f32 (bits : UInt32)
  /-- A 64-bit floating-point number. -/
  | f64 (bits : UInt64)
  /-- The name of a function. -/
  | symbol (name : String)
deriving DecidableEq, Repr

namespace Constant

/-- The constant that holds an integer in a category: the low bits in an integer category, the
nearest number in a floating-point category. -/
def ofInt (value : Int64) : Category → Constant
  | .i32 => i32 value.toInt32
  | .i64 => i64 value
  | .f32 => f32 (float32OfInt value.toInt)
  | .f64 => f64 (float64OfInt value.toInt)

/-- The constant that holds a size or an address on a machine with the given pointer width. -/
def ofPointer (value : UInt64) : Width → Constant
  | .w32 => i32 value.toUInt32.toInt32
  | .w64 => i64 value.toInt64

/-- The constant that holds a truth value. -/
def ofBool (value : Bool) : Constant := i32 (if value then 1 else 0)

/-! ### Order

Constants are ordered by kind, then by bits, then by name. The order only serves as the key order of
the pool. -/

/-- The kind, the bits and the name of a constant, two of which are blank. -/
def key : Constant → Nat × Nat × String
  | i32 value => (0, value.toUInt32.toNat, "")
  | i64 value => (1, value.toUInt64.toNat, "")
  | f32 bits => (2, bits.toNat, "")
  | f64 bits => (3, bits.toNat, "")
  | symbol name => (4, 0, name)

theorem key_injective {a b : Constant} (h : a.key = b.key) : a = b := by
  cases a <;> cases b <;> simp_all [key, ← UInt32.toNat_inj, ← UInt64.toNat_inj]
  · exact congrArg Int32.ofUInt32 (UInt32.toNat_inj.mp h)
  · exact congrArg Int64.ofUInt64 (UInt64.toNat_inj.mp h)

/-- Compares two constants by their keys. -/
def compare : Constant → Constant → Ordering :=
  compareLex (compareOn (·.key.1)) (compareLex (compareOn (·.key.2.1)) (compareOn (·.key.2.2)))

instance : Std.TransCmp compare := by unfold compare; infer_instance

instance : Std.LawfulEqCmp compare where
  eq_of_compare {a b} h := by
    simp only [compare, compareLex, Ordering.then_eq_eq, compareOn,
      Std.LawfulEqCmp.compare_eq_iff_eq] at h
    exact key_injective (Prod.ext h.1 (Prod.ext h.2.1 h.2.2))

end Constant

/-- The constants of a program. -/
structure ConstantPool where
  /-- The constants in order. -/
  entries : Array Constant := #[]
  /-- The place of each constant. -/
  index : Std.ExtTreeMap Constant UInt32 Constant.compare := ∅

namespace ConstantPool

/-- The pool without constants. -/
def empty : ConstantPool := {}

/-- The number of constants. -/
def size (p : ConstantPool) : Nat := p.entries.size

/-- The place of a constant, which is added at the end if it is new. -/
def add (p : ConstantPool) (c : Constant) : UInt32 × ConstantPool :=
  match p.index[c]? with
  | some place => (place, p)
  | none =>
    let place := p.size.toUInt32
    (place, { entries := p.entries.push c, index := p.index.insert c place })

/-- The place of a 32-bit integer, which is added if it is new. -/
def addI32 (p : ConstantPool) (value : Int32) : UInt32 × ConstantPool := p.add (.i32 value)

/-- The place of a 64-bit integer, which is added if it is new. -/
def addI64 (p : ConstantPool) (value : Int64) : UInt32 × ConstantPool := p.add (.i64 value)

/-- The place of a symbol, which is added if it is new. -/
def addSymbol (p : ConstantPool) (name : String) : UInt32 × ConstantPool := p.add (.symbol name)

/-- The constant at a place. -/
def get? (p : ConstantPool) (place : UInt32) : Option Constant := p.entries[place.toNat]?

/-- The name at a place, if a symbol is there. -/
def symbol? (p : ConstantPool) (place : UInt32) : Option String :=
  match p.get? place with
  | some (.symbol name) => some name
  | _ => none

/-- Adds constants in order. -/
def addAll (p : ConstantPool) (cs : List Constant) : ConstantPool :=
  cs.foldl (fun p c ↦ (p.add c).2) p

end ConstantPool

end StackLowering
