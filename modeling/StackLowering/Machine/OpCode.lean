import StackLowering.Types.Layout

/-!
# Operation codes

The operations of the stack machine as they appear in code: one byte each, followed by a fixed
number of operand bytes. Constants and local variables have a narrow form with one operand byte and
a wide form with two.
-/

namespace StackLowering

/-- An operation code. -/
inductive OpCode where
  | constant
  | constantWide
  | pop
  | getLocal
  | setLocal
  | teeLocal
  | getLocalWide
  | setLocalWide
  | teeLocalWide
  | addI32
  | addI64
  | mulI32
  | mulI64
  | convert
  | extend8S
  | extend16S
  | mask8
  | mask16
  | nonZeroI32
  | nonZeroI64
  | store32
  | store64
  | storeF32
  | storeF64
  | call
  | return
  | returnVoid
  | trap
deriving DecidableEq, Repr

namespace OpCode

/-- All operation codes, in the order of their bytes. -/
def all : List OpCode :=
  [constant, constantWide, pop, getLocal, setLocal, teeLocal, getLocalWide, setLocalWide,
    teeLocalWide, addI32, addI64, mulI32, mulI64, convert, extend8S, extend16S, mask8, mask16,
    nonZeroI32, nonZeroI64, store32, store64, storeF32, storeF64, call, .return, returnVoid, trap]

/-- The byte of an operation code. -/
def toByte : OpCode → UInt8
  | constant => 0
  | constantWide => 1
  | pop => 2
  | getLocal => 3
  | setLocal => 4
  | teeLocal => 5
  | getLocalWide => 6
  | setLocalWide => 7
  | teeLocalWide => 8
  | addI32 => 9
  | addI64 => 10
  | mulI32 => 11
  | mulI64 => 12
  | convert => 13
  | extend8S => 14
  | extend16S => 15
  | mask8 => 16
  | mask16 => 17
  | nonZeroI32 => 18
  | nonZeroI64 => 19
  | store32 => 20
  | store64 => 21
  | storeF32 => 22
  | storeF64 => 23
  | call => 24
  | .return => 25
  | returnVoid => 26
  | trap => 27

/-- The operation code of a byte. -/
def ofByte? (byte : UInt8) : Option OpCode := all[byte.toNat]?

/-- How many operand bytes follow. -/
def operandSize : OpCode → Nat
  | constant | getLocal | setLocal | teeLocal => 1
  | constantWide | getLocalWide | setLocalWide | teeLocalWide => 2
  | convert | call => 3
  | store32 | store64 | storeF32 | storeF64 => 5
  | pop | addI32 | addI64 | mulI32 | mulI64 | extend8S | extend16S | mask8 | mask16
  | nonZeroI32 | nonZeroI64 | .return | returnVoid | trap => 0

/-- The name of an operation code. -/
def name : OpCode → String
  | constant => "Constant"
  | constantWide => "ConstantWide"
  | pop => "Pop"
  | getLocal => "GetLocal"
  | setLocal => "SetLocal"
  | teeLocal => "TeeLocal"
  | getLocalWide => "GetLocalWide"
  | setLocalWide => "SetLocalWide"
  | teeLocalWide => "TeeLocalWide"
  | addI32 => "AddI32"
  | addI64 => "AddI64"
  | mulI32 => "MulI32"
  | mulI64 => "MulI64"
  | convert => "Convert"
  | extend8S => "Extend8S"
  | extend16S => "Extend16S"
  | mask8 => "Mask8"
  | mask16 => "Mask16"
  | nonZeroI32 => "NonZeroI32"
  | nonZeroI64 => "NonZeroI64"
  | store32 => "Store32"
  | store64 => "Store64"
  | storeF32 => "StoreF32"
  | storeF64 => "StoreF64"
  | call => "Call"
  | .return => "Return"
  | returnVoid => "ReturnVoid"
  | trap => "Trap"

/-- The operation code with the given name. -/
def ofName? (name : String) : Option OpCode := all.find? (·.name == name)

theorem ofByte?_toByte (op : OpCode) : ofByte? op.toByte = some op := by
  cases op <;> rfl

end OpCode

end StackLowering
