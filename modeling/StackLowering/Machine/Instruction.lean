import StackLowering.Machine.Constant

/-!
# Instructions

What the stack machine does in one step. Instructions come in two shapes that differ only in how
they refer to constants, symbols and local variables: symbolic instructions hold the constant and the
name themselves, indexed ones their place in a pool. Lowering produces symbolic instructions, code
consists of indexed ones.
-/

namespace StackLowering

/-- An instruction that refers to constants by `κ`, to functions by `σ` and to local variables by
`ρ`. -/
inductive Instruction (κ σ ρ : Type) where
  /-- Pushes a constant. -/
  | const (constant : κ)
  /-- Drops the top of the stack. -/
  | pop
  /-- Pushes a local variable. -/
  | getLocal (slot : ρ)
  /-- Pops a value into a local variable. -/
  | setLocal (slot : ρ)
  /-- Writes the top of the stack into a local variable and leaves it on the stack. -/
  | teeLocal (slot : ρ)
  /-- Adds two integers, wrapping around. -/
  | add (width : Width)
  /-- Multiplies two integers, wrapping around. -/
  | mul (width : Width)
  /-- Converts the top of the stack to another category. -/
  | convert (source target : Category) (isSigned : Bool)
  /-- Extends the sign of the low byte. -/
  | extend8S
  /-- Extends the sign of the low two bytes. -/
  | extend16S
  /-- Keeps the low byte. -/
  | mask8
  /-- Keeps the low two bytes. -/
  | mask16
  /-- Replaces an integer by 1 if it is not zero, and by 0 if it is. -/
  | nonZero (width : Width)
  /-- Pops a value and an address, and writes the value to memory. -/
  | store (category : Category) (offset : UInt32) (align : UInt8)
  /-- Pops the arguments of a function and calls it. -/
  | call (callee : σ) (argc : UInt8)
  /-- Returns the top of the stack. -/
  | ret
  /-- Returns nothing. -/
  | retVoid
  /-- Halts. -/
  | trap
deriving DecidableEq, Repr

namespace Instruction

/-- Changes the references and nothing else. -/
def map {κ σ ρ κ' σ' ρ' : Type} (onConst : κ → κ') (onCallee : σ → σ') (onSlot : ρ → ρ') :
    Instruction κ σ ρ → Instruction κ' σ' ρ'
  | const c => const (onConst c)
  | pop => pop
  | getLocal slot => getLocal (onSlot slot)
  | setLocal slot => setLocal (onSlot slot)
  | teeLocal slot => teeLocal (onSlot slot)
  | add width => add width
  | mul width => mul width
  | convert source target isSigned => convert source target isSigned
  | extend8S => extend8S
  | extend16S => extend16S
  | mask8 => mask8
  | mask16 => mask16
  | nonZero width => nonZero width
  | store category offset align => store category offset align
  | call callee argc => call (onCallee callee) argc
  | ret => ret
  | retVoid => retVoid
  | trap => trap

end Instruction

/-- An instruction that names what it refers to. -/
abbrev SymbolicInstruction := Instruction Constant String UInt32

/-- An instruction that refers to everything by its index. -/
abbrev IndexedInstruction (ι : Type) := Instruction ι ι ι

/-- A symbolic instruction and the source line that it belongs to. -/
structure LocatedInstruction where
  /-- The source line. -/
  line : UInt32
  /-- The instruction. -/
  instruction : SymbolicInstruction
deriving DecidableEq, Repr

end StackLowering
