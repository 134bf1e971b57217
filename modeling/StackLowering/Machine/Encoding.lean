import StackLowering.Machine.Instruction
import StackLowering.Machine.OpCode

/-!
# Instructions as bytes

The byte form of instructions: an operation code and its operands, numbers with the most significant
byte first. Indices below 256 have the narrow form, all others the wide one, which holds the low 16
bits. Decoding reads instructions from left to right and reports the first one that is not valid.

Encoding takes indices of 32 bits and decoding gives indices of 16 bits, so that the loss is visible in
the types. An index that is too large is not refused, and reads as a smaller one. A call has no narrow
form.

Decoding accepts the wide form of an index that would fit the narrow one, and any byte but zero for a
sign that is set. So it is not one to one, but what was encoded is read back as it was, up to the cut.
The number of operand bytes depends on the operation code alone (`OpCode.operandSize`), which is how a
reader finds the next instruction.
-/

namespace StackLowering

/-! ### Numbers -/

/-- The two bytes of a 16-bit number. -/
def bigEndian16 (n : UInt16) : List UInt8 := [(n >>> 8).toUInt8, n.toUInt8]

/-- The four bytes of a 32-bit number. -/
def bigEndian32 (n : UInt32) : List UInt8 :=
  [(n >>> 24).toUInt8, (n >>> 16).toUInt8, (n >>> 8).toUInt8, n.toUInt8]

/-- The 16-bit number of two bytes. -/
def ofBigEndian16 (b₁ b₀ : UInt8) : UInt16 := b₁.toUInt16 <<< 8 ||| b₀.toUInt16

/-- The 32-bit number of four bytes. -/
def ofBigEndian32 (b₃ b₂ b₁ b₀ : UInt8) : UInt32 :=
  b₃.toUInt32 <<< 24 ||| b₂.toUInt32 <<< 16 ||| b₁.toUInt32 <<< 8 ||| b₀.toUInt32

/-! ### Encoding -/

/-- An index in the narrow form if it fits, and in the wide form otherwise. -/
def encodeIndex (narrow wide : OpCode) (index : UInt32) : List UInt8 :=
  if index < 256 then [narrow.toByte, index.toUInt8]
  else wide.toByte :: bigEndian16 index.toUInt16

namespace OpCode

/-- Addition at a width. -/
def add : Width → OpCode
  | .w32 => addI32
  | .w64 => addI64

/-- Multiplication at a width. -/
def mul : Width → OpCode
  | .w32 => mulI32
  | .w64 => mulI64

/-- The test for zero at a width. -/
def nonZero : Width → OpCode
  | .w32 => nonZeroI32
  | .w64 => nonZeroI64

/-- The store of a category. -/
def store : Category → OpCode
  | .i32 => store32
  | .i64 => store64
  | .f32 => storeF32
  | .f64 => storeF64

end OpCode

namespace Instruction

/-- The bytes of an instruction. A call refers to its symbol by 16 bits in every case. -/
def encode : IndexedInstruction UInt32 → List UInt8
  | const index => encodeIndex .constant .constantWide index
  | pop => [OpCode.pop.toByte]
  | getLocal slot => encodeIndex .getLocal .getLocalWide slot
  | setLocal slot => encodeIndex .setLocal .setLocalWide slot
  | teeLocal slot => encodeIndex .teeLocal .teeLocalWide slot
  | add width => [(OpCode.add width).toByte]
  | mul width => [(OpCode.mul width).toByte]
  | convert source target isSigned =>
    [OpCode.convert.toByte, source.toByte, target.toByte, if isSigned then 1 else 0]
  | extend8S => [OpCode.extend8S.toByte]
  | extend16S => [OpCode.extend16S.toByte]
  | mask8 => [OpCode.mask8.toByte]
  | mask16 => [OpCode.mask16.toByte]
  | nonZero width => [(OpCode.nonZero width).toByte]
  | store category offset align =>
    (OpCode.store category).toByte :: align :: bigEndian32 offset
  | call callee argc => OpCode.call.toByte :: (bigEndian16 callee.toUInt16 ++ [argc])
  | ret => [OpCode.return.toByte]
  | retVoid => [OpCode.returnVoid.toByte]
  | trap => [OpCode.trap.toByte]

end Instruction

/-! ### Decoding -/

/-- Why bytes are not code. -/
inductive DecodeError where
  /-- A byte is no operation code. -/
  | invalidOpcode (offset : Nat) (byte : UInt8)
  /-- The bytes end within an instruction. -/
  | truncated (offset : Nat)
  /-- An operand byte is no category. -/
  | invalidCategory (offset : Nat) (byte : UInt8)
deriving DecidableEq, Repr

/-- The category that an operand byte at a given offset stands for. -/
def decodeCategory (offset : Nat) (byte : UInt8) : Except DecodeError Category :=
  match Category.ofByte? byte with
  | some category => .ok category
  | none => .error (.invalidCategory offset byte)

/-- The instruction with an operation code and its operands, of which there has to be the right
number; `offset` is where the operation code lies. -/
def decodeOperands (offset : Nat) : OpCode → List UInt8 →
    Except DecodeError (IndexedInstruction UInt16)
  | .constant, [i] => .ok (.const i.toUInt16)
  | .constantWide, [i₁, i₀] => .ok (.const (ofBigEndian16 i₁ i₀))
  | .pop, [] => .ok .pop
  | .getLocal, [i] => .ok (.getLocal i.toUInt16)
  | .setLocal, [i] => .ok (.setLocal i.toUInt16)
  | .teeLocal, [i] => .ok (.teeLocal i.toUInt16)
  | .getLocalWide, [i₁, i₀] => .ok (.getLocal (ofBigEndian16 i₁ i₀))
  | .setLocalWide, [i₁, i₀] => .ok (.setLocal (ofBigEndian16 i₁ i₀))
  | .teeLocalWide, [i₁, i₀] => .ok (.teeLocal (ofBigEndian16 i₁ i₀))
  | .addI32, [] => .ok (.add .w32)
  | .addI64, [] => .ok (.add .w64)
  | .mulI32, [] => .ok (.mul .w32)
  | .mulI64, [] => .ok (.mul .w64)
  | .convert, [source, target, isSigned] => do
    let source ← decodeCategory (offset + 1) source
    let target ← decodeCategory (offset + 2) target
    return .convert source target (isSigned != 0)
  | .extend8S, [] => .ok .extend8S
  | .extend16S, [] => .ok .extend16S
  | .mask8, [] => .ok .mask8
  | .mask16, [] => .ok .mask16
  | .nonZeroI32, [] => .ok (.nonZero .w32)
  | .nonZeroI64, [] => .ok (.nonZero .w64)
  | .store32, [align, o₃, o₂, o₁, o₀] => .ok (.store .i32 (ofBigEndian32 o₃ o₂ o₁ o₀) align)
  | .store64, [align, o₃, o₂, o₁, o₀] => .ok (.store .i64 (ofBigEndian32 o₃ o₂ o₁ o₀) align)
  | .storeF32, [align, o₃, o₂, o₁, o₀] => .ok (.store .f32 (ofBigEndian32 o₃ o₂ o₁ o₀) align)
  | .storeF64, [align, o₃, o₂, o₁, o₀] => .ok (.store .f64 (ofBigEndian32 o₃ o₂ o₁ o₀) align)
  | .call, [s₁, s₀, argc] => .ok (.call (ofBigEndian16 s₁ s₀) argc)
  | .return, [] => .ok .ret
  | .returnVoid, [] => .ok .retVoid
  | .trap, [] => .ok .trap
  | _, _ => .error (.truncated offset)

/-- The instruction that starts with `byte` at `offset` and continues in `rest`, and the number of
its operand bytes. -/
def decodeHead (offset : Nat) (byte : UInt8) (rest : List UInt8) :
    Except DecodeError (IndexedInstruction UInt16 × Nat) :=
  match OpCode.ofByte? byte with
  | none => .error (.invalidOpcode offset byte)
  | some op => do
    let instruction ← decodeOperands offset op (rest.take op.operandSize)
    return (instruction, op.operandSize)

/-- The instruction at an offset, and the offset after it. -/
def decodeAt (code : List UInt8) (offset : Nat) :
    Except DecodeError (IndexedInstruction UInt16 × Nat) :=
  match code.drop offset with
  | [] => .error (.truncated offset)
  | byte :: rest => do
    let (instruction, size) ← decodeHead offset byte rest
    return (instruction, offset + 1 + size)

/-- Reads instructions from left to right. `offset` is where the given bytes lie in the code, and
`skip` is the number of bytes that still belong to the instruction before. -/
def decodeFrom : (offset skip : Nat) → List UInt8 →
    Except DecodeError (List (IndexedInstruction UInt16))
  | _, _, [] => .ok []
  | offset, skip + 1, _ :: rest => decodeFrom (offset + 1) skip rest
  | offset, 0, byte :: rest => do
    let (instruction, size) ← decodeHead offset byte rest
    return instruction :: (← decodeFrom (offset + 1) size rest)

/-- All instructions of a piece of code. -/
def decode (code : List UInt8) : Except DecodeError (List (IndexedInstruction UInt16)) :=
  decodeFrom 0 0 code

/-- Collects operation codes from left to right, after skipping `skip` bytes. A byte that is no
operation code is passed over alone. -/
def opcodesFrom : (skip : Nat) → List UInt8 → List OpCode
  | _, [] => []
  | skip + 1, _ :: rest => opcodesFrom skip rest
  | 0, byte :: rest =>
    match OpCode.ofByte? byte with
    | some op => op :: opcodesFrom op.operandSize rest
    | none => opcodesFrom 0 rest

/-- The operation codes of a piece of code, valid or not. -/
def opcodes (code : List UInt8) : List OpCode := opcodesFrom 0 code

end StackLowering
