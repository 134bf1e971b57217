import StackLowering.Machine.Chunk

/-!
# Assembly

An assembler turns symbolic instructions into code. It keeps a pool, in which it finds a place for
every constant and every symbol, and a current line, to which the bytes of each instruction belong.

Constants are added to the pool in the order in which instructions need them, and one that is there
already is found again. The pool may come from an earlier piece of code (`Assembler.start`), so that
functions of one program share their constants.

Places in the pool are numbers of 32 bits here, and so are slots. It is the byte form that has fewer
bits (`Instruction.encode`); the assembler neither checks nor reports that a place is too large for it.
Apart from instructions there are bytes that are written as they are (`Assembler.writeOp`), with
operands that need not be those of their operation code.
-/

namespace StackLowering

/-- Code under construction. -/
structure Assembler where
  /-- The code so far. -/
  chunk : Chunk := .empty
  /-- The constants and symbols so far. -/
  pool : ConstantPool := .empty
  /-- The line of what comes next. -/
  line : UInt32 := 1

namespace ConstantPool

/-- Finds places for what an instruction names. -/
def intern (p : ConstantPool) : SymbolicInstruction → IndexedInstruction UInt32 × ConstantPool
  | .const constant =>
    let (place, pool) := p.add constant
    (.const place, pool)
  | .call callee argc =>
    let (place, pool) := p.add (.symbol callee)
    (.call place argc, pool)
  | .pop => (.pop, p)
  | .getLocal slot => (.getLocal slot, p)
  | .setLocal slot => (.setLocal slot, p)
  | .teeLocal slot => (.teeLocal slot, p)
  | .add width => (.add width, p)
  | .mul width => (.mul width, p)
  | .convert source target isSigned => (.convert source target isSigned, p)
  | .extend8S => (.extend8S, p)
  | .extend16S => (.extend16S, p)
  | .mask8 => (.mask8, p)
  | .mask16 => (.mask16, p)
  | .nonZero width => (.nonZero width, p)
  | .store category offset align => (.store category offset align, p)
  | .ret => (.ret, p)
  | .retVoid => (.retVoid, p)
  | .trap => (.trap, p)

end ConstantPool

namespace Assembler

/-- No code yet, with the constants of an earlier piece of code. -/
def start (pool : ConstantPool) : Assembler := { pool }

/-- Changes the line of what comes next. -/
def setLine (a : Assembler) (line : UInt32) : Assembler := { a with line }

/-- Adds bytes on the current line. -/
def write (a : Assembler) (bytes : List UInt8) : Assembler :=
  { a with chunk := a.chunk.append a.line bytes }

/-- Adds an operation code with the given operand bytes, whatever they are. -/
def writeOp (a : Assembler) (op : OpCode) (operands : List UInt8) : Assembler :=
  a.write (op.toByte :: operands)

/-- Adds an instruction on the current line. -/
def push (a : Assembler) (i : SymbolicInstruction) : Assembler :=
  let (indexed, pool) := a.pool.intern i
  { a with pool }.write indexed.encode

/-- Adds an instruction on its own line. -/
def pushLocated (a : Assembler) (i : LocatedInstruction) : Assembler :=
  (a.setLine i.line).push i.instruction

/-- Adds a run of instructions. -/
def pushAll (a : Assembler) (code : List LocatedInstruction) : Assembler :=
  code.foldl pushLocated a

end Assembler

end StackLowering
