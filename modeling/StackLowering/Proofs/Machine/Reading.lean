import StackLowering.Machine.Listing
import StackLowering.Proofs.Machine.Linking

/-!
# Code as it is read

The bytes of code depend on the places of constants in a pool, and so does how many bytes an
instruction takes. What a reader of the code sees does not: the text of each instruction
(`disassemble_of_decode`), and the line that it comes from (`Chunk.instructionLines_eq`). The text
names every constant and every symbol as long as the pool fits into the 16 bits of an instruction.

The line table has an entry for each byte, so it changes with the places as well. A reader looks up the
byte at which an instruction starts (`Chunk.instructionLines`), and finds the line of the instruction
there, wherever its bytes lie. The instructions of code are found by decoding, which is why a prefix of
bytes that belong to the operands has to be passed over (`instructionLinesFrom_skip`).

These are the views under which two compilations of a function are compared, when their pools had
different constants to start with.
-/

namespace StackLowering

/-! ### Texts -/

namespace Instruction

/-- An instruction as text. What it refers to stands for itself; no other instruction needs a pool. -/
def text : SymbolicInstruction → String
  | const c => c.listing
  | call callee argc => s!"call {callee}/{argc}"
  | i => (i.shortened .empty).listing .empty

variable {p : ConstantPool}

/-- In a pool that fits into 16 bits, an instruction is shown with what it refers to. -/
theorem listing_shortened (h : p.Listed) (hsize : p.size ≤ 65536) {i : SymbolicInstruction}
    (hi : ∀ c, i.constant? = some c → c ∈ p.entries.toList) : (i.shortened p).listing p = i.text := by
  cases i with
  | const c =>
    show constantText p (p.position c).toUInt16 = c.listing
    rw [constantText, h.get?_toUInt16 hsize (hi c rfl)]
  | call callee argc =>
    have hget := h.get?_toUInt16 hsize (hi (.symbol callee) rfl)
    have hcallee : calleeText p (p.position (.symbol callee)).toUInt16 = callee := by
      rw [calleeText, ConstantPool.symbol?_eq_some_iff.2 hget]
    show s!"call {calleeText p (p.position (.symbol callee)).toUInt16}/{argc}" = s!"call {callee}/{argc}"
    rw [hcallee]
  | _ => rfl

end Instruction

/-- Code is shown instruction by instruction. -/
theorem disassemble_of_decode {p : ConstantPool} (h : p.Listed) (hsize : p.size ≤ 65536)
    {is : List SymbolicInstruction}
    (his : ∀ i ∈ is, ∀ c, i.constant? = some c → c ∈ p.entries.toList) {code : List UInt8}
    (hcode : decode code = .ok (is.map (·.shortened p))) :
    disassemble p code = .ok (is.map Instruction.text) := by
  rw [disassemble, hcode]
  show Except.ok ((is.map (·.shortened p)).map (Instruction.listing p)) = _
  rw [List.map_map]
  exact congrArg _ (List.map_congr_left fun i hi ↦ Instruction.listing_shortened h hsize (his i hi))

/-! ### Lines -/

/-- The lines of the instructions in a run of bytes, each that of its operation code. `skip` is the
number of bytes that still belong to the instruction before. -/
def instructionLinesFrom : (skip : Nat) → List CodeByte → List UInt32
  | _, [] => []
  | skip + 1, _ :: rest => instructionLinesFrom skip rest
  | 0, cell :: rest =>
    cell.line :: instructionLinesFrom ((OpCode.ofByte? cell.byte).elim 0 OpCode.operandSize) rest

/-- The line of each instruction of a chunk. -/
def Chunk.instructionLines (c : Chunk) : List UInt32 := instructionLinesFrom 0 c.bytes.toList

/-- Bytes of operands are passed over. -/
theorem instructionLinesFrom_skip (skipped rest : List CodeByte) :
    instructionLinesFrom skipped.length (skipped ++ rest) = instructionLinesFrom 0 rest := by
  induction skipped with
  | nil => rfl
  | cons cell skipped ih => exact ih

/-- An instruction is an operation code with its operands. -/
theorem Instruction.exists_encode_eq (i : IndexedInstruction UInt32) :
    ∃ op operands, i.encode = OpCode.toByte op :: operands ∧ operands.length = op.operandSize := by
  have hindex {narrow wide : OpCode} (index : UInt32) (hnarrow : narrow.operandSize = 1)
      (hwide : wide.operandSize = 2) : ∃ op operands, encodeIndex narrow wide index =
        OpCode.toByte op :: operands ∧ operands.length = op.operandSize := by
    unfold encodeIndex
    split
    · exact ⟨_, _, rfl, hnarrow.symm⟩
    · exact ⟨_, _, rfl, hwide.symm⟩
  cases i with
  | const index => exact hindex index rfl rfl
  | getLocal slot => exact hindex slot rfl rfl
  | setLocal slot => exact hindex slot rfl rfl
  | teeLocal slot => exact hindex slot rfl rfl
  | add width => cases width <;> exact ⟨_, _, rfl, rfl⟩
  | mul width => cases width <;> exact ⟨_, _, rfl, rfl⟩
  | nonZero width => cases width <;> exact ⟨_, _, rfl, rfl⟩
  | store category offset align => cases category <;> exact ⟨_, _, rfl, rfl⟩
  | _ => exact ⟨_, _, rfl, rfl⟩

/-- An instruction whose bytes have one line has that line, whatever its form. -/
theorem instructionLinesFrom_encode (i : IndexedInstruction UInt32) (line : UInt32)
    (rest : List CodeByte) :
    instructionLinesFrom 0 (i.encode.map (⟨·, line⟩) ++ rest) =
      line :: instructionLinesFrom 0 rest := by
  obtain ⟨op, operands, hencode, hlength⟩ := i.exists_encode_eq
  rw [hencode, List.map_cons, List.cons_append, instructionLinesFrom, OpCode.ofByte?_toByte,
    Option.elim_some, ← hlength]
  have hskip := instructionLinesFrom_skip (operands.map (⟨·, line⟩)) rest
  rw [List.length_map] at hskip
  rw [hskip]

/-- The lines of the instructions are those that they were written with. -/
theorem Chunk.instructionLines_eq {c : Chunk} {p : ConstantPool} {code : List LocatedInstruction}
    (h : c.bytes.toList =
      code.flatMap fun i ↦ (i.instruction.indexed p).encode.map (⟨·, i.line⟩)) :
    c.instructionLines = code.map (·.line) := by
  rw [instructionLines, h]
  clear h
  induction code with
  | nil => rfl
  | cons i code ih => rw [List.flatMap_cons, instructionLinesFrom_encode, ih, List.map_cons]

end StackLowering
