import StackLowering.Machine.Encoding

/-!
# Chunks

A chunk is a growing piece of code in which every byte knows the source line that it comes from.

The line stands beside each byte, so that there are always as many lines as bytes. A table of runs, in
which each line stands with the number of bytes in a row that it has, is computed from that
(`Chunk.lineRuns`). Bytes are only ever added at the end.
-/

namespace StackLowering

/-- A byte of code and the line that it comes from. -/
structure CodeByte where
  /-- The byte. -/
  byte : UInt8
  /-- The source line. -/
  line : UInt32
deriving DecidableEq, Repr

/-- Code with its line table. -/
structure Chunk where
  /-- The bytes in order. -/
  bytes : Array CodeByte := #[]
deriving DecidableEq, Inhabited, Repr

namespace Chunk

/-- The chunk without code. -/
def empty : Chunk := {}

/-- The number of bytes. -/
def size (c : Chunk) : Nat := c.bytes.size

/-- The code alone. -/
def code (c : Chunk) : List UInt8 := c.bytes.toList.map (·.byte)

/-- The line of each byte. -/
def lines (c : Chunk) : List UInt32 := c.bytes.toList.map (·.line)

/-- The line table as runs: each line with the number of bytes in a row that it has. -/
def lineRuns (c : Chunk) : List (UInt32 × Nat) :=
  c.lines.foldr (fun line runs ↦
    match runs with
    | (line', count) :: rest =>
      if line = line' then (line, count + 1) :: rest else (line, 1) :: runs
    | [] => [(line, 1)]) []

/-- Adds bytes that all come from one line. -/
def append (c : Chunk) (line : UInt32) (bytes : List UInt8) : Chunk :=
  ⟨bytes.foldl (fun cells byte ↦ cells.push ⟨byte, line⟩) c.bytes⟩

/-- The line of the byte at an offset. -/
def lineAt? (c : Chunk) (offset : Nat) : Option UInt32 := c.bytes[offset]?.map (·.line)

/-- The byte at an offset. -/
def byteAt? (c : Chunk) (offset : Nat) : Option UInt8 := c.bytes[offset]?.map (·.byte)

/-- The 16-bit number at an offset. -/
def read16? (c : Chunk) (offset : Nat) : Option UInt16 := do
  return ofBigEndian16 (← c.byteAt? offset) (← c.byteAt? (offset + 1))

/-- The 32-bit number at an offset. -/
def read32? (c : Chunk) (offset : Nat) : Option UInt32 := do
  return ofBigEndian32 (← c.byteAt? offset) (← c.byteAt? (offset + 1)) (← c.byteAt? (offset + 2))
    (← c.byteAt? (offset + 3))

/-- The operation code at an offset. -/
def opcodeAt? (c : Chunk) (offset : Nat) : Option OpCode :=
  (c.byteAt? offset).bind OpCode.ofByte?

theorem toList_bytes_append (c : Chunk) (line : UInt32) (bytes : List UInt8) :
    (c.append line bytes).bytes.toList = c.bytes.toList ++ bytes.map (⟨·, line⟩) := by
  simp only [append]
  induction bytes generalizing c with
  | nil => simp
  | cons b bs ih => simp

/-- Appending to a chunk appends to its code. -/
theorem code_append (c : Chunk) (line : UInt32) (bytes : List UInt8) :
    (c.append line bytes).code = c.code ++ bytes := by
  simp [code, toList_bytes_append, Function.comp_def]

/-- Every appended byte gets the same line. -/
theorem lines_append (c : Chunk) (line : UInt32) (bytes : List UInt8) :
    (c.append line bytes).lines = c.lines ++ List.replicate bytes.length line := by
  simp [lines, toList_bytes_append, Function.comp_def, List.map_const']

theorem length_code (c : Chunk) : c.code.length = c.size := by
  simp [code, size]

theorem length_lines (c : Chunk) : c.lines.length = c.size := by
  simp [lines, size]

end Chunk

end StackLowering
