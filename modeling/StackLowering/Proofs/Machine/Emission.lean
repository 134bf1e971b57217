import StackLowering.Proofs.Machine.Linking

/-!
# Reading back what was asked for

An assembler may be asked for an instruction, for a constant by what it stands for, or to go on to
another line. Whatever it is asked for, and whatever constants it starts with, the finished code is
decoded to the instructions that were asked for, in order, and every byte has the line that was current
when its instruction was written (`Assembler.decode_performAll`). Only positions and slots lose
something: an instruction has room for their low 16 bits.

A request that is no instruction is told as the instruction that it leads to (`performAll_eq`), so that
there is one argument for all of them, which goes over located instructions. It rests on two facts that
are proved elsewhere: what the assembler writes is the encoding of these instructions with the places
of the final pool, and decoding an encoding gives the instruction back.
-/

namespace StackLowering

namespace ConstantPool

variable {p : ConstantPool}

/-- Adding constants in a row keeps the index true to the entries. -/
theorem Listed.addAll (h : p.Listed) (cs : List Constant) : (p.addAll cs).Listed := by
  induction cs generalizing p with
  | nil => exact h
  | cons c cs ih => exact ih (h.add c)

end ConstantPool

/-! ### What is asked for -/

/-- What an assembler can be asked for. -/
inductive Emission where
  /-- To go on to another line. -/
  | line (line : UInt32)
  /-- An integer as a constant of a category. -/
  | int (value : Int64) (category : Category)
  /-- A size or an address as a constant. -/
  | pointer (value : UInt64) (width : Width)
  /-- A truth value as a constant. -/
  | bool (value : Bool)
  /-- Any instruction. -/
  | instruction (i : SymbolicInstruction)
deriving DecidableEq, Repr

namespace Assembler

/-- Does what is asked for. -/
def perform (a : Assembler) : Emission → Assembler
  | .line line => a.setLine line
  | .int value category => a.push (.const (.ofInt value category))
  | .pointer value width => a.push (.const (.ofPointer value width))
  | .bool value => a.push (.const (.ofBool value))
  | .instruction i => a.push i

/-- Does everything that is asked for in order. -/
def performAll (a : Assembler) (es : List Emission) : Assembler := es.foldl perform a

end Assembler

/-- The instructions that are asked for, with the lines that are current then. -/
def Emission.located : (current : UInt32) → List Emission → List LocatedInstruction
  | _, [] => []
  | _, .line next :: es => located next es
  | current, .int value category :: es =>
    ⟨current, .const (.ofInt value category)⟩ :: located current es
  | current, .pointer value width :: es =>
    ⟨current, .const (.ofPointer value width)⟩ :: located current es
  | current, .bool value :: es => ⟨current, .const (.ofBool value)⟩ :: located current es
  | current, .instruction i :: es => ⟨current, i⟩ :: located current es

namespace Assembler

/-- A run of located instructions does not depend on the line before, up to the line after. -/
theorem pushAll_setLine (a : Assembler) (line line' : UInt32) (code : List LocatedInstruction) :
    ((a.setLine line).pushAll code).setLine line' = (a.pushAll code).setLine line' := by
  cases code <;> rfl

/-- What is asked for is written like the located instructions. -/
theorem performAll_eq (a : Assembler) (es : List Emission) :
    ∃ line, a.performAll es = (a.pushAll (Emission.located a.line es)).setLine line := by
  induction es generalizing a with
  | nil => exact ⟨a.line, rfl⟩
  | cons e es ih =>
    -- all but the first kind write an instruction on the current line
    cases e with
    | line line =>
      obtain ⟨line', h⟩ := ih (a.setLine line)
      exact ⟨line', h.trans (a.pushAll_setLine line line' _)⟩
    | int value category => exact ih (a.push (.const (.ofInt value category)))
    | pointer value width => exact ih (a.push (.const (.ofPointer value width)))
    | bool value => exact ih (a.push (.const (.ofBool value)))
    | instruction i => exact ih (a.push i)

/-- Instructions are read back from the code that they are written to, from whatever constants the pool
starts with. -/
theorem decode_pushAll {p : ConstantPool} (h : p.Listed) (code : List LocatedInstruction) :
    decode ((start p).pushAll code).chunk.code =
      .ok (code.map (·.instruction.shortened ((start p).pushAll code).pool)) := by
  have hlisted : ((start p).pushAll code).pool.Listed := listed_pushAll (a := start p) code h
  rw [code_pushAll (.refl _), show (start p).chunk.code = [] from rfl, List.nil_append,
    decode_encodeAll, List.map_map]
  refine congrArg _ (List.map_congr_left fun i hi ↦ ?_)
  exact Instruction.truncated_indexed hlisted fun c hc ↦ index_pushAll hi hc

/-- The finished code is decoded to what was asked for, with the low 16 bits of positions and slots.
Every constant and every symbol is at its position in the pool in the end, and is found there through
the code if the position fits into 16 bits. The bytes of an instruction have the line that was current
when it was asked for. -/
theorem decode_performAll (constants : List Constant) (es : List Emission) :
    let a := (start (.addAll .empty constants)).performAll es
    let written := Emission.located 1 es
    decode a.chunk.code = .ok (written.map (·.instruction.shortened a.pool)) ∧
    (∀ i ∈ written, ∀ c, i.instruction.constant? = some c →
      a.pool.entries[a.pool.position c]? = some c ∧
        (a.pool.position c < 65536 →
          a.pool.get? (a.pool.position c).toUInt16.toUInt32 = some c)) ∧
    a.chunk.code = encodeAll (written.map (·.instruction.indexed a.pool)) ∧
    a.chunk.lines = written.flatMap fun i ↦
      List.replicate (i.instruction.indexed a.pool).encode.length i.line := by
  intro a written
  have hstart : (ConstantPool.empty.addAll constants).Listed :=
    ConstantPool.listed_empty.addAll constants
  obtain ⟨line, ha⟩ : ∃ line, a = ((start (.addAll .empty constants)).pushAll written).setLine line :=
    performAll_eq _ es
  rw [ha]
  refine ⟨decode_pushAll hstart written, fun i hi c hc ↦ ?_, code_pushAll (.refl _),
    lines_pushAll (.refl _)⟩
  have hlisted := listed_pushAll (a := start (.addAll .empty constants)) written hstart
  have hmem := hlisted.mem (index_pushAll hi hc)
  exact ⟨ConstantPool.getElem?_position hmem, (hlisted.get?_toUInt16_iff hmem).2⟩

end Assembler

end StackLowering
