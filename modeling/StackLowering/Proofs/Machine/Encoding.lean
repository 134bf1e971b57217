import Mathlib.Algebra.Group.Nat.Defs
import StackLowering.Machine.Encoding

/-!
# Reading back what was written

Decoding the bytes of a run of instructions gives the same instructions, except that an index keeps its
low 16 bits only (`decode_encodeAll`). The argument is one instruction at a time: the bytes of an
instruction are read as that instruction wherever they lie and whatever follows them.

Numbers of several bytes are written with the highest byte first. That reading undoes writing is needed
here; that writing undoes reading (`bigEndian16_ofBigEndian16`, `bigEndian32_ofBigEndian32`) says that
no two byte strings stand for the same number, which is what the grammar of code rests on.

An index has a short form for numbers below 256 and a long one of 16 bits. An index that does not fit
into 16 bits is cut off without a report, so the instruction that comes back is the truncated one
(`Instruction.truncated`), and the theorem holds of every index.
-/

namespace StackLowering

/-! ### Numbers -/

/-- A multiple of a power of two over a smaller number. -/
private theorem mul_or {a b m : Nat} (i : Nat) (h : b < m) (hm : 1 <<< i = m) :
    a * m ||| b = a * m + b := by
  rw [Nat.one_shiftLeft] at hm
  subst hm
  rw [← Nat.shiftLeft_eq, Nat.shiftLeft_add_eq_or_of_lt h]

/-- Two bytes as a number, the first byte counts more. -/
theorem toNat_ofBigEndian16 (b₁ b₀ : UInt8) :
    (ofBigEndian16 b₁ b₀).toNat = b₁.toNat * 2 ^ 8 + b₀.toNat := by
  have h₁ : b₁.toNat < 2 ^ 8 := b₁.toNat_lt
  have h₀ : b₀.toNat < 2 ^ 8 := b₀.toNat_lt
  simp only [ofBigEndian16, UInt16.toNat_or, UInt16.toNat_shiftLeft, UInt8.toNat_toUInt16]
  change b₁.toNat <<< 8 % 2 ^ 16 ||| b₀.toNat = _
  rw [Nat.shiftLeft_eq, Nat.mod_eq_of_lt (by omega), mul_or 8 h₀ rfl]

/-- Four bytes as a number, the first byte counts most. -/
theorem toNat_ofBigEndian32 (b₃ b₂ b₁ b₀ : UInt8) :
    (ofBigEndian32 b₃ b₂ b₁ b₀).toNat =
      b₃.toNat * 2 ^ 24 + b₂.toNat * 2 ^ 16 + b₁.toNat * 2 ^ 8 + b₀.toNat := by
  have h₃ : b₃.toNat < 2 ^ 8 := b₃.toNat_lt
  have h₂ : b₂.toNat < 2 ^ 8 := b₂.toNat_lt
  have h₁ : b₁.toNat < 2 ^ 8 := b₁.toNat_lt
  have h₀ : b₀.toNat < 2 ^ 8 := b₀.toNat_lt
  simp only [ofBigEndian32, UInt32.toNat_or, UInt32.toNat_shiftLeft, UInt8.toNat_toUInt32]
  change b₃.toNat <<< 24 % 2 ^ 32 ||| b₂.toNat <<< 16 % 2 ^ 32 ||| b₁.toNat <<< 8 % 2 ^ 32 |||
    b₀.toNat = _
  simp only [Nat.shiftLeft_eq]
  rw [Nat.mod_eq_of_lt (show b₃.toNat * 2 ^ 24 < 2 ^ 32 by omega),
    Nat.mod_eq_of_lt (show b₂.toNat * 2 ^ 16 < 2 ^ 32 by omega),
    Nat.mod_eq_of_lt (show b₁.toNat * 2 ^ 8 < 2 ^ 32 by omega),
    -- the bytes are put together from the highest one on
    mul_or 24 (show b₂.toNat * 2 ^ 16 < 2 ^ 24 by omega) rfl,
    show b₃.toNat * 2 ^ 24 + b₂.toNat * 2 ^ 16 = (b₃.toNat * 2 ^ 8 + b₂.toNat) * 2 ^ 16 by omega,
    mul_or 16 (show b₁.toNat * 2 ^ 8 < 2 ^ 16 by omega) rfl,
    show (b₃.toNat * 2 ^ 8 + b₂.toNat) * 2 ^ 16 + b₁.toNat * 2 ^ 8 =
      ((b₃.toNat * 2 ^ 8 + b₂.toNat) * 2 ^ 8 + b₁.toNat) * 2 ^ 8 by omega,
    mul_or 8 h₀ rfl]

/-- Two bytes that were written are read as the number they were written for. -/
theorem ofBigEndian16_bytes (n : UInt16) : ofBigEndian16 (n >>> 8).toUInt8 n.toUInt8 = n := by
  have hn : n.toNat < 2 ^ 16 := n.toNat_lt
  rw [← UInt16.toNat_inj, toNat_ofBigEndian16]
  simp only [UInt16.toNat_toUInt8, UInt16.toNat_shiftRight]
  change n.toNat >>> 8 % 2 ^ 8 * 2 ^ 8 + n.toNat % 2 ^ 8 = _
  rw [Nat.shiftRight_eq_div_pow]
  omega

/-- Four bytes that were written are read as the number they were written for. -/
theorem ofBigEndian32_bytes (n : UInt32) :
    ofBigEndian32 (n >>> 24).toUInt8 (n >>> 16).toUInt8 (n >>> 8).toUInt8 n.toUInt8 = n := by
  have hn : n.toNat < 2 ^ 32 := n.toNat_lt
  rw [← UInt32.toNat_inj, toNat_ofBigEndian32]
  simp only [UInt32.toNat_toUInt8, UInt32.toNat_shiftRight]
  change n.toNat >>> 24 % 2 ^ 8 * 2 ^ 24 + n.toNat >>> 16 % 2 ^ 8 * 2 ^ 16 +
    n.toNat >>> 8 % 2 ^ 8 * 2 ^ 8 + n.toNat % 2 ^ 8 = _
  simp only [Nat.shiftRight_eq_div_pow]
  omega

/-- Two bytes that were read are written again as the same bytes, so no two numbers have the same
bytes. -/
theorem bigEndian16_ofBigEndian16 (b₁ b₀ : UInt8) :
    bigEndian16 (ofBigEndian16 b₁ b₀) = [b₁, b₀] := by
  have h₁ : b₁.toNat < 2 ^ 8 := b₁.toNat_lt
  have h₀ : b₀.toNat < 2 ^ 8 := b₀.toNat_lt
  simp only [bigEndian16, List.cons.injEq, and_true, ← UInt8.toNat_inj, UInt16.toNat_toUInt8,
    UInt16.toNat_shiftRight, toNat_ofBigEndian16]
  change (b₁.toNat * 2 ^ 8 + b₀.toNat) >>> 8 % 2 ^ 8 = _ ∧ _
  rw [Nat.shiftRight_eq_div_pow]
  omega

/-- Four bytes that were read are written again as the same bytes. -/
theorem bigEndian32_ofBigEndian32 (b₃ b₂ b₁ b₀ : UInt8) :
    bigEndian32 (ofBigEndian32 b₃ b₂ b₁ b₀) = [b₃, b₂, b₁, b₀] := by
  have h₃ : b₃.toNat < 2 ^ 8 := b₃.toNat_lt
  have h₂ : b₂.toNat < 2 ^ 8 := b₂.toNat_lt
  have h₁ : b₁.toNat < 2 ^ 8 := b₁.toNat_lt
  have h₀ : b₀.toNat < 2 ^ 8 := b₀.toNat_lt
  simp only [bigEndian32, List.cons.injEq, and_true, ← UInt8.toNat_inj, UInt32.toNat_toUInt8,
    UInt32.toNat_shiftRight, toNat_ofBigEndian32]
  generalize hn : b₃.toNat * 2 ^ 24 + b₂.toNat * 2 ^ 16 + b₁.toNat * 2 ^ 8 + b₀.toNat = n
  change n >>> 24 % 2 ^ 8 = _ ∧ n >>> 16 % 2 ^ 8 = _ ∧ n >>> 8 % 2 ^ 8 = _ ∧ _
  simp only [Nat.shiftRight_eq_div_pow]
  omega

/-- An index below 256 is its low byte. -/
theorem toUInt16_toUInt8_of_lt {index : UInt32} (h : index < 256) :
    index.toUInt8.toUInt16 = index.toUInt16 := by
  have hlt : index.toNat < 256 := h
  apply UInt16.toNat_inj.1
  simp only [UInt8.toNat_toUInt16, UInt32.toNat_toUInt8, UInt32.toNat_toUInt16]
  omega

/-- The byte of a category is read as this category. -/
theorem decodeCategory_toByte (offset : Nat) (c : Category) :
    decodeCategory offset c.toByte = .ok c := by
  rw [decodeCategory, Category.ofByte?_toByte]

/-! ### Instructions -/

namespace Instruction

/-- What remains of an instruction in code: indices are cut off after 16 bits. -/
def truncated : IndexedInstruction UInt32 → IndexedInstruction UInt16 :=
  map (·.toUInt16) (·.toUInt16) (·.toUInt16)

variable {offset : Nat} {rest : List UInt8}

/-- An operation code with as many bytes as it takes is read as what it means with them. -/
theorem decodeHead_toByte {op : OpCode} {operands : List UInt8} {i : IndexedInstruction UInt16}
    (hsize : operands.length = op.operandSize) (h : decodeOperands offset op operands = .ok i) :
    decodeHead offset op.toByte (operands ++ rest) = .ok (i, op.operandSize) := by
  simp only [decodeHead, OpCode.ofByte?_toByte, ← hsize, List.take_left', h]
  rfl

/-- The bytes that belong to an instruction are passed over. -/
theorem decodeFrom_skip (skipped : List UInt8) :
    decodeFrom offset skipped.length (skipped ++ rest) =
      decodeFrom (offset + skipped.length) 0 rest := by
  induction skipped generalizing offset with
  | nil => rfl
  | cons byte skipped ih =>
    rw [List.length_cons, List.cons_append, decodeFrom, ih]
    congr 1
    omega

/-- What decoding does with an operation code and its operands. -/
theorem decodeFrom_toByte {op : OpCode} {operands : List UInt8} {i : IndexedInstruction UInt16}
    (hsize : operands.length = op.operandSize) (h : decodeOperands offset op operands = .ok i) :
    decodeFrom offset 0 (op.toByte :: operands ++ rest) =
      (decodeFrom (offset + (op.toByte :: operands).length) 0 rest).map (i :: ·) := by
  rw [List.cons_append, decodeFrom, decodeHead_toByte hsize h, ← hsize]
  change (decodeFrom (offset + 1) operands.length (operands ++ rest) >>= _) = _
  rw [decodeFrom_skip, List.length_cons, Nat.add_assoc, Nat.add_comm 1]
  cases decodeFrom (offset + (operands.length + 1)) 0 rest <;> rfl

/-- An index is read back from its narrow or wide form. -/
theorem decodeFrom_encodeIndex {narrow wide : OpCode} {index : UInt32}
    {i : UInt16 → IndexedInstruction UInt16} (hnarrow : narrow.operandSize = 1)
    (hwide : wide.operandSize = 2)
    (h : ∀ b, decodeOperands offset narrow [b] = .ok (i b.toUInt16))
    (h' : ∀ b₁ b₀, decodeOperands offset wide [b₁, b₀] = .ok (i (ofBigEndian16 b₁ b₀))) :
    decodeFrom offset 0 (encodeIndex narrow wide index ++ rest) =
      (decodeFrom (offset + (encodeIndex narrow wide index).length) 0 rest).map
        (i index.toUInt16 :: ·) := by
  unfold encodeIndex
  split
  next hlt =>
    rw [← toUInt16_toUInt8_of_lt hlt]
    exact decodeFrom_toByte hnarrow.symm (h _)
  next =>
    refine decodeFrom_toByte hwide.symm ((h' _ _).trans ?_)
    rw [ofBigEndian16_bytes]

/-- An instruction at the beginning is read as itself, with the low bits of its index, and reading goes
on behind it. What follows may be anything. -/
theorem decodeFrom_encode (i : IndexedInstruction UInt32) :
    decodeFrom offset 0 (i.encode ++ rest) =
      (decodeFrom (offset + i.encode.length) 0 rest).map (i.truncated :: ·) := by
  -- only the four instructions with an index have a narrow and a wide form
  cases i with
  | const index => exact decodeFrom_encodeIndex rfl rfl (fun _ ↦ rfl) fun _ _ ↦ rfl
  | getLocal slot => exact decodeFrom_encodeIndex rfl rfl (fun _ ↦ rfl) fun _ _ ↦ rfl
  | setLocal slot => exact decodeFrom_encodeIndex rfl rfl (fun _ ↦ rfl) fun _ _ ↦ rfl
  | teeLocal slot => exact decodeFrom_encodeIndex rfl rfl (fun _ ↦ rfl) fun _ _ ↦ rfl
  | pop => exact decodeFrom_toByte rfl rfl
  | add width => cases width <;> exact decodeFrom_toByte rfl rfl
  | mul width => cases width <;> exact decodeFrom_toByte rfl rfl
  | convert source target isSigned =>
    have hflag : decodeOperands offset .convert
        [source.toByte, target.toByte, if isSigned then 1 else 0] =
          .ok (.convert source target isSigned) := by
      show (decodeCategory (offset + 1) source.toByte >>= fun source ↦
        decodeCategory (offset + 2) target.toByte >>= fun target ↦
          pure (Instruction.convert source target ((if isSigned then (1 : UInt8) else 0) != 0))) = _
      rw [decodeCategory_toByte, decodeCategory_toByte]
      cases isSigned <;> rfl
    exact decodeFrom_toByte rfl hflag
  | extend8S => exact decodeFrom_toByte rfl rfl
  | extend16S => exact decodeFrom_toByte rfl rfl
  | mask8 => exact decodeFrom_toByte rfl rfl
  | mask16 => exact decodeFrom_toByte rfl rfl
  | nonZero width => cases width <;> exact decodeFrom_toByte rfl rfl
  | store category memoryOffset align =>
    have hoffset : Except.ok (.store category (ofBigEndian32 (memoryOffset >>> 24).toUInt8
        (memoryOffset >>> 16).toUInt8 (memoryOffset >>> 8).toUInt8 memoryOffset.toUInt8) align) =
        (Except.ok (.store category memoryOffset align) :
          Except DecodeError (IndexedInstruction UInt16)) := by
      rw [ofBigEndian32_bytes]
    cases category <;> exact decodeFrom_toByte rfl hoffset
  | call callee argc =>
    have hcallee : decodeOperands offset .call (bigEndian16 callee.toUInt16 ++ [argc]) =
        .ok (.call callee.toUInt16 argc) := by
      show Except.ok (Instruction.call (ofBigEndian16 (callee.toUInt16 >>> 8).toUInt8 _) argc) = _
      rw [ofBigEndian16_bytes]
    exact decodeFrom_toByte rfl hcallee
  | ret => exact decodeFrom_toByte rfl rfl
  | retVoid => exact decodeFrom_toByte rfl rfl
  | trap => exact decodeFrom_toByte rfl rfl

end Instruction

/-- The bytes of a run of instructions. -/
def encodeAll (is : List (IndexedInstruction UInt32)) : List UInt8 :=
  is.flatMap Instruction.encode

/-- By induction on the instructions; the offset only serves for errors and may be anything. -/
theorem decodeFrom_encodeAll (is : List (IndexedInstruction UInt32)) (offset : Nat) :
    decodeFrom offset 0 (encodeAll is) = .ok (is.map Instruction.truncated) := by
  induction is generalizing offset with
  | nil => rfl
  | cons i is ih =>
    rw [encodeAll, List.flatMap_cons, Instruction.decodeFrom_encode]
    change (decodeFrom _ 0 (encodeAll is)).map _ = _
    rw [ih]
    rfl

/-- Instructions are read back from their bytes, with their indices cut off after 16 bits. -/
theorem decode_encodeAll (is : List (IndexedInstruction UInt32)) :
    decode (encodeAll is) = .ok (is.map Instruction.truncated) :=
  decodeFrom_encodeAll is 0

end StackLowering
