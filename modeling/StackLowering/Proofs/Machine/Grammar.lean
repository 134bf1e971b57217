import Mathlib.Data.Option.Basic
import Mathlib.Logic.ExistsUnique
import StackLowering.Proofs.Machine.Encoding

/-!
# The grammar of code

Code is a sequence of encodings: the byte of an operation code, followed by operands that have a
meaning with it. The grammar is stated apart from the decoder, as the relation `Denotes` between
operation codes, operands and instructions, and the decoder is then shown to read exactly the byte
strings of the grammar (`decode_reads_grammar`).

A byte string that is not code has a longest beginning that is, and what follows is malformed in one of
four ways (`Malformed`). The decoder reports that one, at its offset. Nothing here depends on how the
bytes came about; that the bytes of an instruction are an encoding of it is a matter of writing.

## Main results

* `Denotes.unique`: operands have one meaning with an operation code.
* `exists_encoding_or_malformed`: bytes start with an encoding, or they are malformed.
* `join_injective`: a byte string is split into encodings in one way at most.
* `decode_append`: code may be decoded piece by piece; the errors of the second piece are shifted.
* `decode_reads_grammar`: all of this about the decoder.
-/

namespace StackLowering

/-! ### Encodings -/

/-- The operations that take an index, each with its narrow and its wide operation code. -/
inductive TakesIndex : (narrow wide : OpCode) → (UInt16 → IndexedInstruction UInt16) → Prop
  | const : TakesIndex .constant .constantWide .const
  | getLocal : TakesIndex .getLocal .getLocalWide .getLocal
  | setLocal : TakesIndex .setLocal .setLocalWide .setLocal
  | teeLocal : TakesIndex .teeLocal .teeLocalWide .teeLocal

/-- The operations without operands. -/
inductive TakesNothing : OpCode → IndexedInstruction UInt16 → Prop
  | pop : TakesNothing .pop .pop
  | add (width : Width) : TakesNothing (.add width) (.add width)
  | mul (width : Width) : TakesNothing (.mul width) (.mul width)
  | extend8S : TakesNothing .extend8S .extend8S
  | extend16S : TakesNothing .extend16S .extend16S
  | mask8 : TakesNothing .mask8 .mask8
  | mask16 : TakesNothing .mask16 .mask16
  | nonZero (width : Width) : TakesNothing (.nonZero width) (.nonZero width)
  | ret : TakesNothing .return .ret
  | retVoid : TakesNothing .returnVoid .retVoid
  | trap : TakesNothing .trap .trap

/-- The operands that an operation code can have, and the instruction that it is with them. The
narrow and the wide form of an operation are the same instruction. -/
inductive Denotes : OpCode → List UInt8 → IndexedInstruction UInt16 → Prop
  | bare {op : OpCode} {i : IndexedInstruction UInt16} (h : TakesNothing op i) : Denotes op [] i
  | narrow {short long : OpCode} {i : UInt16 → IndexedInstruction UInt16}
      (h : TakesIndex short long i) (index : UInt8) : Denotes short [index] (i index.toUInt16)
  | wide {short long : OpCode} {i : UInt16 → IndexedInstruction UInt16}
      (h : TakesIndex short long i) (index : UInt16) : Denotes long (bigEndian16 index) (i index)
  | convert (source target : Category) (sign : UInt8) :
      Denotes .convert [source.toByte, target.toByte, sign] (.convert source target (sign != 0))
  | store (category : Category) (offset : UInt32) (align : UInt8) :
      Denotes (.store category) (align :: bigEndian32 offset) (.store category offset align)
  | call (callee : UInt16) (argc : UInt8) :
      Denotes .call (bigEndian16 callee ++ [argc]) (.call callee argc)

/-- An operation code with operands that it can have. -/
structure Encoding where
  /-- The operation code. -/
  op : OpCode
  /-- The bytes after the operation code. -/
  operands : List UInt8
  /-- The instruction. -/
  meaning : IndexedInstruction UInt16
  /-- The instruction is what the operation code is with these operands. -/
  denotes : Denotes op operands meaning

namespace Encoding

/-- The bytes of an encoding. -/
def bytes (e : Encoding) : List UInt8 := e.op.toByte :: e.operands

/-- The bytes of encodings one after the other. -/
def join (split : List Encoding) : List UInt8 := split.flatMap bytes

@[simp] theorem join_nil : join [] = [] := rfl

@[simp] theorem join_cons (e : Encoding) (split : List Encoding) :
    join (e :: split) = e.bytes ++ join split := rfl

end Encoding

/-! ### Bytes of categories and operation codes -/

/-- Every category has one byte. -/
theorem Category.ofByte?_eq_some {byte : UInt8} {c : Category} (h : ofByte? byte = some c) :
    byte = c.toByte := by
  unfold ofByte? at h
  split at h <;> cases h <;> rfl

/-- The first four bytes stand for categories, and no others. -/
theorem Category.ofByte?_eq_none {byte : UInt8} : ofByte? byte = none ↔ 3 < byte := by
  rw [UInt8.lt_iff_toNat_lt, show (3 : UInt8).toNat = 3 from rfl]
  unfold ofByte?
  split
  case h_5 h₀ h₁ h₂ h₃ =>
    simp only [imp_false, ← UInt8.toNat_inj, UInt8.reduceToNat] at h₀ h₁ h₂ h₃
    simp only [true_iff]
    omega
  all_goals simp

/-- Each of the first four bytes stands for a category. -/
theorem Category.exists_toByte {byte : UInt8} (h : byte ≤ 3) : ∃ c : Category, byte = c.toByte := by
  cases hbyte : ofByte? byte with
  | some c => exact ⟨c, ofByte?_eq_some hbyte⟩
  | none => exact absurd h (UInt8.not_le.2 (ofByte?_eq_none.1 hbyte))

theorem Category.toByte_le (c : Category) : c.toByte ≤ 3 := by
  cases c <;> decide

theorem OpCode.nodup_all : all.Nodup := by decide

/-- Every operation code has one byte. -/
theorem OpCode.ofByte?_eq_some {byte : UInt8} {op : OpCode} (h : ofByte? byte = some op) :
    byte = op.toByte := by
  obtain ⟨hlt, -⟩ := List.getElem?_eq_some_iff.1 h
  have hindex : byte.toNat = op.toByte.toNat :=
    (List.getElem?_inj hlt nodup_all).1 (h.trans (ofByte?_toByte op).symm)
  exact UInt8.toNat_inj.1 hindex

/-- The first 28 bytes stand for operation codes, and no others. -/
theorem OpCode.ofByte?_eq_none {byte : UInt8} : ofByte? byte = none ↔ 27 < byte := by
  rw [ofByte?, List.getElem?_eq_none_iff, UInt8.lt_iff_toNat_lt]
  exact Iff.rfl

/-- The bytes that stand for an operation code, told without the decoder. -/
theorem OpCode.exists_toByte_iff {byte : UInt8} : (∃ op : OpCode, byte = op.toByte) ↔ byte ≤ 27 := by
  rw [← UInt8.not_lt, ← ofByte?_eq_none, ← ne_eq, Option.ne_none_iff_exists']
  exact exists_congr fun op ↦ ⟨fun h ↦ h ▸ ofByte?_toByte op, ofByte?_eq_some⟩

/-- Different operation codes have different bytes. -/
theorem OpCode.toByte_injective : Function.Injective OpCode.toByte := fun op op' h ↦
  Option.some.inj ((ofByte?_toByte op).symm.trans (h ▸ ofByte?_toByte op'))

/-! ### Operands -/

namespace Denotes

variable {op : OpCode} {operands : List UInt8} {i : IndexedInstruction UInt16}

/-- Every operation code has a fixed number of operands. -/
theorem length_eq (h : Denotes op operands i) : operands.length = op.operandSize := by
  cases h with
  | bare h => cases h with
    | add width | mul width | nonZero width => cases width <;> rfl
    | _ => rfl
  | narrow h index => cases h <;> rfl
  | wide h index => cases h <;> rfl
  | convert source target sign => rfl
  | store category offset align => cases category <;> rfl
  | call callee argc => rfl

/-- The decoder finds the meaning of operands, wherever they lie. -/
theorem decodeOperands_eq (h : Denotes op operands i) (offset : Nat) :
    decodeOperands offset op operands = .ok i := by
  cases h with
  | bare h => cases h with
    | add width | mul width | nonZero width => cases width <;> rfl
    | _ => rfl
  | narrow h index => cases h <;> rfl
  | wide h index =>
    have hindex : Except.ok (ofBigEndian16 (index >>> 8).toUInt8 index.toUInt8) =
        (Except.ok index : Except DecodeError UInt16) := by
      rw [ofBigEndian16_bytes]
    cases h <;> exact congrArg (Except.map _) hindex
  | convert source target sign =>
    show (decodeCategory (offset + 1) source.toByte >>= fun source ↦
      decodeCategory (offset + 2) target.toByte >>= fun target ↦
        pure (Instruction.convert source target (sign != 0))) = _
    rw [decodeCategory_toByte, decodeCategory_toByte]
    rfl
  | store category memoryOffset align =>
    have hoffset : Except.ok (.store category (ofBigEndian32 (memoryOffset >>> 24).toUInt8
        (memoryOffset >>> 16).toUInt8 (memoryOffset >>> 8).toUInt8 memoryOffset.toUInt8) align) =
        (Except.ok (.store category memoryOffset align) :
          Except DecodeError (IndexedInstruction UInt16)) := by
      rw [ofBigEndian32_bytes]
    cases category <;> exact hoffset
  | call callee argc =>
    show Except.ok (Instruction.call (ofBigEndian16 (callee >>> 8).toUInt8 callee.toUInt8) argc) = _
    rw [ofBigEndian16_bytes]

/-- Operands have one meaning. -/
theorem unique {i' : IndexedInstruction UInt16} (h : Denotes op operands i)
    (h' : Denotes op operands i') : i = i' :=
  Except.ok.inj ((h.decodeOperands_eq 0).symm.trans (h'.decodeOperands_eq 0))

/-- Two bytes are an index in the wide form. -/
theorem wide_bytes {short long : OpCode} {i : UInt16 → IndexedInstruction UInt16}
    (h : TakesIndex short long i) (b₁ b₀ : UInt8) :
    Denotes long [b₁, b₀] (i (ofBigEndian16 b₁ b₀)) :=
  bigEndian16_ofBigEndian16 b₁ b₀ ▸ wide h (ofBigEndian16 b₁ b₀)

/-- An index below 256 can be written in either form. -/
theorem narrow_and_wide {short long : OpCode} {i : UInt16 → IndexedInstruction UInt16}
    (h : TakesIndex short long i) (index : UInt8) :
    Denotes short [index] (i index.toUInt16) ∧ Denotes long [0, index] (i index.toUInt16) := by
  have hindex : ofBigEndian16 0 index = index.toUInt16 := by
    rw [← UInt16.toNat_inj, toNat_ofBigEndian16, UInt8.toNat_toUInt16]
    exact Nat.zero_add _
  exact ⟨narrow h index, hindex ▸ wide_bytes h 0 index⟩

/-- Five bytes are the operands of a store. -/
theorem store_bytes (category : Category) (align b₃ b₂ b₁ b₀ : UInt8) :
    Denotes (.store category) [align, b₃, b₂, b₁, b₀]
      (.store category (ofBigEndian32 b₃ b₂ b₁ b₀) align) :=
  bigEndian32_ofBigEndian32 b₃ b₂ b₁ b₀ ▸ store category (ofBigEndian32 b₃ b₂ b₁ b₀) align

/-- Three bytes are the operands of a call. -/
theorem call_bytes (b₁ b₀ argc : UInt8) :
    Denotes .call [b₁, b₀, argc] (.call (ofBigEndian16 b₁ b₀) argc) := by
  have h := call (ofBigEndian16 b₁ b₀) argc
  rwa [bigEndian16_ofBigEndian16] at h

/-- As many bytes as an operation code has operands have a meaning with it, except that the first
two bytes of a conversion have to be categories. -/
theorem exists_of_length_eq : ∀ {op : OpCode} {operands : List UInt8},
    operands.length = op.operandSize → (op = .convert → ∀ b ∈ operands.take 2, b ≤ 3) →
      ∃ i, Denotes op operands i
  | .constant, [index], _, _ => ⟨_, narrow .const index⟩
  | .constantWide, [b₁, b₀], _, _ => ⟨_, wide_bytes .const b₁ b₀⟩
  | .pop, [], _, _ => ⟨_, bare .pop⟩
  | .getLocal, [slot], _, _ => ⟨_, narrow .getLocal slot⟩
  | .setLocal, [slot], _, _ => ⟨_, narrow .setLocal slot⟩
  | .teeLocal, [slot], _, _ => ⟨_, narrow .teeLocal slot⟩
  | .getLocalWide, [b₁, b₀], _, _ => ⟨_, wide_bytes .getLocal b₁ b₀⟩
  | .setLocalWide, [b₁, b₀], _, _ => ⟨_, wide_bytes .setLocal b₁ b₀⟩
  | .teeLocalWide, [b₁, b₀], _, _ => ⟨_, wide_bytes .teeLocal b₁ b₀⟩
  | .addI32, [], _, _ => ⟨_, bare (.add .w32)⟩
  | .addI64, [], _, _ => ⟨_, bare (.add .w64)⟩
  | .mulI32, [], _, _ => ⟨_, bare (.mul .w32)⟩
  | .mulI64, [], _, _ => ⟨_, bare (.mul .w64)⟩
  | .convert, [source, target, sign], _, hcategories => by
    obtain ⟨c, rfl⟩ := Category.exists_toByte (hcategories rfl source (by simp))
    obtain ⟨c', rfl⟩ := Category.exists_toByte (hcategories rfl target (by simp))
    exact ⟨_, convert c c' sign⟩
  | .extend8S, [], _, _ => ⟨_, bare .extend8S⟩
  | .extend16S, [], _, _ => ⟨_, bare .extend16S⟩
  | .mask8, [], _, _ => ⟨_, bare .mask8⟩
  | .mask16, [], _, _ => ⟨_, bare .mask16⟩
  | .nonZeroI32, [], _, _ => ⟨_, bare (.nonZero .w32)⟩
  | .nonZeroI64, [], _, _ => ⟨_, bare (.nonZero .w64)⟩
  | .store32, [align, b₃, b₂, b₁, b₀], _, _ => ⟨_, store_bytes .i32 align b₃ b₂ b₁ b₀⟩
  | .store64, [align, b₃, b₂, b₁, b₀], _, _ => ⟨_, store_bytes .i64 align b₃ b₂ b₁ b₀⟩
  | .storeF32, [align, b₃, b₂, b₁, b₀], _, _ => ⟨_, store_bytes .f32 align b₃ b₂ b₁ b₀⟩
  | .storeF64, [align, b₃, b₂, b₁, b₀], _, _ => ⟨_, store_bytes .f64 align b₃ b₂ b₁ b₀⟩
  | .call, [b₁, b₀, argc], _, _ => ⟨_, call_bytes b₁ b₀ argc⟩
  | .return, [], _, _ => ⟨_, bare .ret⟩
  | .returnVoid, [], _, _ => ⟨_, bare .retVoid⟩
  | .trap, [], _, _ => ⟨_, bare .trap⟩

/-- The first two operands of a conversion are categories. -/
theorem le_of_mem_take (h : Denotes op operands i) (hop : op = .convert) {b : UInt8}
    (hb : b ∈ operands.take 2) : b ≤ 3 := by
  cases h with
  | convert source target sign =>
    obtain rfl | rfl : b = source.toByte ∨ b = target.toByte := by simpa using hb
    · exact source.toByte_le
    · exact target.toByte_le
  | bare h => cases h with
    | add width | mul width | nonZero width => cases width <;> cases hop
    | _ => cases hop
  | narrow h index | wide h index => cases h <;> cases hop
  | store category offset align => cases category <;> cases hop
  | call callee argc => cases hop

end Denotes

/-! ### Malformed bytes -/

/-- The same error, further on in the code. -/
def DecodeError.shift (distance : Nat) : DecodeError → DecodeError
  | invalidOpcode offset byte => invalidOpcode (distance + offset) byte
  | truncated offset => truncated (distance + offset)
  | invalidCategory offset byte => invalidCategory (distance + offset) byte

/-- Bytes that start with no encoding, and what the decoder has to say about them if they lie at
an offset: a byte that is no operation code, too few operands, or a conversion from or to something
that is no category. Too few operands come first. -/
inductive Malformed (offset : Nat) : List UInt8 → DecodeError → Prop
  | opcode {byte : UInt8} {rest : List UInt8} (h : 27 < byte) :
      Malformed offset (byte :: rest) (.invalidOpcode offset byte)
  | operands {op : OpCode} {rest : List UInt8} (h : rest.length < op.operandSize) :
      Malformed offset (op.toByte :: rest) (.truncated offset)
  | source {source target sign : UInt8} {rest : List UInt8} (h : 3 < source) :
      Malformed offset (OpCode.convert.toByte :: source :: target :: sign :: rest)
        (.invalidCategory (offset + 1) source)
  | target {source : Category} {target sign : UInt8} {rest : List UInt8} (h : 3 < target) :
      Malformed offset (OpCode.convert.toByte :: source.toByte :: target :: sign :: rest)
        (.invalidCategory (offset + 2) target)

/-- Any other byte is reported with its offset. -/
theorem decodeCategory_of_lt {byte : UInt8} (offset : Nat) (h : 3 < byte) :
    decodeCategory offset byte = .error (.invalidCategory offset byte) := by
  rw [decodeCategory, Category.ofByte?_eq_none.2 h]

/-- Operands that are cut short are reported at the offset of their operation code. -/
theorem decodeOperands_of_length_lt {op : OpCode} {operands : List UInt8} (offset : Nat)
    (h : operands.length < op.operandSize) :
    decodeOperands offset op operands = .error (.truncated offset) := by
  -- The last equation of the decoder is the one that applies, which shows only in lists of a known
  -- length.
  cases op
  all_goals
    simp only [OpCode.operandSize] at h
    rcases operands with _ | ⟨_, _ | ⟨_, _ | ⟨_, _ | ⟨_, _ | ⟨_, _⟩⟩⟩⟩⟩
  all_goals first | rfl | grind

/-- The decoder stops at malformed bytes. -/
theorem Malformed.decodeHead_eq {offset : Nat} {byte : UInt8} {rest : List UInt8} {e : DecodeError}
    (h : Malformed offset (byte :: rest) e) : decodeHead offset byte rest = .error e := by
  cases h with
  | opcode h => rw [decodeHead, OpCode.ofByte?_eq_none.2 h]
  | @operands op _ h =>
    have htake : (rest.take op.operandSize).length < op.operandSize := by
      rwa [List.take_of_length_le (Nat.le_of_lt h)]
    simp only [decodeHead, OpCode.ofByte?_toByte, decodeOperands_of_length_lt offset htake]
    rfl
  | @source source _ _ _ h =>
    show (decodeCategory (offset + 1) source >>= _) >>= _ = _
    rw [decodeCategory_of_lt _ h]
    rfl
  | @target source target _ _ h =>
    show (decodeCategory (offset + 1) source.toByte >>= fun _ ↦
      decodeCategory (offset + 2) target >>= _) >>= _ = _
    rw [decodeCategory_toByte, decodeCategory_of_lt _ h]
    rfl

/-- What is malformed is reported by the decoder as it is told by the grammar. -/
theorem Malformed.decodeFrom_eq {offset : Nat} {bytes : List UInt8} {e : DecodeError}
    (h : Malformed offset bytes e) : decodeFrom offset 0 bytes = .error e := by
  match bytes, h with
  | byte :: rest, h =>
    rw [decodeFrom, h.decodeHead_eq]
    rfl

/-- What is wrong with bytes is still wrong with them at another offset. -/
theorem Malformed.shift {offset : Nat} {bytes : List UInt8} {e : DecodeError}
    (h : Malformed offset bytes e) (distance : Nat) : Malformed (distance + offset) bytes (e.shift distance) := by
  cases h with
  | opcode h => exact .opcode h
  | operands h => exact .operands h
  | source h => exact .source h
  | target h => exact .target h

/-- Bytes start with an encoding, or they are malformed. -/
theorem exists_encoding_or_malformed (offset : Nat) (byte : UInt8) (rest : List UInt8) :
    (∃ (e : Encoding) (rest' : List UInt8), byte :: rest = e.bytes ++ rest') ∨
      ∃ e, Malformed offset (byte :: rest) e := by
  cases hop : OpCode.ofByte? byte with
  | none => exact .inr ⟨_, .opcode (OpCode.ofByte?_eq_none.1 hop)⟩
  | some op =>
    obtain rfl := OpCode.ofByte?_eq_some hop
    rcases Nat.lt_or_ge rest.length op.operandSize with hlt | hge
    · exact .inr ⟨_, .operands hlt⟩
    have hlength : (rest.take op.operandSize).length = op.operandSize :=
      List.length_take_of_le hge
    by_cases hcategories : op = .convert → ∀ b ∈ (rest.take op.operandSize).take 2, b ≤ 3
    · obtain ⟨i, hi⟩ := Denotes.exists_of_length_eq hlength hcategories
      refine .inl ⟨⟨op, _, i, hi⟩, rest.drop op.operandSize, ?_⟩
      rw [Encoding.bytes, List.cons_append, List.take_append_drop]
    · -- only a conversion has operands that are no categories
      obtain ⟨rfl, hnot⟩ := Classical.not_imp.1 hcategories
      match rest, hge, hnot with
      | source :: target :: sign :: rest', _, hnot =>
        by_cases hsource : source ≤ 3
        · obtain ⟨c, rfl⟩ := Category.exists_toByte hsource
          have htarget : ¬ target ≤ 3 := fun htarget ↦
            hnot (List.forall_mem_cons.2 ⟨hsource, List.forall_mem_singleton.2 htarget⟩)
          exact .inr ⟨_, .target (UInt8.not_le.1 htarget)⟩
        · exact .inr ⟨_, .source (UInt8.not_le.1 hsource)⟩

/-! ### The split of a byte string -/

namespace Encoding

/-- The decoder reads encodings one after the other. -/
theorem decodeFrom_join (split : List Encoding) (offset : Nat) (rest : List UInt8) :
    decodeFrom offset 0 (join split ++ rest) =
      (decodeFrom (offset + (join split).length) 0 rest).map (split.map (·.meaning) ++ ·) := by
  induction split generalizing offset with
  | nil => cases h : decodeFrom offset 0 rest <;> simp [h, Except.map]
  | cons e split ih =>
    have he : decodeFrom offset 0 (e.bytes ++ (join split ++ rest)) =
        (decodeFrom (offset + e.bytes.length) 0 (join split ++ rest)).map (e.meaning :: ·) :=
      Instruction.decodeFrom_toByte e.denotes.length_eq (e.denotes.decodeOperands_eq offset)
    rw [join_cons, List.append_assoc, he, ih, List.length_append, Nat.add_assoc]
    cases decodeFrom (offset + (e.bytes.length + (join split).length)) 0 rest <;> rfl

/-- Passing over the operands of each operation code finds them all. -/
theorem opcodesFrom_join (split : List Encoding) : opcodesFrom 0 (join split) = split.map (·.op) := by
  induction split with
  | nil => rfl
  | cons e split ih =>
    have hskip (skipped : List UInt8) :
        opcodesFrom skipped.length (skipped ++ join split) = opcodesFrom 0 (join split) := by
      induction skipped with
      | nil => rfl
      | cons byte skipped ih => exact ih
    rw [join_cons, bytes, List.cons_append, opcodesFrom, OpCode.ofByte?_toByte]
    simp only [← e.denotes.length_eq, hskip, ih, List.map_cons]

/-- Bytes split into encodings in one way at most. -/
theorem join_injective : Function.Injective join := by
  intro split
  induction split with
  | nil =>
    rintro (_ | ⟨e, split⟩) h
    · rfl
    · cases h
  | cons e split ih =>
    rintro (_ | ⟨e', split'⟩) h
    · cases h
    obtain ⟨op, operands, i, hi⟩ := e
    obtain ⟨op', operands', i', hi'⟩ := e'
    obtain ⟨hop, hrest⟩ := List.cons.inj h
    obtain rfl := OpCode.toByte_injective hop
    obtain ⟨rfl, hsplit⟩ := List.append_inj hrest (hi.length_eq.trans hi'.length_eq.symm)
    obtain rfl := hi.unique hi'
    rw [ih hsplit]

/-- Every byte string starts with encodings, which end where it ends or where it is malformed. -/
theorem exists_join (code : List UInt8) (offset : Nat) : ∃ split rest, code = join split ++ rest ∧
    (rest = [] ∨ ∃ e, Malformed (offset + (join split).length) rest e) := by
  induction hn : code.length using Nat.strongRecOn generalizing code offset with
  | ind n ih =>
    match code with
    | [] => exact ⟨[], [], rfl, .inl rfl⟩
    | byte :: tail =>
      rcases exists_encoding_or_malformed offset byte tail with ⟨e, code', hcode⟩ | hmalformed
      · have hlt : code'.length < n := by
          rw [← hn, hcode, List.length_append, bytes, List.length_cons]
          omega
        obtain ⟨split, rest, rfl, hrest⟩ := ih _ hlt code' (offset + e.bytes.length) rfl
        refine ⟨e :: split, rest, by rw [hcode, join_cons, List.append_assoc], ?_⟩
        rwa [join_cons, List.length_append, ← Nat.add_assoc]
      · exact ⟨[], byte :: tail, rfl, .inr hmalformed⟩

end Encoding

open Encoding (join)

/-- The bytes of encodings decode to their meanings. -/
theorem decode_join (split : List Encoding) : decode (join split) = .ok (split.map (·.meaning)) := by
  have h := Encoding.decodeFrom_join split 0 []
  rw [List.append_nil] at h
  rw [decode, h]
  simp [decodeFrom, Except.map]

/-- Encodings followed by something malformed do not decode. -/
theorem decode_join_append {split : List Encoding} {rest : List UInt8} {e : DecodeError}
    (h : Malformed (join split).length rest e) : decode (join split ++ rest) = .error e := by
  rw [decode, Encoding.decodeFrom_join, Nat.zero_add, h.decodeFrom_eq]
  rfl

/-- What decodes is code of the grammar. -/
theorem decode_eq_ok {code : List UInt8} {is : List (IndexedInstruction UInt16)}
    (h : decode code = .ok is) : ∃ split, code = join split ∧ is = split.map (·.meaning) := by
  obtain ⟨split, rest, rfl, rfl | ⟨e, he⟩⟩ := Encoding.exists_join code 0
  · rw [List.append_nil, decode_join] at h
    exact ⟨split, List.append_nil _, (Except.ok.inj h).symm⟩
  · rw [Nat.zero_add] at he
    rw [decode_join_append he] at h
    cases h

/-- What does not decode is malformed somewhere, after encodings. -/
theorem decode_eq_error {code : List UInt8} {e : DecodeError} (h : decode code = .error e) :
    ∃ split rest, code = join split ++ rest ∧ Malformed (join split).length rest e := by
  obtain ⟨split, rest, rfl, rfl | ⟨e', he⟩⟩ := Encoding.exists_join code 0
  · rw [List.append_nil, decode_join] at h
    cases h
  · rw [Nat.zero_add] at he
    rw [decode_join_append he] at h
    exact ⟨split, rest, rfl, Except.error.inj h ▸ he⟩

/-- Where bytes lie matters to the offsets in errors only. -/
theorem decodeFrom_eq_mapError (offset : Nat) (code : List UInt8) :
    decodeFrom offset 0 code = (decode code).mapError (·.shift offset) := by
  obtain ⟨split, rest, rfl, rfl | ⟨e, he⟩⟩ := Encoding.exists_join code 0
  · rw [Encoding.decodeFrom_join, List.append_nil, decode_join]
    simp [decodeFrom, Except.map, Except.mapError]
  · rw [Nat.zero_add] at he
    rw [decode_join_append he, Encoding.decodeFrom_join, (he.shift offset).decodeFrom_eq]
    rfl

/-- Code that is followed by something is decoded first, and the rest after it. -/
theorem decode_append {code : List UInt8} {is : List (IndexedInstruction UInt16)}
    (h : decode code = .ok is) (rest : List UInt8) :
    decode (code ++ rest) =
      ((decode rest).mapError (·.shift code.length)).map (is ++ ·) := by
  obtain ⟨split, rfl, rfl⟩ := decode_eq_ok h
  rw [decode, Encoding.decodeFrom_join, Nat.zero_add, decodeFrom_eq_mapError]

/-- An operation code is found to lack operands only if the bytes end before the last one. -/
theorem decodeHead_eq_truncated {offset at' : Nat} {byte : UInt8} {rest : List UInt8}
    (h : decodeHead offset byte rest = .error (.truncated at')) :
    ∃ op : OpCode, byte = op.toByte ∧ rest.length < op.operandSize := by
  rcases exists_encoding_or_malformed offset byte rest with ⟨e, rest', he⟩ | ⟨e, he⟩
  · rw [Encoding.bytes, List.cons_append] at he
    obtain ⟨rfl, rfl⟩ := List.cons.inj he
    rw [Instruction.decodeHead_toByte e.denotes.length_eq (e.denotes.decodeOperands_eq offset)] at h
    cases h
  · rw [he.decodeHead_eq] at h
    cases h
    cases he with
    | operands hlt => exact ⟨_, rfl, hlt⟩

/-- With the right number of operands none is missing. -/
theorem decodeOperands_ne_truncated {op : OpCode} {operands : List UInt8}
    (h : operands.length = op.operandSize) (offset at' : Nat) :
    decodeOperands offset op operands ≠ .error (.truncated at') := by
  intro herror
  have hhead : decodeHead offset op.toByte operands = .error (.truncated at') := by
    simp only [decodeHead, OpCode.ofByte?_toByte, ← h, List.take_length, herror]
    rfl
  obtain ⟨op', hop, hlt⟩ := decodeHead_eq_truncated hhead
  obtain rfl := OpCode.toByte_injective hop
  omega

/-- The decoder reads exactly the code of the grammar. The operation codes are the bytes up to 27,
and which operands one of them can have is a matter of their number, and of two bytes for a
conversion; the narrow and the wide form of an index mean the same. A byte string decodes if and only
if it splits into encodings, which it does in one way, and then to what these mean; otherwise the
error is that of the first place where no encoding starts. So decoding goes through a concatenation
part by part, reading operands cannot run out of bytes once their number has been checked, and the
operation codes of code are those of its split. -/
theorem decode_reads_grammar :
    (∀ byte, (∃ op : OpCode, byte = op.toByte) ↔ byte ≤ 27) ∧
    (∀ op operands, (∃ i, Denotes op operands i) ↔
      operands.length = op.operandSize ∧ (op = .convert → ∀ b ∈ operands.take 2, b ≤ 3)) ∧
    (∀ short long i, TakesIndex short long i → ∀ index : UInt8,
      Denotes short [index] (i index.toUInt16) ∧ Denotes long [0, index] (i index.toUInt16)) ∧
    (∀ code is, decode code = .ok is ↔
      ∃! split, code = join split ∧ is = split.map (·.meaning)) ∧
    (∀ code e, decode code = .error e ↔
      ∃ split rest, code = join split ++ rest ∧ Malformed (join split).length rest e) ∧
    (∀ code is rest, decode code = .ok is →
      decode (code ++ rest) = ((decode rest).mapError (·.shift code.length)).map (is ++ ·)) ∧
    (∀ offset at' op operands, operands.length = op.operandSize →
      decodeOperands offset op operands ≠ .error (.truncated at')) ∧
    (∀ split, decode (join split) = .ok (split.map (·.meaning)) ∧
      opcodes (join split) = split.map (·.op)) := by
  refine ⟨fun byte ↦ OpCode.exists_toByte_iff, fun op operands ↦ ⟨?_, ?_⟩,
    fun short long i h index ↦ Denotes.narrow_and_wide h index, fun code is ↦ ⟨?_, ?_⟩,
    fun code e ↦ ⟨decode_eq_error, ?_⟩, fun code is rest h ↦ decode_append h rest,
    fun offset at' op operands h ↦ decodeOperands_ne_truncated h offset at',
    fun split ↦ ⟨decode_join split, Encoding.opcodesFrom_join split⟩⟩
  · rintro ⟨i, h⟩
    exact ⟨h.length_eq, fun hop b hb ↦ h.le_of_mem_take hop hb⟩
  · rintro ⟨hlength, hcategories⟩
    exact Denotes.exists_of_length_eq hlength hcategories
  · intro h
    obtain ⟨split, rfl, rfl⟩ := decode_eq_ok h
    exact ⟨split, ⟨rfl, rfl⟩, fun split' h' ↦ Encoding.join_injective h'.1.symm⟩
  · rintro ⟨split, ⟨rfl, rfl⟩, -⟩
    exact decode_join split
  · rintro ⟨split, rest, rfl, h⟩
    exact decode_join_append h

/-- A conversion from 32-bit integers to nothing, after a drop: it is the second category that is
wrong, and the error says where it lies. Behind further code it lies further on. -/
theorem decode_reads_grammar_bad_target :
    decode [2, 13, 0, 9, 1] = .error (.invalidCategory 3 9) ∧
    decode ([3, 7] ++ [2, 13, 0, 9, 1]) = .error (.invalidCategory 5 9) := by
  obtain ⟨-, -, -, -, herror, happend, -, hjoin⟩ := decode_reads_grammar
  have hbad : decode [2, 13, 0, 9, 1] = .error (.invalidCategory 3 9) :=
    (herror _ _).2 ⟨[⟨.pop, [], .pop, .bare .pop⟩], [13, 0, 9, 1], rfl,
      @Malformed.target _ .i32 _ _ _ (by decide)⟩
  have hget : decode [3, 7] = .ok [.getLocal 7] :=
    (hjoin [⟨.getLocal, [7], .getLocal 7, .narrow .getLocal 7⟩]).1
  refine ⟨hbad, ?_⟩
  rw [happend _ _ _ hget, hbad]
  rfl

end StackLowering
