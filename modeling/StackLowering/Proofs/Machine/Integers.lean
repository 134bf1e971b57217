import Mathlib.Data.Int.ModEq
import StackLowering.Proofs.Machine.Execution
import StackLowering.Types.Primitive

/-!
# Integers in cells

A cell holds the low bits of an integer (`Cell.ofInt`). What the instructions on integer cells do to
these bits is told here as arithmetic on the integer: a sign extension takes a balanced remainder, a
mask takes a remainder, and a cell that is widened or tested for zero has to hold an integer that fits
it.

Machine words come in four types, signed and unsigned, of 32 and of 64 bits, and types of one or two
bytes live in cells of 32 bits. To have one argument for all of them, everything is stated of integers
and of congruences: two integers have the same cell exactly if they are congruent (`Cell.ofInt_inj`),
and the canonical integer of a type is the one in its range (`IntRange.wrap`). So a chain of
instructions is followed by a chain of congruences, and only its end asks which integer is meant.
-/

namespace StackLowering

/-! ### Words -/

/-- The word of an integer is its remainder, which is never negative. -/
theorem toNat_ofInt_uint32 (v : Int) : ((UInt32.ofInt v).toNat : Int) = v % 2 ^ 32 := by
  rw [UInt32.ofInt, UInt32.toNat_ofNat']
  omega

/-- The long word of an integer is its remainder. -/
theorem toNat_ofInt_uint64 (v : Int) : ((UInt64.ofInt v).toNat : Int) = v % 2 ^ 64 := by
  rw [UInt64.ofInt, UInt64.toNat_ofNat']
  omega

/-- Two integers have the same low bits exactly if they are congruent. -/
theorem ofInt_uint32_inj {v w : Int} : UInt32.ofInt v = UInt32.ofInt w ↔ v ≡ w [ZMOD 2 ^ 32] := by
  rw [← UInt32.toNat_inj, ← Int.natCast_inj, toNat_ofInt_uint32, toNat_ofInt_uint32]
  exact Iff.rfl

/-- Two integers have the same long word exactly if they are congruent. -/
theorem ofInt_uint64_inj {v w : Int} : UInt64.ofInt v = UInt64.ofInt w ↔ v ≡ w [ZMOD 2 ^ 64] := by
  rw [← UInt64.toNat_inj, ← Int.natCast_inj, toNat_ofInt_uint64, toNat_ofInt_uint64]
  exact Iff.rfl

/-- A word read as a signed integer. -/
theorem toInt_ofInt_uint32 (v : Int) : (UInt32.ofInt v).toInt32.toInt = v.bmod (2 ^ 32) := by
  have hword : (UInt32.ofInt v).toInt32.toInt = Int.bmod (UInt32.ofInt v).toNat (2 ^ 32) :=
    BitVec.toInt_eq_toNat_bmod _
  rw [hword, toNat_ofInt_uint32]
  exact Int.emod_bmod v (2 ^ 32)

/-- A signed word holds the low bits of its value. -/
theorem toUInt32_eq_ofInt (x : Int32) : x.toUInt32 = UInt32.ofInt x.toInt := by
  have hword : x.toInt = Int.bmod x.toUInt32.toNat (2 ^ 32) := BitVec.toInt_eq_toNat_bmod _
  have hlt := x.toUInt32.toNat_lt
  rw [← UInt32.toNat_inj, ← Int.natCast_inj, toNat_ofInt_uint32, hword]
  refine Eq.trans ?_ (Int.bmod_emod (m := 2 ^ 32)).symm
  omega

/-- A signed long word has the same bits as the integer that it stands for. -/
theorem toUInt64_eq_ofInt (x : Int64) : x.toUInt64 = UInt64.ofInt x.toInt := by
  have hword : x.toInt = Int.bmod x.toUInt64.toNat (2 ^ 64) := BitVec.toInt_eq_toNat_bmod _
  have hlt := x.toUInt64.toNat_lt
  rw [← UInt64.toNat_inj, ← Int.natCast_inj, toNat_ofInt_uint64, hword]
  refine Eq.trans ?_ (Int.bmod_emod (m := 2 ^ 64)).symm
  omega

/-- Extending the sign of the low byte. -/
theorem extend8_ofInt (v : Int) :
    (UInt32.ofInt v).toInt32.toInt8.toInt32.toUInt32 = UInt32.ofInt (v.bmod (2 ^ 8)) := by
  rw [toUInt32_eq_ofInt, Int8.toInt_toInt32, Int32.toInt_toInt8, toInt_ofInt_uint32,
    Int.bmod_bmod_of_dvd (by decide)]

/-- Extending the sign of the low two bytes. -/
theorem extend16_ofInt (v : Int) :
    (UInt32.ofInt v).toInt32.toInt16.toInt32.toUInt32 = UInt32.ofInt (v.bmod (2 ^ 16)) := by
  rw [toUInt32_eq_ofInt, Int16.toInt_toInt32, Int32.toInt_toInt16, toInt_ofInt_uint32,
    Int.bmod_bmod_of_dvd (by decide)]

/-- Keeping some of the low bits. -/
theorem and_ofInt (v : Int) (bits : Nat) (hbits : bits ≤ 32) {mask : UInt32}
    (hmask : mask.toNat = 2 ^ bits - 1) : UInt32.ofInt v &&& mask = UInt32.ofInt (v % 2 ^ bits) := by
  have hdvd : (2 : Int) ^ bits ∣ 2 ^ 32 := pow_dvd_pow 2 hbits
  have hpos : (0 : Int) < 2 ^ bits := Int.pow_pos (by decide)
  have hlow : v % 2 ^ bits % 2 ^ 32 = v % 2 ^ bits :=
    Int.emod_eq_of_lt (Int.emod_nonneg _ hpos.ne')
      (lt_of_lt_of_le (Int.emod_lt_of_pos _ hpos) (Int.le_of_dvd (by decide) hdvd))
  rw [← UInt32.toNat_inj, ← Int.natCast_inj, toNat_ofInt_uint32, hlow, UInt32.toNat_and, hmask,
    Nat.and_two_pow_sub_one_eq_mod, Int.natCast_emod, toNat_ofInt_uint32, Nat.cast_pow]
  exact Int.emod_emod_of_dvd v hdvd

/-- A word that holds a signed integer is widened by its sign. -/
theorem widenSigned_ofInt {v : Int} (hlo : -2 ^ 31 ≤ v) (hhi : v < 2 ^ 31) :
    (UInt32.ofInt v).toInt32.toInt64.toUInt64 = UInt64.ofInt v := by
  rw [toUInt64_eq_ofInt, Int32.toInt_toInt64, toInt_ofInt_uint32, Int.bmod_eq_of_le]
  all_goals omega

/-- A word that holds a natural number is widened by zeros. -/
theorem widenUnsigned_ofInt {v : Int} (hlo : 0 ≤ v) (hhi : v < 2 ^ 32) :
    (UInt32.ofInt v).toUInt64 = UInt64.ofInt v := by
  rw [← UInt64.toNat_inj, ← Int.natCast_inj, UInt32.toNat_toUInt64, toNat_ofInt_uint32,
    toNat_ofInt_uint64]
  omega

/-- A double word is narrowed to its low half. -/
theorem narrow_ofInt (v : Int) : (UInt64.ofInt v).toUInt32 = UInt32.ofInt v := by
  rw [← UInt32.toNat_inj, ← Int.natCast_inj, UInt64.toNat_toUInt32, Int.natCast_emod,
    toNat_ofInt_uint64, toNat_ofInt_uint32]
  exact Int.emod_emod_of_dvd v (by decide)

/-! ### Ranges -/

namespace IntRange

variable {r r' : IntRange} {v w : Int} {isSigned : Bool} {bits : Nat}

theorem contains_iff : r.contains v = true ↔ r.lo ≤ v ∧ v ≤ r.hi := by
  simp [contains]

/-- What is in a range is in every range around it. -/
theorem contains_of_within (h : r.within r' = true) (hv : r.contains v = true) :
    r'.contains v = true := by
  have hends : r'.lo ≤ r.lo ∧ r.hi ≤ r'.hi := by simpa [within] using h
  have hv := contains_iff.1 hv
  exact contains_iff.2 ⟨hends.1.trans hv.1, hv.2.trans hends.2⟩

/-- The integers that are told by some number of bits. -/
def ofBits (isSigned : Bool) (bits : Nat) : IntRange := if isSigned then signed bits else unsigned bits

/-- The range of the signed integers of some bits is half open. -/
theorem contains_signed :
    (signed bits).contains v = true ↔ -2 ^ (bits - 1) ≤ v ∧ v < 2 ^ (bits - 1) := by
  rw [contains_iff, signed, Nat.one_shiftLeft, Nat.cast_pow]
  exact Iff.and Iff.rfl Int.le_sub_one_iff

/-- The range of the unsigned integers of some bits starts with zero. -/
theorem contains_unsigned : (unsigned bits).contains v = true ↔ 0 ≤ v ∧ v < 2 ^ bits := by
  rw [contains_iff, unsigned, Nat.one_shiftLeft, Nat.cast_pow]
  exact Iff.and Iff.rfl Int.le_sub_one_iff

/-- The integer of some number of bits that has the low bits of another. -/
def wrap (isSigned : Bool) (bits : Nat) (v : Int) : Int :=
  if isSigned then v.bmod (2 ^ bits) else v % 2 ^ bits

/-- Wrapping changes an integer by a multiple of the modulus only. -/
theorem wrap_modEq (isSigned : Bool) (bits : Nat) (v : Int) :
    wrap isSigned bits v ≡ v [ZMOD 2 ^ bits] := by
  unfold wrap
  split
  · have hmod : v.bmod (2 ^ bits) % (2 ^ bits : Nat) = v % (2 ^ bits : Nat) := Int.bmod_emod
    rwa [Nat.cast_pow] at hmod
  · exact Int.mod_modEq v _

/-- Wrapping leads into the range. -/
theorem contains_wrap (hbits : 0 < bits) :
    (ofBits isSigned bits).contains (wrap isSigned bits v) = true := by
  cases isSigned with
  | true =>
    have hhalf : 2 ^ bits = 2 * 2 ^ (bits - 1) := (mul_pow_sub_one hbits.ne' 2).symm
    have hpos : 0 < 2 * 2 ^ (bits - 1) := Nat.mul_pos (by decide) (Nat.two_pow_pos _)
    have hlo : -((2 * 2 ^ (bits - 1) : Nat) / 2 : Int) ≤ v.bmod (2 * 2 ^ (bits - 1)) :=
      Int.le_bmod hpos
    have hhi : v.bmod (2 * 2 ^ (bits - 1)) < ((2 * 2 ^ (bits - 1) : Nat) + 1 : Int) / 2 :=
      Int.bmod_lt hpos
    have hcast : ((2 ^ (bits - 1) : Nat) : Int) = 2 ^ (bits - 1) := Nat.cast_pow 2 _
    refine contains_signed.2 ?_
    rw [wrap, if_pos rfl, hhalf, ← hcast]
    omega
  | false =>
    have hpos : (0 : Int) < 2 ^ bits := Int.pow_pos (by decide)
    exact contains_unsigned.2 ⟨Int.emod_nonneg _ hpos.ne', Int.emod_lt_of_pos _ hpos⟩

/-- Congruent integers are the same if they are close to each other. -/
theorem eq_of_modEq (lo : Int) {m : Int} (hv : lo ≤ v ∧ v < lo + m) (hw : lo ≤ w ∧ w < lo + m)
    (h : v ≡ w [ZMOD m]) : v = w := by
  have hsub : (v - lo) % m = (w - lo) % m := h.sub_right lo
  rw [Int.emod_eq_of_lt (by omega) (by omega), Int.emod_eq_of_lt (by omega) (by omega)] at hsub
  omega

/-- Only one integer of some number of bits has some low bits. -/
theorem eq_of_contains (hbits : 0 < bits) (hv : (ofBits isSigned bits).contains v = true)
    (hw : (ofBits isSigned bits).contains w = true) (h : v ≡ w [ZMOD 2 ^ bits]) : v = w := by
  cases isSigned with
  | true =>
    have hhalf : (2 : Int) ^ bits = 2 * 2 ^ (bits - 1) := (mul_pow_sub_one hbits.ne' 2).symm
    have hv := contains_signed.1 hv
    have hw := contains_signed.1 hw
    exact eq_of_modEq (-2 ^ (bits - 1)) (by omega) (by omega) h
  | false =>
    have hv := contains_unsigned.1 hv
    have hw := contains_unsigned.1 hw
    exact eq_of_modEq 0 (by omega) (by omega) h

/-- Wrapping is characterised by this: there is one integer of the range in each class of congruent
integers. -/
theorem eq_wrap (hbits : 0 < bits) (hw : (ofBits isSigned bits).contains w = true)
    (h : w ≡ v [ZMOD 2 ^ bits]) : w = wrap isSigned bits v :=
  eq_of_contains hbits hw (contains_wrap hbits) (h.trans (wrap_modEq isSigned bits v).symm)

/-- Zero is in the range of all integer types. -/
theorem contains_zero (isSigned : Bool) (bits : Nat) :
    (ofBits isSigned bits).contains 0 = true := by
  cases isSigned with
  | true =>
    have hpos : (0 : Int) < 2 ^ (bits - 1) := Int.pow_pos (by decide)
    exact contains_signed.2 ⟨by omega, hpos⟩
  | false => exact contains_unsigned.2 ⟨Int.le_refl 0, Int.pow_pos (by decide)⟩

end IntRange

/-! ### Cells -/

namespace Category

/-- The number of bits of an integer category. -/
def bits : Category → Nat
  | i64 => 64
  | _ => 32

end Category

namespace Cell

/-- The low bits of an integer in a cell of an integer category. -/
def ofInt : Category → Int → Cell
  | .i64, v => i64 (.ofInt v)
  | _, v => i32 (.ofInt v)

/-- The cell of an integer has the category that was asked for. -/
theorem category_ofInt {k : Category} (hk : k.isInteger = true) (v : Int) :
    (ofInt k v).category = k := by
  cases k <;> simp_all [ofInt, category, Category.isInteger]

/-- Cells hold the same bits exactly if the integers are congruent. -/
theorem ofInt_inj {k : Category} {v w : Int} :
    ofInt k v = ofInt k w ↔ v ≡ w [ZMOD 2 ^ k.bits] := by
  cases k <;> simp only [ofInt, i32.injEq, i64.injEq, Category.bits, ofInt_uint32_inj,
    ofInt_uint64_inj]

/-- A change of category keeps an integer that the cell holds, if the cell is read by its sign. -/
theorem convertInteger?_ofInt {k k' : Category} (hk : k.isInteger = true) (hk' : k'.isInteger = true)
    {isSigned : Bool} {v : Int} (hv : (IntRange.ofBits isSigned k.bits).contains v = true) :
    (ofInt k v).convertInteger? isSigned k' = some (ofInt k' v) := by
  cases k <;> cases k' <;> simp only [Category.isInteger, Bool.false_eq_true] at hk hk'
  case i32.i32 => rfl
  case i64.i64 => rfl
  case i64.i32 => exact congrArg (some ∘ i32) (narrow_ofInt v)
  case i32.i64 =>
    cases isSigned with
    | true =>
      obtain ⟨hlo, hhi⟩ := IntRange.contains_signed.1 hv
      exact congrArg (some ∘ i64) (widenSigned_ofInt hlo hhi)
    | false =>
      obtain ⟨hlo, hhi⟩ := IntRange.contains_unsigned.1 hv
      exact congrArg (some ∘ i64) (widenUnsigned_ofInt hlo hhi)

/-- The test for zero tells whether the integer that the cell holds is zero. -/
theorem nonZero?_ofInt {w : Width} {isSigned : Bool} {v : Int}
    (hv : (IntRange.ofBits isSigned w.category.bits).contains v = true) :
    nonZero? w (ofInt w.category v) = some (ofInt .i32 (if v = 0 then 0 else 1)) := by
  have hzero : v ≡ 0 [ZMOD 2 ^ w.category.bits] ↔ v = 0 :=
    ⟨IntRange.eq_of_contains (by cases w <;> decide) hv (IntRange.contains_zero _ _),
      fun h ↦ h ▸ .rfl⟩
  cases w with
  | w32 =>
    have hbits : UInt32.ofInt v = 0 ↔ v = 0 := ofInt_uint32_inj.trans hzero
    show some (i32 (if UInt32.ofInt v = 0 then 0 else 1)) = _
    simp only [hbits]
    split <;> rfl
  | w64 =>
    have hbits : UInt64.ofInt v = 0 ↔ v = 0 := ofInt_uint64_inj.trans hzero
    show some (i32 (if UInt64.ofInt v = 0 then 0 else 1)) = _
    simp only [hbits]
    split <;> rfl

end Cell

namespace Host

variable {h : Host} {c : Configuration} {v v' : Cell}

/-- An instruction that replaces the top of the stack. -/
theorem replace_push {f : Cell → Option Cell} (hf : f v = some v') :
    replace f (c.push v) = .ok (c.push v') := by
  simp only [replace, Configuration.push, hf]

/-- Code of one instruction that completes. -/
theorem run_singleton {i : SymbolicInstruction} {c' : Configuration} (hstep : h.step i c = .ok c') :
    h.run [i] c = .ok c' := by
  simp only [run, hstep]

end Host

end StackLowering
