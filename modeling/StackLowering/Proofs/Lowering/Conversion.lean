import StackLowering.Proofs.Lowering.Operand
import StackLowering.Proofs.Machine.Integers

/-!
# Conversions of integers

What the code of a conversion does to a value of `bool` or of an integer type when it runs. A cell
holds such a value by its low bits (`Primitive.Holds`), so the cell of a type of one or two bytes
holds nothing beyond the range of the type. The code of a conversion keeps to this: it leaves the one
value of the other type that has the same low bits, and for `bool` the outcome of the test for zero
(`Primitive.converted`).

A change of category reads the value by the sign of the type that it comes from; this keeps the
integer, or at least as many of its low bits as the other category holds. What is normalised
afterwards are the types of one and two bytes. If the step is left out then the value is in range
already, and would have stayed the same.
-/

namespace StackLowering

namespace Primitive

variable {pointer : Width} {p q : Primitive} {k k' : Category} {r : IntRange} {v : Int} {cell : Cell}
  {h : Host} {c : Configuration}

/-! ### Values in cells -/

/-- The number of bits that a value takes in memory. -/
def bits (pointer : Width) (p : Primitive) : Nat :=
  match p.layout pointer with
  | some layout => 8 * layout.size.toNat
  | none => 0

/-- A cell holds a value of `bool` or of an integer type, by its low bits. -/
structure Holds (pointer : Width) (p : Primitive) (v : Int) (cell : Cell) : Prop where
  exists_range : ∃ r, p.valueRange? pointer = some r ∧ r.contains v = true
  exists_category : ∃ k, p.category? pointer = some k ∧ cell = .ofInt k v

/-- What an integer becomes in `bool` or in an integer type. -/
def converted (pointer : Width) (p : Primitive) (v : Int) : Int :=
  if p = bool then if v = 0 then 0 else 1 else IntRange.wrap p.isSigned (p.bits pointer) v

theorem converted_of_isInteger (hp : p.isInteger = true) :
    p.converted pointer v = IntRange.wrap p.isSigned (p.bits pointer) v := by
  refine if_neg ?_
  rintro rfl
  simp [isInteger] at hp

/-- The members of an integer type are told by its bits. -/
theorem valueRange?_of_isInteger (pointer : Width) (hp : p.isInteger = true) :
    p.valueRange? pointer = some (.ofBits p.isSigned (p.bits pointer)) ∧ 0 < p.bits pointer := by
  revert hp
  cases pointer <;> cases p <;> decide

/-- Only `bool` and the integer types have a range. -/
theorem eq_bool_or_isInteger (hp : p.valueRange? pointer = some r) :
    p = bool ∧ r = ⟨0, 1⟩ ∨ p.isInteger = true := by
  cases p <;> simp_all [valueRange?, range?, isInteger]

theorem isInteger_of_valueRange? (hp : p.valueRange? pointer = some r)
    (hk : p.category? pointer = some k) : k.isInteger = true := by
  rcases eq_bool_or_isInteger hp with ⟨rfl, -⟩ | hinteger
  · obtain rfl : Category.i32 = k := Option.some.inj hk
    rfl
  · exact isInteger_category hinteger hk

/-- A cell has room for every value, read by the sign of the type. -/
theorem contains_category (hp : p.valueRange? pointer = some r) (hk : p.category? pointer = some k)
    (hv : r.contains v = true) : (IntRange.ofBits p.isSigned k.bits).contains v = true := by
  have hwithin : ∀ r ∈ p.valueRange? pointer, ∀ k ∈ p.category? pointer,
      r.within (.ofBits p.isSigned k.bits) = true := by
    cases pointer <;> cases p <;> decide
  exact IntRange.contains_of_within (hwithin r hp k hk) hv

/-- A type that is not normalised fills its cell. -/
theorem bits_of_normalize_eq_nil (hp : p.isInteger = true) (hk : p.category? pointer = some k)
    (hnil : p.normalize = []) : p.bits pointer = k.bits := by
  have hbits : ∀ k ∈ p.category? pointer, p.bits pointer = k.bits := by
    revert hp hnil
    cases pointer <;> cases p <;> decide
  exact hbits k hk

/-- A value of a type stays as it is. -/
theorem converted_of_contains (hp : p.valueRange? pointer = some r) (hv : r.contains v = true) :
    p.converted pointer v = v := by
  rcases eq_bool_or_isInteger hp with ⟨rfl, rfl⟩ | hinteger
  · have hv : 0 ≤ v ∧ v ≤ 1 := IntRange.contains_iff.1 hv
    rw [converted, if_pos rfl]
    split <;> omega
  · obtain ⟨hrange, hbits⟩ := valueRange?_of_isInteger pointer hinteger
    obtain rfl : _ = r := Option.some.inj (hrange.symm.trans hp)
    rw [converted_of_isInteger hinteger]
    exact (IntRange.eq_wrap hbits hv .rfl).symm

/-- An integer becomes a value of the type. -/
theorem contains_converted (hp : p.valueRange? pointer = some r) :
    r.contains (p.converted pointer v) = true := by
  rcases eq_bool_or_isInteger hp with ⟨rfl, rfl⟩ | hinteger
  · rw [converted, if_pos rfl]
    split <;> decide
  · obtain ⟨hrange, hbits⟩ := valueRange?_of_isInteger pointer hinteger
    obtain rfl : _ = r := Option.some.inj (hrange.symm.trans hp)
    rw [converted_of_isInteger hinteger]
    exact IntRange.contains_wrap hbits

/-! ### Running a conversion -/

/-- The instructions that normalise a value leave the low bits that the type has. -/
theorem run_normalize (hq : q.isInteger = true) (hk : q.category? pointer = some k) :
    h.run q.normalize (c.push (.ofInt k v)) = .ok (c.push (.ofInt k (q.converted pointer v))) := by
  rw [converted_of_isInteger hq]
  by_cases hnil : q.normalize = []
  · -- there is nothing to be done: the cell has no other bits than the type
    have hmod := IntRange.wrap_modEq q.isSigned (q.bits pointer) v
    rw [bits_of_normalize_eq_nil hq hk hnil] at hmod ⊢
    rw [hnil, Cell.ofInt_inj.2 hmod]
    rfl
  cases q with
  | int8 =>
    obtain rfl : Category.i32 = k := Option.some.inj hk
    exact Host.run_singleton (Host.replace_push (congrArg (some ∘ Cell.i32) (extend8_ofInt v)))
  | int16 =>
    obtain rfl : Category.i32 = k := Option.some.inj hk
    exact Host.run_singleton (Host.replace_push (congrArg (some ∘ Cell.i32) (extend16_ofInt v)))
  | uint8 =>
    obtain rfl : Category.i32 = k := Option.some.inj hk
    exact Host.run_singleton (Host.replace_push
      (congrArg (some ∘ Cell.i32) (and_ofInt v 8 (by decide) (by decide))))
  | uint16 =>
    obtain rfl : Category.i32 = k := Option.some.inj hk
    exact Host.run_singleton (Host.replace_push
      (congrArg (some ∘ Cell.i32) (and_ofInt v 16 (by decide) (by decide))))
  | _ => exact absurd rfl hnil

/-- The test of a value for zero leaves a truth value. -/
theorem run_truthTest (hp : p.valueRange? pointer = some r) (hk : p.category? pointer = some k)
    (hv : r.contains v = true) :
    h.run [truthTest k] (c.push (.ofInt k v)) =
      .ok (c.push (.ofInt .i32 (bool.converted pointer v))) := by
  have hfits := contains_category hp hk hv
  rw [converted, if_pos rfl]
  have hinteger := isInteger_of_valueRange? hp hk
  cases k with
  | i32 => exact Host.run_singleton (Host.replace_push (Cell.nonZero?_ofInt (w := .w32) hfits))
  | i64 => exact Host.run_singleton (Host.replace_push (Cell.nonZero?_ofInt (w := .w64) hfits))
  | f32 => simp [Category.isInteger] at hinteger
  | f64 => simp [Category.isInteger] at hinteger

/-- A change of category keeps the integer. -/
theorem run_convert (hp : p.valueRange? pointer = some r) (hk : p.category? pointer = some k)
    (hk' : k'.isInteger = true) (hv : r.contains v = true) :
    h.run (if k = k' then [] else [.convert k k' (p.convertsSigned q)]) (c.push (.ofInt k v)) =
      .ok (c.push (.ofInt k' v)) := by
  split
  next heq =>
    rw [heq]
    rfl
  next =>
    have hinteger := isInteger_of_valueRange? hp hk
    have hsigned : p.convertsSigned q = p.isSigned := by
      rcases eq_bool_or_isInteger hp with ⟨rfl, -⟩ | hp
      · rfl
      · revert hp
        cases p <;> simp [isInteger, convertsSigned, isFloat]
    refine Host.run_singleton (Host.replace_push ?_)
    rw [hsigned, Host.convert?, if_pos (Cell.category_ofInt hinteger v),
      Cell.convertInteger?_ofInt hinteger hk' (contains_category hp hk hv), Option.getD_some]

/-- The code of a conversion leaves what the integer becomes in the other type. -/
theorem run_conversionCode {r' : IntRange} (hq : q.valueRange? pointer = some r')
    (hcell : p.Holds pointer v cell) :
    ∃ cell', h.run (p.conversionCode pointer q) (c.push cell) = .ok (c.push cell') ∧
      q.Holds pointer (q.converted pointer v) cell' := by
  obtain ⟨⟨r, hp, hv⟩, k, hk, rfl⟩ := hcell
  obtain ⟨here, hhere, rfl⟩ := Option.map_eq_some_iff.1 hk
  obtain ⟨there, hthere⟩ : ∃ there, q.layout pointer = some there := by
    rcases eq_bool_or_isInteger hq with ⟨rfl, -⟩ | hq
    · exact ⟨_, rfl⟩
    · revert hq
      cases q <;> simp [isInteger, layout]
  have hk' : q.category? pointer = some there.category := by rw [category?, hthere, Option.map_some]
  refine ⟨.ofInt there.category (q.converted pointer v), ?_,
    ⟨r', hq, contains_converted hq⟩, there.category, hk', rfl⟩
  simp only [conversionCode, hhere, hthere]
  split
  next hbool =>
    subst hbool
    obtain rfl : Layout.natural 1 .i32 = there := Option.some.inj hthere
    exact run_truthTest hp hk hv
  next hne =>
    have hinteger : q.isInteger = true :=
      (eq_bool_or_isInteger hq).resolve_left fun hbool ↦ hne hbool.1
    rw [Host.run_append_ok (run_convert hp hk (isInteger_of_valueRange? hq hk') hv)]
    split
    next hwithin =>
      -- the value is in range already
      have hwithin : r.within r' = true := by simpa only [rangeWithin, hp, hq] using hwithin
      rw [converted_of_contains hq (IntRange.contains_of_within hwithin hv)]
      rfl
    next => exact run_normalize hinteger hk'

end Primitive

namespace Conversion

/-- If a value of `bool` or of an integer type converts to another such type, then the code of the
conversion runs on every cell that holds the value, on any stack, and replaces it by a cell that holds
a value of the other type: for `bool`, whether the value is not zero, and otherwise the only member of
the type that is congruent to the value modulo the number of its bit patterns. -/
theorem run_code_primitive {pointer : Width} {p q : Primitive} {conversion : Conversion}
    (hfind : primitive? p.fingerprint q.fingerprint = some conversion) {r : IntRange}
    (hq : q.valueRange? pointer = some r) {v : Int} {cell : Cell} (hcell : p.Holds pointer v cell)
    (h : Host) (c : Configuration) :
    ∃ w cell', h.run (conversion.code pointer) (c.push cell) = .ok (c.push cell') ∧
      q.Holds pointer w cell' ∧
      if q = .bool then w = if v = 0 then 0 else 1
      else w ≡ v [ZMOD 2 ^ q.bits pointer] ∧
        ∀ w', r.contains w' = true → w' ≡ v [ZMOD 2 ^ q.bits pointer] → w' = w := by
  have hvalue : if q = .bool then q.converted pointer v = if v = 0 then 0 else 1
      else q.converted pointer v ≡ v [ZMOD 2 ^ q.bits pointer] ∧
        ∀ w', r.contains w' = true → w' ≡ v [ZMOD 2 ^ q.bits pointer] →
          w' = q.converted pointer v := by
    split
    next hbool => exact if_pos hbool
    next hne =>
      have hinteger : q.isInteger = true :=
        (Primitive.eq_bool_or_isInteger hq).resolve_left fun hbool ↦ hne hbool.1
      obtain ⟨hrange, hbits⟩ := Primitive.valueRange?_of_isInteger pointer hinteger
      obtain rfl : _ = r := Option.some.inj (hrange.symm.trans hq)
      rw [Primitive.converted_of_isInteger hinteger]
      exact ⟨IntRange.wrap_modEq _ _ v, fun w' ↦ IntRange.eq_wrap hbits⟩
  obtain ⟨p', q', hp', hq', hconversion⟩ := primitive?_eq_some hfind
  obtain rfl := Primitive.fingerprint_injective hp'
  obtain rfl := Primitive.fingerprint_injective hq'
  rcases hconversion with ⟨rfl, rfl⟩ | ⟨-, rfl⟩
  · -- a type converts to itself by no code, and its values stay as they are
    obtain ⟨r', hp, hv⟩ := hcell.exists_range
    refine ⟨v, cell, rfl, hcell, ?_⟩
    rwa [Primitive.converted_of_contains hp hv] at hvalue
  · obtain ⟨cell', hrun, hholds⟩ := Primitive.run_conversionCode (h := h) (c := c) hq hcell
    exact ⟨_, cell', hrun, hholds, hvalue⟩

/-- The largest 64-bit number becomes -1, the only 16-bit integer with all bits set. -/
theorem run_code_primitive_uint64 :
    let h : Host := ⟨fun _ _ _ ↦ none, fun _ _ _ v ↦ v⟩
    let c : Configuration := ⟨[], fun _ ↦ .i32 0, []⟩
    h.run ((primitive .uint64 .int16).code .w32) (c.push (.i64 0xffffffffffffffff)) =
      .ok (c.push (.i32 0xffffffff)) ∧ Primitive.int16.Holds .w32 (-1) (.i32 0xffffffff) := by
  intro h c
  have hcell : Primitive.uint64.Holds .w32 18446744073709551615 (.i64 0xffffffffffffffff) :=
    ⟨⟨_, rfl, by decide⟩, .i64, rfl, by decide⟩
  have hfind : primitive? Primitive.uint64.fingerprint Primitive.int16.fingerprint =
      some (primitive .uint64 .int16) := by decide
  have hrange : Primitive.int16.valueRange? .w32 = some (.signed 16) := rfl
  obtain ⟨w, cell', hrun, hholds, -, hunique⟩ := run_code_primitive hfind hrange hcell h c
  obtain rfl : -1 = w := hunique (-1) (by decide) (by decide)
  obtain ⟨k, hk, rfl⟩ := hholds.exists_category
  obtain rfl : Category.i32 = k := Option.some.inj hk
  exact ⟨hrun, hholds⟩

end Conversion

end StackLowering
