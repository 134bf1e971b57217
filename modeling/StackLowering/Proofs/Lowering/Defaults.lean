import StackLowering.Proofs.Lowering.Literals

/-!
# Defaults

The constant that stands in for an argument that is missing. An integer default is brought into the
range of the parameter type when the call is lowered, and this leaves what the same integer leaves if
it is written as the argument (`Lower.supply_int_like_literal`), although a written integer is wrapped
by code that runs, if at all.

A truth value is a value of every integer type. A floating-point default is truncated to a 64-bit
integer whose low bits are pushed, and nothing wraps it: for `bool` and for a type of one or two bytes
the cell holds a value of the type only if the integer, read as a 32-bit number, happens to be in
range (`Lower.supply_holds_iff`).
-/

namespace StackLowering

/-! ### Wrapped integers -/

/-- A double word of which no more than some low bits are kept. -/
theorem toInt_toInt64_of_low (value : Int64) (bits : Nat) (hbits : bits < 64) {word : UInt64}
    (hword : word.toNat = value.toUInt64.toNat % 2 ^ bits) :
    word.toInt64.toInt = value.toInt % 2 ^ bits := by
  have hpow : 2 ^ bits ≤ 2 ^ 63 := Nat.pow_le_pow_right (by decide) (by omega)
  have hlt : value.toUInt64.toNat % 2 ^ bits < 2 ^ bits := Nat.mod_lt _ (Nat.two_pow_pos bits)
  have hsigned : word.toInt64.toInt = Int.bmod word.toNat (2 ^ 64) := BitVec.toInt_eq_toNat_bmod _
  rw [hsigned, hword, Int.bmod_eq_of_le (by omega) (by omega), Int.natCast_emod,
    toUInt64_eq_ofInt, toNat_ofInt_uint64, Nat.cast_pow]
  exact Int.emod_emod_of_dvd _ (pow_dvd_pow 2 (by omega))

namespace Primitive

variable {pointer : Width} {p : Primitive} {k : Category} {r : IntRange}

/-- An integer that is wrapped into a type has the bits of what it becomes in the type. -/
theorem ofInt_wrap (hp : p.valueRange? pointer = some r) (hk : p.category? pointer = some k)
    (value : Int64) :
    Cell.ofInt k (p.wrap value).toInt = Cell.ofInt k (p.converted pointer value.toInt) := by
  rcases eq_bool_or_isInteger hp with ⟨rfl, -⟩ | hinteger
  · have hzero : value.toInt = 0 ↔ value = 0 := Int64.toInt_inj (y := 0)
    rw [converted, if_pos rfl, wrap]
    simp only [hzero]
    split <;> rfl
  rw [converted_of_isInteger hinteger]
  by_cases hnil : p.normalize = []
  · -- the bits that do not belong to the type are cut off by the cell
    have hsame : p.wrap value = value := by
      cases p <;> first | rfl | exact absurd hnil (List.cons_ne_nil _ _) | cases hinteger
    have hmod := IntRange.wrap_modEq p.isSigned (p.bits pointer) value.toInt
    rw [bits_of_normalize_eq_nil hinteger hk hnil] at hmod ⊢
    rw [hsame, Cell.ofInt_inj.2 hmod]
  refine congrArg (Cell.ofInt k) ?_
  cases p with
  | int8 => exact (Int8.toInt_toInt64 _).trans (Int64.toInt_toInt8 value)
  | int16 => exact (Int16.toInt_toInt64 _).trans (Int64.toInt_toInt16 value)
  | uint8 => exact toInt_toInt64_of_low value 8 (by decide) rfl
  | uint16 => exact toInt_toInt64_of_low value 16 (by decide) rfl
  | _ => exact absurd rfl hnil

/-- Only the floating-point types can be stored and have no range. -/
theorem isFloat_of_valueRange?_eq_none (hp : p ≠ void) (h : p.valueRange? pointer = none) :
    p.isFloat = true := by
  revert hp h
  cases pointer <;> cases p <;> decide

theorem wrap_of_isFloat (hp : p.isFloat = true) (value : Int64) : p.wrap value = value := by
  cases p <;> first | rfl | exact absurd hp Bool.false_ne_true

/-- A truth value is a value of every type with a range. -/
theorem contains_truth (hp : p.valueRange? pointer = some r) (value : Bool) :
    r.contains (if value then 1 else 0 : Int64).toInt = true := by
  have hall : ∀ r ∈ p.valueRange? pointer,
      r.contains (if value then 1 else 0 : Int64).toInt = true := by
    cases value <;> cases pointer <;> cases p <;> decide
  exact hall r hp

/-- Whether a type is kept within its range by code rather than by its cell. -/
def isShort (p : Primitive) : Bool := p == bool || !p.normalize.isEmpty

/-- A cell that holds the low bits of an integer holds a value of a type, unless the type is shorter
than the cell and the integer, read as a 32-bit number, is out of range. -/
theorem exists_holds_ofInt_iff (hp : p.valueRange? pointer = some r)
    (hk : p.category? pointer = some k) (v : Int) :
    (∃ w, p.Holds pointer w (.ofInt k v)) ↔
      (p.isShort = true → r.contains (v.bmod (2 ^ 32)) = true) := by
  cases hshort : p.isShort with
  | true =>
    obtain rfl : Category.i32 = k := by
      cases p <;> first | exact Option.some.inj hk | exact absurd hshort (by decide)
    have hwithin : r.within (.signed 32) = true := by
      have hall : ∀ r ∈ p.valueRange? pointer, r.within (.signed 32) = true := by
        revert hshort
        cases pointer <;> cases p <;> decide
      exact hall r hp
    have hmod : v.bmod (2 ^ 32) ≡ v [ZMOD 2 ^ 32] := Int.bmod_emod
    have hsigned : (IntRange.ofBits true 32).contains (v.bmod (2 ^ 32)) = true :=
      IntRange.contains_wrap (by decide)
    refine ⟨fun ⟨w, hw⟩ _ ↦ ?_, fun hv ↦ ⟨v.bmod (2 ^ 32), ⟨r, hp, hv rfl⟩, .i32, hk, ?_⟩⟩
    · -- the value that is held is the only one in the range of 32 bits
      obtain ⟨r', hr', hcontains⟩ := hw.exists_range
      obtain rfl : r' = r := Option.some.inj (hr'.symm.trans hp)
      obtain ⟨k', hk', hcell⟩ := hw.exists_category
      obtain rfl : k' = .i32 := Option.some.inj (hk'.symm.trans hk)
      have hw : (IntRange.ofBits true 32).contains w = true :=
        IntRange.contains_of_within hwithin hcontains
      have heq : w = v.bmod (2 ^ 32) := IntRange.eq_of_contains (by decide) hw hsigned
        ((Cell.ofInt_inj.1 hcell).symm.trans hmod.symm)
      rwa [← heq]
    · exact Cell.ofInt_inj.2 hmod.symm
  | false =>
    have hinteger : p.isInteger = true := by
      refine (eq_bool_or_isInteger hp).resolve_left ?_
      rintro ⟨rfl, -⟩
      exact absurd hshort (by decide)
    have hnil : p.normalize = [] := by
      cases p <;> first | rfl | exact absurd hshort (by decide)
    have hmod := IntRange.wrap_modEq p.isSigned (p.bits pointer) v
    rw [← converted_of_isInteger hinteger, bits_of_normalize_eq_nil hinteger hk hnil] at hmod
    refine iff_of_true ⟨p.converted pointer v, ⟨r, hp, contains_converted hp⟩, k, hk, ?_⟩ nofun
    exact Cell.ofInt_inj.2 hmod.symm

end Primitive

theorem DefaultValue.constant_int (p : Primitive) (value : Int64) (k : Category) :
    (int value).constant p.fingerprint k = .ofInt (p.wrap value) k := by
  rw [constant, Primitive.ofFingerprint?_fingerprint]

namespace Lower

variable {s : LoweringState} {p : Primitive} {k : Category} {r : IntRange}

/-- A default for a parameter that can be stored is pushed as one constant. -/
theorem run_supply (hs : s.symbols.registry.HasPrimitives)
    (hk : p.category? s.symbols.registry.width = some k) (span : Span) (name : String)
    (value : DefaultValue) :
    (supply span ⟨name, p.fingerprint, some value⟩).run s =
      ⟨(), s, { code := [⟨s.line, .const (value.constant p.fingerprint k)⟩] }⟩ := by
  obtain ⟨layout, hlayout, rfl⟩ := Option.map_eq_some_iff.1 hk
  have hregistry : registry.run s = ⟨s.symbols.registry, s, .empty⟩ := rfl
  unfold supply pushDefault
  dsimp only
  rw [run_bind, hregistry, hs.layout? p, hlayout]
  rfl

/-- An integer that is omitted, because it is the default of a parameter of a primitive type other
than `void`, leaves on every stack the cell that it leaves if it is written as the argument; neither
reports an error. -/
theorem supply_int_like_literal (hs : s.symbols.registry.HasPrimitives) (hp : p ≠ .void)
    (value : Int64) (name : String) (span span' : Span) :
    ∃ cell, (supply span ⟨name, p.fingerprint, some (.int value)⟩).Pushes s cell ∧
      ((Operand.literal (.int value) span').check p.fingerprint).Pushes s p.fingerprint cell := by
  obtain ⟨layout, hlayout⟩ : ∃ layout, p.layout s.symbols.registry.width = some layout := by
    cases p <;> first | exact absurd rfl hp | exact ⟨_, rfl⟩
  have hk : p.category? s.symbols.registry.width = some layout.category := by
    rw [Primitive.category?, hlayout, Option.map_some]
  have hrun := run_supply hs hk span name (.int value)
  rw [DefaultValue.constant_int] at hrun
  cases hrange : p.valueRange? s.symbols.registry.width with
  | some r =>
    obtain ⟨cell, hcell⟩ :=
      Primitive.exists_holds hrange (Primitive.contains_converted (v := value.toInt) hrange)
    refine ⟨cell, .of_run hrun ?_, Operand.pushes_check_literal span' hcell⟩
    obtain ⟨k, hk', rfl⟩ := hcell.exists_category
    obtain rfl := Option.some.inj (hk.symm.trans hk')
    rw [← Primitive.ofInt_wrap hrange hk]
    exact Cell.ofConstant?_ofInt (Primitive.isInteger_of_valueRange? hrange hk) _
  | none =>
    -- a floating-point type has room for every integer, and wraps none
    have hfloat := Primitive.isFloat_of_valueRange?_eq_none hp hrange
    have hconstant := Literal.constantAs?_int hlayout value
    rw [hfloat, Bool.true_or, if_pos rfl] at hconstant
    rw [Primitive.wrap_of_isFloat hfloat] at hrun
    have hcheck := Operand.run_check_literal_of_some hconstant span'
    obtain ⟨cell, hcell⟩ :
        ∃ cell, Cell.ofConstant? (.ofInt value layout.category) = some cell := by
      cases layout.category <;> exact ⟨_, rfl⟩
    exact ⟨cell, .of_run hrun hcell, .of_run hcheck hcell, by rw [hcheck]⟩

/-- Both ways, 300 is 44 as a `uint8`. -/
theorem supply_int_like_literal_uint8 :
    let s : LoweringState := { symbols := { registry := .withPrimitives .w32 } }
    (supply .nowhere ⟨"x", Primitive.uint8.fingerprint, some (.int 300)⟩).Pushes s (.i32 44) ∧
      ((Operand.literal (.int 300) .nowhere).check Primitive.uint8.fingerprint).Pushes s
        Primitive.uint8.fingerprint (.i32 44) := by
  intro s
  have hs : s.symbols.registry.HasPrimitives := Registry.hasPrimitives_withPrimitives .w32
  obtain ⟨cell, hsupply, hcheck⟩ :=
    supply_int_like_literal hs (p := .uint8) (by decide) 300 "x" .nowhere .nowhere
  have hrun := run_supply hs (p := .uint8) (k := .i32) rfl .nowhere "x" (.int 300)
  have hpushes : (supply .nowhere ⟨"x", Primitive.uint8.fingerprint, some (.int 300)⟩).Pushes s
      (.i32 44) := .of_run hrun (by decide)
  obtain rfl : cell = .i32 44 := hsupply.unique hpushes
  exact ⟨hsupply, hcheck⟩

/-! ### Defaults that are values of their type -/

/-- A default for a parameter of `bool` or of an integer type is pushed as one constant, without
errors. The cell holds a value of the type, unless the default is a floating-point number, the type is
`bool` or one of one or two bytes, and the low bits of the truncated number, read as a 32-bit integer,
are out of range. -/
theorem supply_holds_iff (hs : s.symbols.registry.HasPrimitives)
    (hp : p.valueRange? s.symbols.registry.width = some r)
    (hk : p.category? s.symbols.registry.width = some k) (span : Span) (name : String)
    (value : DefaultValue) :
    (supply span ⟨name, p.fingerprint, some value⟩).run s =
        ⟨(), s, { code := [⟨s.line, .const (value.constant p.fingerprint k)⟩] }⟩ ∧
      ∃ cell, Cell.ofConstant? (value.constant p.fingerprint k) = some cell ∧
        ((∃ v, p.Holds s.symbols.registry.width v cell) ↔
          ∀ bits, value = .float bits → p.isShort = true →
            r.contains (int64OfFloat64 bits).toInt32.toInt = true) := by
  have hinteger := Primitive.isInteger_of_valueRange? hp hk
  refine ⟨run_supply hs hk span name value, ?_⟩
  cases value with
  | int value =>
    refine ⟨_, by rw [DefaultValue.constant_int, Cell.ofConstant?_ofInt hinteger], ?_⟩
    rw [Primitive.ofInt_wrap hp hk]
    exact iff_of_true ⟨_, ⟨r, hp, Primitive.contains_converted hp⟩, k, hk, rfl⟩ nofun
  | bool value =>
    refine ⟨_, Cell.ofConstant?_ofInt hinteger _, iff_of_true ?_ nofun⟩
    exact ⟨_, ⟨r, hp, Primitive.contains_truth hp value⟩, k, hk, rfl⟩
  | float bits =>
    have hconstant : (DefaultValue.float bits).constant p.fingerprint k =
        .ofInt (int64OfFloat64 bits) k := by
      cases k <;> first | rfl | cases hinteger
    refine ⟨_, by rw [hconstant, Cell.ofConstant?_ofInt hinteger], ?_⟩
    rw [Primitive.exists_holds_ofInt_iff hp hk, ← Int64.toInt_toInt32]
    exact ⟨fun h _ hvalue ↦ DefaultValue.float.inj hvalue ▸ h, fun h ↦ h bits rfl⟩

/-- The default 300.0 of a `uint8` is pushed as 300, which is no value of the type. -/
theorem supply_holds_iff_uint8 :
    let s : LoweringState := { symbols := { registry := .withPrimitives .w32 } }
    (supply .nowhere ⟨"x", Primitive.uint8.fingerprint, some (.float 0x4072c00000000000)⟩).run s =
        ⟨(), s, { code := [⟨1, .const (.i32 300)⟩] }⟩ ∧
      ¬ ∃ v, Primitive.uint8.Holds .w32 v (.i32 300) := by
  intro s
  have hs : s.symbols.registry.HasPrimitives := Registry.hasPrimitives_withPrimitives .w32
  have hrange : Primitive.uint8.valueRange? s.symbols.registry.width = some (.unsigned 8) := rfl
  obtain ⟨hrun, cell, hcell, hiff⟩ :=
    supply_holds_iff hs hrange (k := .i32) rfl .nowhere "x" (.float 0x4072c00000000000)
  have hconstant : (DefaultValue.float 0x4072c00000000000).constant Primitive.uint8.fingerprint .i32 =
      .i32 300 := by decide +kernel
  rw [hconstant] at hrun hcell
  obtain rfl : cell = .i32 300 := (Option.some.inj hcell).symm
  refine ⟨hrun, fun hholds ↦ ?_⟩
  exact absurd (hiff.1 hholds _ rfl (by decide)) (by decide +kernel)

end Lower

end StackLowering
