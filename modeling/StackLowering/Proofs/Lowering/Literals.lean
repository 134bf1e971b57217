import StackLowering.Proofs.Lowering.Conversion
import StackLowering.Proofs.Lowering.Steps

/-!
# Integer literals

What an integer literal leaves on the stack where a value of `bool` or of an integer type is expected.
There are two ways to get there. If the type is a number type that has room for the literal then one
constant of that type is pushed; otherwise the literal is pushed as an `int` or an `int64`, whichever
it fits first, and is converted. Both ways lead to the same cell, the one that holds what the integer
becomes in the type (`Primitive.converted`): a value that the type has room for stays as it is, and
what the type has no room for keeps the low bits that the type has.

The two ways are compared by what they push and not by their instructions (`Lower.Pushes`): on every
stack, the code leaves one more cell, which is the same for both. What is pushed that way is unique
(`Lower.Pushes.unique`). An integer that is written as a literal has at most 64 bits, so that it always
fits into one of `int` and `int64`, and the conversion that follows cannot be refused.
-/

namespace StackLowering

/-! ### Cells -/

/-- The constant of an integer is pushed as the low bits of the integer. -/
theorem Cell.ofConstant?_ofInt {k : Category} (hk : k.isInteger = true) (value : Int64) :
    ofConstant? (.ofInt value k) = some (ofInt k value.toInt) := by
  cases k with
  | i32 =>
    have hlow : value.toInt32.toUInt32 = UInt32.ofInt value.toInt := by
      rw [toUInt32_eq_ofInt, Int64.toInt_toInt32]
      exact ofInt_uint32_inj.2 Int.bmod_emod
    exact congrArg (some ∘ Cell.i32) hlow
  | i64 => exact congrArg (some ∘ Cell.i64) (toUInt64_eq_ofInt value)
  | f32 => simp [Category.isInteger] at hk
  | f64 => simp [Category.isInteger] at hk

namespace Primitive

variable {pointer : Width} {p q : Primitive} {r : IntRange} {v : Int} {cell cell' : Cell}

/-- A type with a range has an integer category. -/
theorem exists_category_of_valueRange? (hp : p.valueRange? pointer = some r) :
    ∃ k, p.category? pointer = some k ∧ k.isInteger = true := by
  have hsome : ∀ r ∈ p.valueRange? pointer, (p.category? pointer).isSome := by
    cases pointer <;> cases p <;> decide
  obtain ⟨k, hk⟩ := Option.isSome_iff_exists.1 (hsome r hp)
  exact ⟨k, hk, isInteger_of_valueRange? hp hk⟩

/-- Every member of a type is held by a cell. -/
theorem exists_holds (hp : p.valueRange? pointer = some r) (hv : r.contains v = true) :
    ∃ cell, p.Holds pointer v cell := by
  obtain ⟨k, hk, -⟩ := exists_category_of_valueRange? hp
  exact ⟨.ofInt k v, ⟨r, hp, hv⟩, k, hk, rfl⟩

/-- Only one cell holds a member of a type. -/
theorem Holds.unique (h : p.Holds pointer v cell) (h' : p.Holds pointer v cell') : cell = cell' := by
  obtain ⟨k, hk, rfl⟩ := h.exists_category
  obtain ⟨k', hk', rfl⟩ := h'.exists_category
  rw [Option.some.inj (hk.symm.trans hk')]

/-- The conversion between two primitive types of which the one converts to the other. -/
theorem find?_conversion (registry : Registry) (h : p.convertsTo q = true) :
    Conversion.find? registry p.fingerprint q.fingerprint =
      some (if p = q then .identity else .primitive p q) := by
  by_cases heq : p = q
  · rw [Conversion.find?, if_pos (congrArg _ heq), if_pos heq]
  · have hprimitive : Conversion.primitive? p.fingerprint q.fingerprint = some (.primitive p q) := by
      simp [Conversion.primitive?, ofFingerprint?_fingerprint, heq, h]
    rw [Conversion.find?, if_neg (mt fingerprint_injective heq), hprimitive, Option.some_or, if_neg heq]

/-- The code of the conversion of an integer leaves what the integer becomes in the other type. -/
theorem run_conversion (h : Host) (c : Configuration) (hq : q.valueRange? pointer = some r)
    (hcell : p.Holds pointer v cell) (hcell' : q.Holds pointer (q.converted pointer v) cell') :
    h.run ((if p = q then .identity else .primitive p q : Conversion).code pointer) (c.push cell) =
      .ok (c.push cell') := by
  by_cases heq : p = q
  · subst heq
    obtain ⟨r', hr', hv⟩ := hcell.exists_range
    rw [converted_of_contains hr' hv] at hcell'
    obtain rfl := hcell.unique hcell'
    rw [if_pos rfl]
    rfl
  · obtain ⟨cell'', hrun, hholds⟩ := run_conversionCode (h := h) (c := c) hq hcell
    rw [if_neg heq]
    rwa [hcell'.unique hholds]

/-- An integer converts to `bool` and to every number type. -/
theorem convertsTo_of_isInteger (hp : p.isInteger = true)
    (hq : q = bool ∨ q.isInteger = true ∨ q.isFloat = true) : p.convertsTo q = true := by
  rcases hq with rfl | hq | hq
  · simp [convertsTo, hp]
  · simp [convertsTo, hp, hq]
  · simp [convertsTo, hp, hq]

end Primitive

namespace Literal

variable {pointer : Width} {p : Primitive} {r : IntRange} {value : Int64} {layout : Layout}

/-- A literal that nothing is known about is a value of its type, an integer type. -/
theorem exists_holds_constant (pointer : Width) (value : Int64) :
    ∃ p : Primitive, p.isInteger = true ∧ p.fingerprint = (int value).type ∧
      ∃ cell, Cell.ofConstant? (int value).constant = some cell ∧
        p.Holds pointer value.toInt cell := by
  by_cases hfits : (IntRange.signed 32).contains value.toInt = true
  · have hconstant : (int value).constant = .ofInt value .i32 := if_pos hfits
    refine ⟨.int32, rfl, (if_pos hfits).symm, .ofInt .i32 value.toInt, ?_,
      ⟨_, rfl, hfits⟩, .i32, rfl, rfl⟩
    rw [hconstant, Cell.ofConstant?_ofInt rfl]
  · have hconstant : (int value).constant = .ofInt value .i64 := if_neg hfits
    have hwide : (IntRange.signed 64).contains value.toInt = true :=
      IntRange.contains_signed.2 ⟨value.le_toInt, value.toInt_lt⟩
    refine ⟨.int64, rfl, (if_neg hfits).symm, .ofInt .i64 value.toInt, ?_,
      ⟨_, rfl, hwide⟩, .i64, rfl, rfl⟩
    rw [hconstant, Cell.ofConstant?_ofInt rfl]

/-- The constant of an integer literal for a type that can be stored. -/
theorem constantAs?_int (hlayout : p.layout pointer = some layout) (value : Int64) :
    (int value).constantAs? pointer p.fingerprint =
      if p.isFloat || (p.range? pointer).any (·.contains value.toInt) then
        some (.ofInt value layout.category)
      else none := by
  simp only [constantAs?, Primitive.ofFingerprint?_fingerprint, hlayout, Option.bind_eq_bind,
    Option.bind_some]

/-- A type whose range contains the literal has room for it. -/
theorem constantAs?_int_of_contains (hp : p.valueRange? pointer = some r) (hne : p ≠ .bool)
    (hv : r.contains value.toInt = true) (hlayout : p.layout pointer = some layout) :
    (int value).constantAs? pointer p.fingerprint = some (.ofInt value layout.category) := by
  have hrange : p.range? pointer = some r := by
    cases p <;> first | exact absurd rfl hne | exact hp
  rw [constantAs?_int hlayout, hrange]
  simp [hv]

/-- What becomes of a literal at once is what its constant holds: no type has room for a literal that
is not among its members. -/
theorem constantAs?_int_eq_some {constant : Constant} (hp : p.valueRange? pointer = some r)
    (h : (int value).constantAs? pointer p.fingerprint = some constant) :
    r.contains value.toInt = true ∧
      ∃ k, p.category? pointer = some k ∧ constant = .ofInt value k := by
  obtain ⟨k, hk, -⟩ := Primitive.exists_category_of_valueRange? hp
  obtain ⟨layout, hlayout, rfl⟩ := Option.map_eq_some_iff.1 hk
  rw [constantAs?_int hlayout] at h
  obtain ⟨hfits, hconstant⟩ := Option.ite_none_right_eq_some.1 h
  refine ⟨?_, _, hk, (Option.some.inj hconstant).symm⟩
  cases p <;> simp_all [Primitive.valueRange?, Primitive.range?, Primitive.isFloat]

end Literal

/-! ### Computations that push a cell -/

/-- A computation that reports nothing and whose code leaves a cell on top of every stack. -/
structure Lower.Pushes {α : Type} (x : Lower α) (s : LoweringState) (cell : Cell) : Prop where
  errors_eq : (x.run s).output.errors = []
  run_code (h : Host) (c : Configuration) : h.run (x.code s) c = .ok (c.push cell)

/-- Code leaves the same cell however it is run. -/
theorem Lower.Pushes.unique {α : Type} {x : Lower α} {s : LoweringState} {cell cell' : Cell}
    (h : x.Pushes s cell) (h' : x.Pushes s cell') : cell = cell' := by
  have hrun := (h.run_code ⟨fun _ _ _ ↦ none, fun _ _ _ v ↦ v⟩ ⟨[], fun _ ↦ .i32 0, []⟩).symm.trans
    (h'.run_code _ _)
  exact (List.cons.inj (congrArg Configuration.stack (Except.ok.inj hrun))).1

/-- A constant is pushed as its cell. -/
theorem Lower.Pushes.of_run {α : Type} {x : Lower α} {s s' : LoweringState} {a : α} {line : UInt32}
    {constant : Constant} {cell : Cell}
    (hrun : x.run s = ⟨a, s', { code := [⟨line, .const constant⟩] }⟩)
    (hcell : Cell.ofConstant? constant = some cell) : x.Pushes s cell := by
  refine ⟨by rw [hrun], fun h c ↦ ?_⟩
  rw [code, hrun]
  refine Host.run_singleton ?_
  rw [Host.step, hcell]

/-- A computation that succeeds with a value of a type, which it leaves on top of every stack. -/
structure Attempt.Pushes (x : Attempt ValueInfo) (s : LoweringState) (type : Fingerprint)
    (cell : Cell) : Prop extends Lower.Pushes x.run s cell where
  value_eq : (x.run.run s).value = .ok (.computed type)

namespace Operand

variable {s : LoweringState} {p : Primitive} {r : IntRange} {value : Int64} {cell : Cell}
  {type expected : Fingerprint}

theorem run_infer_literal (value : Literal) (span : Span) (s : LoweringState) :
    (literal value span).infer.run.run s =
      ⟨.ok (.computed value.type), { s with line := span.line },
        { code := [⟨span.line, .const value.constant⟩] }⟩ := rfl

/-- A literal that takes on the expected type is pushed as one constant. -/
theorem run_check_literal_of_some {value : Literal} {constant : Constant}
    (h : value.constantAs? s.symbols.registry.width expected = some constant) (span : Span) :
    ((literal value span).check expected).run.run s =
      ⟨.ok (.computed expected), s, { code := [⟨s.line, .const constant⟩] }⟩ := by
  have hwidth : Lower.width.run s = ⟨s.symbols.registry.width, s, .empty⟩ := rfl
  unfold literal
  dsimp only
  rw [Attempt.run_lift_bind _ hwidth, h]
  rfl

/-- Any other literal is pushed for its own sake and converted. -/
theorem run_check_literal_of_none {value : Literal}
    (h : value.constantAs? s.symbols.registry.width expected = none) (span : Span) :
    ((literal value span).check expected).run.run s =
      ((literal value span).infer >>= convert span expected).run.run s := by
  have hwidth : Lower.width.run s = ⟨s.symbols.registry.width, s, .empty⟩ := rfl
  unfold literal
  dsimp only
  rw [Attempt.run_lift_bind _ hwidth, h]
  rfl

/-- A computed value is converted by the code of the conversion between the types. -/
theorem run_convert {conversion : Conversion}
    (h : Conversion.find? s.symbols.registry type expected = some conversion) (span : Span) :
    (convert span expected (.computed type)).run.run s =
      ⟨.ok (.computed expected), s,
        { code := (conversion.code s.symbols.registry.width).map (⟨s.line, ·⟩) }⟩ := by
  unfold convert
  split
  next heq =>
    have heq : type = expected := heq
    subst heq
    obtain rfl : Conversion.identity = conversion := Option.some.inj ((if_pos rfl).symm.trans h)
    rfl
  next =>
    rw [Attempt.run_registry_bind]
    dsimp only [ValueInfo.computed]
    rw [h]
    have hemit : (Lower.emitAll (conversion.code s.symbols.registry.width)).run s = ⟨(), s, _⟩ := rfl
    exact (Attempt.run_lift_bind _ hemit).trans (congrArg (Outcome.mk _ _) (Output.append_empty _))

/-- A literal that is pushed for its own sake and then converted is what it becomes in the type. -/
theorem pushes_infer_convert (span : Span)
    (hcell : p.Holds s.symbols.registry.width
      (p.converted s.symbols.registry.width value.toInt) cell) :
    ((literal (.int value) span).infer >>= convert span p.fingerprint).Pushes s p.fingerprint
      cell := by
  obtain ⟨r, hp, -⟩ := hcell.exists_range
  obtain ⟨q, hq, htype, plain, hplain, hholds⟩ :=
    Literal.exists_holds_constant s.symbols.registry.width value
  have hconverts : q.convertsTo p = true := by
    refine Primitive.convertsTo_of_isInteger hq ?_
    exact (Primitive.eq_bool_or_isInteger hp).imp And.left .inl
  have hconversion := Primitive.find?_conversion s.symbols.registry hconverts
  rw [htype] at hconversion
  have hrun := Attempt.run_bind_ok (convert span p.fingerprint)
    (run_infer_literal (.int value) span s)
  rw [run_convert (s := { s with line := span.line }) hconversion] at hrun
  refine ⟨⟨?_, fun h c ↦ ?_⟩, ?_⟩
  · rw [hrun]
    rfl
  · have hpush : h.run [.const (Literal.int value).constant] c = .ok (c.push plain) :=
      (Lower.Pushes.of_run (run_infer_literal (.int value) span s) hplain).run_code h c
    have hcode : ((literal (.int value) span).infer >>= convert span p.fingerprint).run.code s =
        [.const (Literal.int value).constant] ++
          (if q = p then .identity else .primitive q p : Conversion).code
            s.symbols.registry.width := by
      rw [Lower.code, hrun]
      simp [Output.instructions, Function.comp_def]
    rw [hcode, Host.run_append_ok hpush, Primitive.run_conversion h c hp hholds hcell]
  · rw [hrun]

/-- A literal that is checked against a type is what it becomes in the type. -/
theorem pushes_check_literal (span : Span)
    (hcell : p.Holds s.symbols.registry.width
      (p.converted s.symbols.registry.width value.toInt) cell) :
    ((literal (.int value) span).check p.fingerprint).Pushes s p.fingerprint cell := by
  obtain ⟨r, hp, -⟩ := hcell.exists_range
  cases hconstant : (Literal.int value).constantAs? s.symbols.registry.width p.fingerprint with
  | none =>
    have hrun := run_check_literal_of_none hconstant span
    obtain ⟨⟨herrors, hcode⟩, hvalue⟩ := pushes_infer_convert span hcell
    rw [Lower.code, ← hrun] at hcode
    exact ⟨⟨hrun ▸ herrors, hcode⟩, hrun ▸ hvalue⟩
  | some constant =>
    have hrun := run_check_literal_of_some hconstant span
    -- a type has room for a literal that is one of its members, and leaves such a literal alone
    obtain ⟨hv, k, hk, rfl⟩ := Literal.constantAs?_int_eq_some hp hconstant
    rw [Primitive.converted_of_contains hp hv] at hcell
    obtain rfl := hcell.unique ⟨⟨r, hp, hv⟩, k, hk, rfl⟩
    have hinteger := Primitive.isInteger_of_valueRange? hp hk
    exact ⟨.of_run hrun (Cell.ofConstant?_ofInt hinteger value), by rw [hrun]⟩

/-- An integer literal is accepted wherever a value of `bool` or of an integer type is expected,
without errors, and its code leaves on every stack the cell that holds what the integer becomes in the
type. So does the code that pushes the literal for its own sake and then converts it. If the type is
an integer type with the literal among its members, then the code is a single constant. -/
theorem check_literal_meaning (hp : p.valueRange? s.symbols.registry.width = some r)
    (value : Int64) (span : Span) :
    ∃ cell, p.Holds s.symbols.registry.width
        (p.converted s.symbols.registry.width value.toInt) cell ∧
      ((literal (.int value) span).check p.fingerprint).Pushes s p.fingerprint cell ∧
      ((literal (.int value) span).infer >>= convert span p.fingerprint).Pushes s p.fingerprint
        cell ∧
      (p ≠ .bool → r.contains value.toInt = true →
        ∃ constant, ((literal (.int value) span).check p.fingerprint).run.code s =
          [.const constant]) := by
  obtain ⟨cell, hcell⟩ := Primitive.exists_holds hp (Primitive.contains_converted hp)
  refine ⟨cell, hcell, pushes_check_literal span hcell, pushes_infer_convert span hcell,
    fun hne hv ↦ ?_⟩
  obtain ⟨k, hk, -⟩ := Primitive.exists_category_of_valueRange? hp
  obtain ⟨layout, hlayout, -⟩ := Option.map_eq_some_iff.1 hk
  have hconstant := Literal.constantAs?_int_of_contains hp hne hv hlayout
  refine ⟨.ofInt value layout.category, ?_⟩
  rw [Lower.code, run_check_literal_of_some hconstant]
  rfl

/-- Where a `uint8` is expected, 300 is 44. -/
theorem check_literal_meaning_uint8 :
    let s : LoweringState := { symbols := { registry := .withPrimitives .w32 } }
    Primitive.uint8.Holds .w32 44 (.i32 44) ∧
      ((literal (.int 300) .nowhere).check Primitive.uint8.fingerprint).Pushes s
        Primitive.uint8.fingerprint (.i32 44) := by
  intro s
  have hcell : Primitive.uint8.Holds .w32 44 (.i32 44) :=
    ⟨⟨_, rfl, by decide⟩, .i32, rfl, by decide⟩
  have hrange : Primitive.uint8.valueRange? s.symbols.registry.width = some (.unsigned 8) := rfl
  obtain ⟨cell, hholds, hpushes, -, -⟩ := check_literal_meaning hrange 300 .nowhere
  have hvalue : Primitive.uint8.converted s.symbols.registry.width (Int64.toInt 300) = 44 := by decide
  rw [hvalue] at hholds
  obtain rfl : cell = .i32 44 := hholds.unique hcell
  exact ⟨hcell, hpushes⟩

end Operand

end StackLowering
