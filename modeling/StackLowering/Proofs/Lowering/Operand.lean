import StackLowering.Proofs.Lowering.Names

/-!
# Typing of operands

An operand is typed if it leaves one value of the type that it tells, or of the type that is expected,
and none if that is `void` (`Operand.Typed`). Literals and variables are typed, and a conversion
replaces a value of one type by one of another. Arguments that are bound to parameters leave one value
for each parameter, whatever arguments there are.

Values are told apart by their category only, which is what instructions go by: two types of the same
category may stand for each other on the stack. That is enough for a literal which takes on another
type, and for a class whose objects are held by addresses.

There is one value for each parameter also where something is wrong. An argument that cannot be lowered
is a trap, and so is a missing argument without a default; after a trap the stack may be taken to have
whatever is needed. An argument in excess is not evaluated, or its value is dropped again. So a call
can be typed after its arguments without asking whether there were errors
(`Lower.typed_bindArguments`).
-/

namespace StackLowering

/-! ### Conversions -/

namespace Primitive

variable {ctx : StackContext Constant String UInt32} {cells : List Category}

theorem ofFingerprint?_eq_some {type : Fingerprint} {p : Primitive}
    (h : ofFingerprint? type = some p) : p.fingerprint = type := by
  have hp := List.find?_some h
  simpa using hp

/-- The category of a primitive type on a machine with the given pointer width. -/
def category? (pointer : Width) (p : Primitive) : Option Category :=
  (p.layout pointer).map (·.category)

/-- Normalising replaces an integer of one or two bytes by another, and other values not at all. -/
theorem runs_normalize {pointer : Width} {p : Primitive} {c : Category}
    (h : p.category? pointer = some c) : ctx.Runs p.normalize (c :: cells) (c :: cells) := by
  cases p with
  | int8 => obtain rfl : Category.i32 = c := Option.some.inj h; exact .extend8S
  | uint8 => obtain rfl : Category.i32 = c := Option.some.inj h; exact .mask8
  | int16 => obtain rfl : Category.i32 = c := Option.some.inj h; exact .extend16S
  | uint16 => obtain rfl : Category.i32 = c := Option.some.inj h; exact .mask16
  | _ => exact .nil _

/-- The truth test of an integer leaves a truth value. -/
theorem runs_truthTest {c : Category} (h : c.isInteger = true) :
    ctx.Runs [truthTest c] (c :: cells) (.i32 :: cells) := by
  cases c with
  | i32 => exact .nonZero .w32
  | i64 => exact .nonZero .w64
  | f32 => simp [Category.isInteger] at h
  | f64 => simp [Category.isInteger] at h

/-- An integer has an integer category. -/
theorem isInteger_category {pointer : Width} {p : Primitive} {c : Category}
    (hp : p.isInteger = true) (h : p.category? pointer = some c) : c.isInteger = true := by
  revert hp h
  cases pointer <;> cases p <;> cases c <;> decide

/-- What converts to a truth value is an integer. -/
theorem isInteger_of_convertsTo_bool {p : Primitive} (h : p.convertsTo .bool = true) :
    p.isInteger = true := by
  revert h
  cases p <;> decide

/-- What converts and what it converts to can be stored. -/
theorem ne_void_of_convertsTo {p q : Primitive} (h : p.convertsTo q = true) :
    p ≠ .void ∧ q ≠ .void := by
  revert h
  cases p <;> cases q <;> decide

/-- The code of a conversion replaces a value of one primitive type by one of another. -/
theorem runs_conversionCode {pointer : Width} {p q : Primitive} {c c' : Category}
    (h : p.convertsTo q = true) (hp : p.category? pointer = some c)
    (hq : q.category? pointer = some c') :
    ctx.Runs (p.conversionCode pointer q) (c :: cells) (c' :: cells) := by
  obtain ⟨here, hhere, rfl⟩ := Option.map_eq_some_iff.1 hp
  obtain ⟨there, hthere, rfl⟩ := Option.map_eq_some_iff.1 hq
  simp only [conversionCode, hhere, hthere]
  -- a truth value is the outcome of a test; any other value is converted and then normalised
  split
  next hbool =>
    subst hbool
    have hinteger := isInteger_category (isInteger_of_convertsTo_bool h) hp
    obtain rfl : Layout.natural 1 .i32 = there := Option.some.inj hthere
    exact runs_truthTest hinteger
  next =>
    have hconvert : ctx.Runs (if here.category = there.category then []
        else [.convert here.category there.category (p.convertsSigned q)])
        (here.category :: cells) (there.category :: cells) := by
      split
      next heq =>
        rw [heq]
        exact .nil _
      next => exact .convert _ _ _
    refine hconvert.append ?_
    split
    · exact .nil _
    · exact runs_normalize hq

end Primitive

namespace Conversion

theorem primitive?_eq_some {source target : Fingerprint} {conversion : Conversion}
    (h : primitive? source target = some conversion) :
    ∃ p q : Primitive, p.fingerprint = source ∧ q.fingerprint = target ∧
      (p = q ∧ conversion = identity ∨ p.convertsTo q = true ∧ conversion = primitive p q) := by
  obtain ⟨p, hp, h⟩ := Option.bind_eq_some_iff.1 h
  obtain ⟨q, hq, h⟩ := Option.bind_eq_some_iff.1 h
  refine ⟨p, q, Primitive.ofFingerprint?_eq_some hp, Primitive.ofFingerprint?_eq_some hq, ?_⟩
  split at h
  next heq => exact .inl ⟨heq.1, (Option.some.inj h).symm⟩
  next =>
    split at h
    next hconverts => exact .inr ⟨hconverts, (Option.some.inj h).symm⟩
    next => simp at h

theorem eq_addressType_of_isAddress {type : Fingerprint} (h : isAddress type = true) :
    type = addressType := by
  have hp : Primitive.ofFingerprint? type = some .uintptr := by simpa [isAddress] using h
  exact (Primitive.ofFingerprint?_eq_some hp).symm

theorem handle?_eq_some {r : Registry} {source target : Fingerprint} {conversion : Conversion}
    (h : handle? r source target = some conversion) :
    conversion = reinterpret ∧
      ((r.class? source).isSome ∧ target = addressType ∨
        source = addressType ∧ (r.class? target).isSome) := by
  simp only [handle?] at h
  split at h
  next hhandle =>
    simp only [Bool.or_eq_true, Bool.and_eq_true] at hhandle
    refine ⟨(Option.some.inj h).symm, hhandle.imp ?_ ?_⟩
    · rintro ⟨hs, ht⟩
      exact ⟨hs, eq_addressType_of_isAddress ht⟩
    · rintro ⟨hs, ht⟩
      exact ⟨eq_addressType_of_isAddress hs, ht⟩
  next => simp at h

variable {E : Ending} {cells : List Category}

/-- The code of a conversion replaces a value of one type by one of another. -/
theorem runs_code (hE : E.Sound) {s : Symbols} (hs : s.Fits E) {source target : Fingerprint}
    {conversion : Conversion} (h : find? s.registry source target = some conversion) :
    E.context.Runs (conversion.code s.registry.width) (E.push source cells)
      (E.push target cells) := by
  have hwidth : E.symbols.registry.width = s.registry.width := hs.before.registry.width_eq
  have hobject {type : Fingerprint} (hclass : (s.registry.class? type).isSome) :
      E.push type cells = E.push addressType cells := by
    rw [hE.push_address, Ending.push_eq_cons (Ending.category?_object
      (hs.before.registry.class?_isSome hclass))]
  unfold find? at h
  split at h
  next heq =>
    obtain rfl := Option.some.inj h
    rw [heq]
    exact .nil _
  next =>
    -- a conversion of primitive types comes before one of an object and its address
    rcases Option.or_eq_some_iff.1 h with h | ⟨-, h⟩
    · rcases primitive?_eq_some h with ⟨p, q, rfl, rfl, ⟨rfl, rfl⟩ | ⟨hconverts, rfl⟩⟩
      · exact .nil _
      · obtain ⟨hp, hq⟩ := Primitive.ne_void_of_convertsTo hconverts
        obtain ⟨c, hc⟩ := (hE.sized_primitive hp).exists_category
        obtain ⟨c', hc'⟩ := (hE.sized_primitive hq).exists_category
        rw [Ending.push_eq_cons hc, Ending.push_eq_cons hc']
        rw [Registry.category?, hE.layout?_primitive, hwidth] at hc hc'
        exact Primitive.runs_conversionCode hconverts hc hc'
    · rcases handle?_eq_some h with ⟨rfl, ⟨hclass, rfl⟩ | ⟨rfl, hclass⟩⟩
      · rw [hobject hclass]
        exact .nil _
      · rw [hobject hclass]
        exact .nil _

end Conversion

/-- The constant of a literal has the category of its type. -/
theorem Literal.category?_constant (value : Literal) :
    ∃ p : Primitive, p ≠ .void ∧ p.fingerprint = value.type ∧
      ∀ pointer, p.category? pointer = value.constant.category? := by
  cases value with
  | int value =>
    by_cases hfits : (IntRange.signed 32).contains value.toInt = true
    · simp only [Literal.type, Literal.constant, if_pos hfits]
      exact ⟨.int32, by decide, rfl, fun _ ↦ rfl⟩
    · simp only [Literal.type, Literal.constant, if_neg hfits]
      exact ⟨.int64, by decide, rfl, fun _ ↦ rfl⟩
  | float bits => exact ⟨.float, by decide, rfl, fun _ ↦ rfl⟩
  | double bits => exact ⟨.double, by decide, rfl, fun _ ↦ rfl⟩
  | bool value => exact ⟨.bool, by decide, rfl, fun _ ↦ rfl⟩

/-! ### Operands -/

/-- An operand that leaves one value of the type that it tells or of the type that is expected, and
none if that is `void`. -/
structure Operand.Typed (E : Ending) (o : Operand) : Prop where
  infer (cells : List Category) :
    o.infer.Typed E True cells fun info cells' ↦
      E.Known info.type ∧ cells' = E.push info.type cells
  check (expected : Fingerprint) (cells : List Category) :
    (o.check expected).Typed E (E.Known expected) cells fun info cells' ↦
      info.type = expected ∧ cells' = E.push expected cells

namespace Operand

variable {E : Ending} {o : Operand} {cells : List Category} {span : Span}

theorem Typed.checkOrTrap (h : o.Typed E) (expected : Fingerprint) (cells : List Category) :
    (o.checkOrTrap expected).Typed E (E.Known expected) cells fun info cells' ↦
      info.type = expected ∧ cells' = E.push expected cells := by
  refine .bind (h.check expected cells) fun r cells' ↦ ?_
  cases r with
  | ok info => exact .pure fun ⟨_, hinfo⟩ ↦ hinfo info rfl
  | error error =>
    -- a trap may stand where a value of any type is expected
    exact .seq (.trap (E.push expected cells)) fun _ ↦ .pure fun _ ↦ ⟨rfl, rfl⟩

theorem Typed.inferOrTrap (h : o.Typed E) (cells : List Category) :
    o.inferOrTrap.Typed E True cells fun r cells' ↦
      match r with
      | some info => E.Known info.type ∧ cells' = E.push info.type cells
      | none => cells' = cells := by
  refine .bind (h.infer cells) fun r cells' ↦ ?_
  cases r with
  | ok info => exact .pure fun ⟨_, hinfo⟩ ↦ hinfo info rfl
  | error error => exact .seq (.trap cells) fun _ ↦ .pure fun _ ↦ rfl

/-- A value that is dropped leaves nothing behind. -/
theorem Typed.evaluateAndDrop (hE : E.Sound) (h : o.Typed E) (cells : List Category) :
    o.evaluateAndDrop.Typed E True cells fun _ cells' ↦ cells' = cells := by
  refine .bind (h.inferOrTrap cells) fun r cells' ↦ ?_
  cases r with
  | none => exact .pure And.right
  | some info =>
    show Lower.Typed E (True ∧ E.Known info.type ∧ cells' = E.push info.type cells) cells'
      (if info.type = voidType then _ else _) _
    split
    next hvoid =>
      refine .pure fun ⟨_, _, heq⟩ ↦ ?_
      rw [heq, hvoid, hE.push_void]
    next hvoid =>
      refine .emit cells fun ⟨_, hknown, heq⟩ ↦ ?_
      obtain ⟨c, hc⟩ := (hknown.resolve_left hvoid).exists_category
      rw [heq, Ending.push_eq_cons hc]
      exact .pop

/-- A value that is converted is replaced by one of the expected type. -/
theorem typed_convert (hE : E.Sound) {P : Prop} (span : Span) (expected : Fingerprint)
    (info : ValueInfo) (cells : List Category) :
    (convert span expected info).Typed E P (E.push info.type cells) fun info' cells' ↦
      info'.type = expected ∧ cells' = E.push expected cells := by
  unfold convert
  split
  next heq => exact .pure fun _ ↦ ⟨heq, by rw [heq]⟩
  next =>
    refine .bind (.lift .registry) fun r cells₁ ↦ ?_
    split
    next conversion hfind =>
      -- the conversion was found in the symbols at this moment
      refine .seq (.emitAll _ fun ⟨_, heq, s, hs, hr⟩ ↦ ?_) fun _ ↦ .pure fun _ ↦ ⟨rfl, rfl⟩
      subst hr
      rw [heq]
      exact Conversion.runs_code hE hs hfind
    next => exact .throw _

theorem typed_ofInference (hE : E.Sound) {x : Attempt ValueInfo}
    (h : ∀ cells, x.Typed E True cells fun info cells' ↦
      E.Known info.type ∧ cells' = E.push info.type cells) : (ofInference span x).Typed E := by
  have hinfer (cells : List Category) : (ofInference span x).infer.Typed E True cells
      fun info cells' ↦ E.Known info.type ∧ cells' = E.push info.type cells :=
    .seq (.setLine _) fun _ ↦ h cells
  refine ⟨hinfer, fun expected cells ↦ ?_⟩
  refine .bind ((hinfer cells).of_imp fun _ ↦ trivial) fun info cells' ↦ ?_
  exact .of_eq (fun hp ↦ hp.2.2) (typed_convert hE span expected info cells)

theorem Typed.paren (h : o.Typed E) (span : Span) : (o.paren span).Typed E :=
  ⟨fun cells ↦ .seq (.setLine _) fun _ ↦ h.infer cells, h.check⟩

/-! ### Literals and variables -/

/-- A constant pushes a value of every type of its category. -/
theorem runs_const {constant : Constant} {type : Fingerprint} {c : Category}
    (htype : E.symbols.registry.category? type = some c) (hc : constant.category? = some c) :
    E.context.Runs [.const constant] cells (E.push type cells) := by
  rw [Ending.push_eq_cons htype]
  exact .const hc

/-- A literal is a value of its type. -/
theorem runs_constant (hE : E.Sound) (value : Literal) :
    E.Sized value.type ∧ E.context.Runs [.const value.constant] cells (E.push value.type cells) := by
  obtain ⟨p, hp, htype, hcategory⟩ := value.category?_constant
  have hsized : E.Sized value.type := htype ▸ hE.sized_primitive hp
  obtain ⟨c, hc⟩ := hsized.exists_category
  refine ⟨hsized, runs_const hc ?_⟩
  rw [← hcategory E.symbols.registry.width, ← hc, ← htype, Registry.category?,
    hE.layout?_primitive]
  rfl

theorem category?_ofInt (value : Int64) (c : Category) :
    (Constant.ofInt value c).category? = some c := by
  cases c <;> rfl

/-- A literal that takes on a type is a value of that type. -/
theorem runs_constantAs? (hE : E.Sound) {value : Literal} {expected : Fingerprint}
    {constant : Constant}
    (h : value.constantAs? E.symbols.registry.width expected = some constant) :
    E.context.Runs [.const constant] cells (E.push expected cells) := by
  cases value with
  | int value =>
    obtain ⟨p, hp, h⟩ := Option.bind_eq_some_iff.1 h
    obtain ⟨layout, hlayout, h⟩ := Option.bind_eq_some_iff.1 h
    dsimp only at h
    split at h
    next =>
      obtain rfl := Option.some.inj h
      refine runs_const ?_ (category?_ofInt value layout.category)
      rw [← Primitive.ofFingerprint?_eq_some hp, Registry.category?, hE.layout?_primitive, hlayout,
        Option.map_some]
    next => simp at h
  | float bits => simp [Literal.constantAs?] at h
  | double bits => simp [Literal.constantAs?] at h
  | bool value => simp [Literal.constantAs?] at h

theorem typed_literal (hE : E.Sound) (value : Literal) (span : Span) :
    (literal value span).Typed E := by
  have hplain : (ofInference span do
      Lower.emit (.const value.constant)
      return .computed value.type).Typed E := by
    refine typed_ofInference hE fun cells ↦ ?_
    have hruns : E.Sized value.type ∧ E.context.Runs _ cells _ := runs_constant hE value
    exact .seq (.emit _ fun _ ↦ hruns.2) fun _ ↦ .pure fun _ ↦ ⟨hruns.1.known, rfl⟩
  refine ⟨hplain.infer, fun expected cells ↦ .bind (.lift .width) fun width cells' ↦ ?_⟩
  refine .of_eq (fun hp ↦ hp.2.1) ?_
  split
  next constant hconstant =>
    refine .seq (.emit _ fun ⟨_, _, hwidth⟩ ↦ ?_) fun _ ↦ .pure fun _ ↦ ⟨rfl, rfl⟩
    subst hwidth
    exact runs_constantAs? hE hconstant
  next => exact (hplain.check expected cells).of_imp And.left

theorem typed_var (hE : E.Sound) (name : String) (span : Span) : (var name span).Typed E := by
  refine typed_ofInference hE fun cells ↦ .bind (.lift .get) fun s cells' ↦ ?_
  split
  next v hv =>
    refine .seq (.emit (E.push v.type cells) fun ⟨_, heq, hs⟩ ↦ ?_)
      fun _ ↦ .pure fun ⟨_, _, hs⟩ ↦ ⟨(hs.frame.bindings hv).2.known, rfl⟩
    obtain ⟨hslot, hsized⟩ := hs.frame.bindings hv
    obtain ⟨c, hc⟩ := hsized.exists_category
    rw [heq, Ending.push_eq_cons hc]
    exact .getLocal (Option.bind_eq_some_iff.2 ⟨v.type, hslot, hc⟩)
  next => exact .throw _

end Operand

/-! ### Arguments -/

namespace Ending

variable {E : Ending}

/-- A stack with one value for each of some parameters. -/
def pushAll (E : Ending) (params : List Param) (cells : List Category) : List Category :=
  params.foldl (fun cells p ↦ E.push p.type cells) cells

theorem pushAll_append (params params' : List Param) (cells : List Category) :
    E.pushAll (params ++ params') cells = E.pushAll params' (E.pushAll params cells) :=
  List.foldl_append

end Ending

theorem DefaultValue.category?_constant (type : Fingerprint) (value : DefaultValue)
    (c : Category) : (value.constant type c).category? = some c := by
  cases value with
  | int value =>
    rw [DefaultValue.constant]
    split <;> exact Operand.category?_ofInt _ _
  | float bits => cases c <;> rfl
  | bool value => exact Operand.category?_ofInt _ c

namespace Lower

variable {E : Ending} {P : Prop} {cells : List Category}

/-- Every parameter without an argument is supplied with one value. -/
theorem typed_supply (span : Span) (param : Param) (cells : List Category) :
    (supply span param).Typed E P cells fun _ cells' ↦ cells' = E.push param.type cells := by
  unfold supply
  split
  next value _ =>
    refine .bind .registry fun r cells' ↦ ?_
    split
    next layout hlayout =>
      refine .emit _ fun ⟨_, heq, s, hs, hr⟩ ↦ ?_
      subst hr
      have hc : E.symbols.registry.category? param.type = some layout.category := by
        rw [Registry.category?, hs.before.registry.layout? hlayout, Option.map_some]
      rw [heq, Ending.push_eq_cons hc]
      exact .const (value.category?_constant _ _)
    next => exact .trap _
  next => exact .emit _ fun _ ↦ .trap _ _

theorem typed_supplyMissing (shortfall : CompileError) (span : Span) (missing : List Param)
    (cells : List Category) :
    (supplyMissing shortfall span missing).Typed E P cells fun _ cells' ↦
      cells' = E.pushAll missing cells := by
  have hpush : E.pushAll missing cells = E.pushAll (missing.dropWhile (·.default?.isSome))
      (E.pushAll (missing.takeWhile (·.default?.isSome)) cells) := by
    rw [← E.pushAll_append, List.takeWhile_append_dropWhile]
  have hsupply (params : List Param) (cells : List Category) :
      (params.forM (supply span)).Typed E P cells fun _ cells' ↦ cells' = E.pushAll params cells :=
    .forM (fun p cells ↦ E.push p.type cells) fun p _ cells ↦ typed_supply span p cells
  refine .seq (hsupply _ cells) fun _ ↦ ?_
  rw [hpush]
  split
  next hrest => exact .pure fun _ ↦ by rw [hrest]; rfl
  next => exact .seq (.report shortfall) fun _ ↦ hsupply _ _

theorem typed_checkArguments {pairs : List (Param × Operand)}
    (hsized : P → ∀ pair ∈ pairs, E.Sized pair.1.type) (h : ∀ pair ∈ pairs, pair.2.Typed E)
    (cells : List Category) :
    (checkArguments pairs).Typed E P cells fun _ cells' ↦
      cells' = E.pushAll (pairs.map (·.1)) cells := by
  rw [Ending.pushAll, List.foldl_map]
  refine .forM (fun (pair : Param × Operand) cells ↦ E.push pair.1.type cells) fun pair hpair cells ↦ ?_
  obtain ⟨param, arg⟩ := pair
  refine Typed.mono (.discard ((h _ hpair).checkOrTrap param.type cells))
    (fun hp ↦ (hsized hp _ hpair).known) fun _ _ _ ⟨_, _, heq⟩ ↦ heq

theorem typed_rejectExcess (hE : E.Sound) (options : CompilerOptions) (excess : CompileError)
    {extra : List Operand} (h : ∀ arg ∈ extra, arg.Typed E) (cells : List Category) :
    (rejectExcess options excess extra).Typed E P cells fun _ cells' ↦ cells' = cells := by
  unfold rejectExcess
  split
  next => exact .pure fun _ ↦ rfl
  next =>
    refine .seq (.report excess) fun _ ↦ ?_
    split
    next =>
      refine .forM_fixed fun arg harg ↦ ?_
      exact ((h arg harg).evaluateAndDrop hE cells).of_imp fun _ ↦ trivial
    next => exact .pure fun _ ↦ rfl

/-- Parameters with an argument and parameters without one are all parameters. -/
private theorem map_fst_zip_append_drop {α β : Type} (as : List α) (bs : List β) :
    (as.zip bs).map (·.1) ++ as.drop bs.length = as := by
  induction as generalizing bs with
  | nil => simp
  | cons a as ih =>
    cases bs with
    | nil => rfl
    | cons b bs => exact congrArg (a :: ·) (ih bs)

/-- Whatever the arguments are, there is one value for each parameter in the end. -/
theorem typed_bindArguments (hE : E.Sound) (options : CompilerOptions) {params : List Param}
    (hsized : P → ∀ p ∈ params, E.Sized p.type) {args : List Operand}
    (h : ∀ arg ∈ args, arg.Typed E) (span : Span) (cells : List Category) :
    (bindArguments options params args span).Typed E P cells fun _ cells' ↦
      cells' = E.pushAll params cells := by
  refine .seq (typed_checkArguments (fun hp _ hpair ↦ hsized hp _ (List.of_mem_zip hpair).1)
    (fun _ hpair ↦ h _ (List.of_mem_zip hpair).2) cells) fun _ ↦ ?_
  refine .seq (typed_supplyMissing _ span _ _) fun _ ↦ ?_
  rw [← Ending.pushAll_append, map_fst_zip_append_drop]
  exact typed_rejectExcess hE options _ (fun arg harg ↦ h arg (List.mem_of_mem_drop harg)) _

end Lower

end StackLowering
