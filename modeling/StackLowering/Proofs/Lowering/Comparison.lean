import StackLowering.Proofs.Lowering.Literals
import StackLowering.Proofs.Lowering.Resolution

/-!
# Lowering for two widths

The width of pointers decides which literals fit where, what a conversion takes and how large an object
is. All of this shows in the code only. Two computations that start from states which look alike come
to the same (`Lower.Alike`) if they report the same errors, record the same findings and lead to states
which look alike again; their instructions, and the lines of these, may be anything. Every operand
comes to the same for all widths (`Operand.Widthless`).

States look alike if their registries differ in widths and layouts only and they have the same frame.
Frames are compared by equality: a slot is given for every variable and every temporary, and neither
depends on the width. Values are compared by a relation, which is equality except for what is planned
for a construction (`ConstructionPlan.Alike`) and for sizes.

The one place where the two sides do not run in step is a literal, which may fit the expected type at
one width and be converted at the other. It is compared by its results: a type that has room for a
literal at some width is one that it converts to (`Literal.exists_conversion`), so that the outcome is
a value of the expected type at every width.
-/

namespace StackLowering

/-! ### States -/

/-- Two states that look alike and have the same variables. They may be on different lines. -/
structure LoweringState.Alike (s s' : LoweringState) : Prop where
  symbols : s.symbols.Alike .measureless s'.symbols
  frame : s'.frame = s.frame

/-! ### Computations -/

/-- Two computations, each from its own state, have related values and differ in nothing but code. -/
structure Lower.Alike {α : Type} (R : α → α → Prop) (s s' : LoweringState) (x y : Lower α) :
    Prop where
  value : R (x.run s).value (y.run s').value
  state : (x.run s).state.Alike (y.run s').state
  errors : (y.run s').output.errors = (x.run s).output.errors
  findings : (y.run s').output.findings = (x.run s).output.findings

namespace Lower.Alike

variable {α β : Type} {R : α → α → Prop} {Q : β → β → Prop} {s s' : LoweringState} {x y : Lower α}

/-- Related values are returned. -/
theorem pure (h : s.Alike s') {a b : α} (hab : R a b) : Alike R s s' (pure a) (pure b) :=
  ⟨hab, h, rfl, rfl⟩

/-- The second computations start where the first ones have got to. -/
theorem bind {f g : α → Lower β} (hx : Alike R s s' x y)
    (hf : ∀ a b s₁ s₁', R a b → s₁.Alike s₁' → Alike Q s₁ s₁' (f a) (g b)) :
    Alike Q s s' (x >>= f) (y >>= g) := by
  obtain ⟨hvalue, hstate, herrors, hfindings⟩ := hf _ _ _ _ hx.value hx.state
  refine ⟨hvalue, hstate, ?_, ?_⟩
  · rw [output_bind, output_bind, Output.errors_append, Output.errors_append, hx.errors, herrors]
  · rw [output_bind, output_bind, Output.findings_append, Output.findings_append, hx.findings,
      hfindings]

/-- The values may be thrown away, however they are related. -/
theorem discard (hx : Alike R s s' x y) : Alike Eq s s' (discard x) (discard y) :=
  hx.bind fun _ _ _ _ _ h ↦ .pure h rfl

/-- A loop whose body differs in nothing but code wherever the states have got to. -/
theorem forM {l : List α} {f : α → Lower Unit} (h : s.Alike s')
    (hf : ∀ a ∈ l, ∀ s₁ s₁', s₁.Alike s₁' → Alike Eq s₁ s₁' (f a) (f a)) :
    Alike Eq s s' (l.forM f) (l.forM f) := by
  induction l generalizing s s' with
  | nil => exact .pure h rfl
  | cons a l ih =>
    show Alike Eq s s' (f a >>= fun _ ↦ l.forM f) (f a >>= fun _ ↦ l.forM f)
    refine (hf a List.mem_cons_self s s' h).bind fun _ _ s₁ s₁' _ h₁ ↦ ?_
    exact ih h₁ fun b hb ↦ hf b (List.mem_cons_of_mem a hb)

/-! #### State -/

/-- Two computations may depend on the registries that they find. -/
theorem registry_bind {f g : Registry → Lower β}
    (h : Alike Q s s' (f s.symbols.registry) (g s'.symbols.registry)) :
    Alike Q s s' (registry >>= f) (registry >>= g) :=
  ⟨h.value, h.state, h.errors, h.findings⟩

/-- The widths may differ. -/
theorem width (h : s.Alike s') : Alike (fun _ _ ↦ True) s s' width width :=
  ⟨trivial, h, rfl, rfl⟩

/-- Each side may go to a line of its own. -/
theorem setLine (h : s.Alike s') (line line' : UInt32) :
    Alike Eq s s' (setLine line) (setLine line') :=
  ⟨rfl, ⟨h.symbols, h.frame⟩, rfl, rfl⟩

/-- A temporary has the same slot on both sides. -/
theorem temporary (h : s.Alike s') (name : String) (type : Fingerprint) :
    Alike Eq s s' (temporary name type) (temporary name type) := by
  have hrun (s : LoweringState) : (Lower.temporary name type).run s =
      ⟨(s.frame.temporary name type).1, { s with frame := (s.frame.temporary name type).2 }, .empty⟩ :=
    rfl
  refine ⟨?_, ⟨h.symbols, ?_⟩, rfl, rfl⟩ <;> rw [hrun, hrun, h.frame]

/-! #### Output -/

/-- Two instructions need not have anything in common. -/
theorem emit (h : s.Alike s') (i j : SymbolicInstruction) : Alike Eq s s' (emit i) (emit j) :=
  ⟨rfl, h, rfl, rfl⟩

/-- Neither need two runs of instructions; they may even differ in length. -/
theorem emitAll (h : s.Alike s') (is js : List SymbolicInstruction) :
    Alike Eq s s' (emitAll is) (emitAll js) :=
  ⟨rfl, h, rfl, rfl⟩

theorem report (h : s.Alike s') (error : CompileError) : Alike Eq s s' (report error) (report error) :=
  ⟨rfl, h, rfl, rfl⟩

theorem annotate (h : s.Alike s') (node : NodeId) (type : Fingerprint) :
    Alike Eq s s' (annotate node type) (annotate node type) :=
  ⟨rfl, h, rfl, rfl⟩

theorem trap (h : s.Alike s') (error : CompileError) : Alike Eq s s' (trap error) (trap error) :=
  (report h error).bind fun _ _ _ _ _ h ↦ emit h .trap .trap

end Lower.Alike

/-- The results of two computations that fail for the same reason, or succeed with related values. -/
inductive Attempt.Related {α : Type} (R : α → α → Prop) :
    Except CompileError α → Except CompileError α → Prop
  | ok {a b : α} (h : R a b) : Related R (.ok a) (.ok b)
  | error (error : CompileError) : Related R (.error error) (.error error)

/-- Two computations that may fail differ in nothing but code. -/
abbrev Attempt.Alike {α : Type} (R : α → α → Prop) (s s' : LoweringState) (x y : Attempt α) : Prop :=
  Lower.Alike (Attempt.Related R) s s' x.run y.run

namespace Attempt.Alike

variable {α β : Type} {R : α → α → Prop} {Q : β → β → Prop} {s s' : LoweringState} {x y : Attempt α}

theorem pure (h : s.Alike s') {a b : α} (hab : R a b) : Alike R s s' (pure a) (pure b) :=
  Lower.Alike.pure h (.ok hab)

theorem throw (h : s.Alike s') (error : CompileError) :
    Alike R s s' (throw error) (throw error) :=
  Lower.Alike.pure h (.error error)

/-- Attempts in a row fail together, or go on with related values. -/
theorem bind {f g : α → Attempt β} (hx : Alike R s s' x y)
    (hf : ∀ a b s₁ s₁', R a b → s₁.Alike s₁' → Alike Q s₁ s₁' (f a) (g b)) :
    Alike Q s s' (x >>= f) (y >>= g) := by
  refine Lower.Alike.bind (f := fun v ↦ (ExceptT.bindCont f v))
    (g := fun v ↦ (ExceptT.bindCont g v)) hx fun v v' s₁ s₁' hv h ↦ ?_
  rcases hv with hab | error
  · exact hf _ _ s₁ s₁' hab h
  · exact Lower.Alike.pure h (.error error)

/-- Computations that cannot fail come to the same also where others might. -/
theorem lift {x y : Lower α} (hx : Lower.Alike R s s' x y) : Alike R s s' (liftM x) (liftM y) :=
  Lower.Alike.bind hx fun _ _ _ _ hab h ↦ Lower.Alike.pure h (.ok hab)

/-- Two computations may depend on the states that they find. -/
theorem get_bind {f g : LoweringState → Attempt β} (h : Alike Q s s' (f s) (g s')) :
    Alike Q s s' (liftM Lower.get >>= f) (liftM Lower.get >>= g) :=
  ⟨h.value, h.state, h.errors, h.findings⟩

/-- Two attempts may depend on the registries that they find. -/
theorem registry_bind {f g : Registry → Attempt β}
    (h : Alike Q s s' (f s.symbols.registry) (g s'.symbols.registry)) :
    Alike Q s s' (liftM Lower.registry >>= f) (liftM Lower.registry >>= g) :=
  ⟨h.value, h.state, h.errors, h.findings⟩

/-- Types are resolved to the same. -/
theorem resolve (h : s.Alike s') {x : Resolution α}
    (hx : x.Alike .measureless s.symbols s'.symbols x) :
    Alike Eq s s' (Attempt.resolve x) (Attempt.resolve x) := by
  refine ⟨?_, ⟨hx.symbols, h.frame⟩, rfl, rfl⟩
  show Related Eq (x.run.run s.symbols).1 (x.run.run s'.symbols).1
  rw [hx.value]
  rcases (x.run.run s.symbols).1 with error | a
  · exact .error error
  · exact .ok rfl

/-- A class is laid out, to whatever size. -/
theorem layOutClass (h : s.Alike s') (id : Fingerprint) (span : Span) :
    Alike (fun _ _ ↦ True) s s' (Attempt.layOutClass id span) (Attempt.layOutClass id span) := by
  have hrun := run_layOutClass id span s
  have hrun' := run_layOutClass id span s'
  rcases h.symbols.registry.layOutClass id with
    ⟨error, herror, herror'⟩ | ⟨size, size', r, r', hr, hr', halike⟩
  · rw [herror] at hrun
    rw [herror'] at hrun'
    constructor <;> rw [hrun, hrun']
    · exact .error _
    · exact h
  · rw [hr] at hrun
    rw [hr'] at hrun'
    constructor <;> rw [hrun, hrun']
    · exact .ok trivial
    · exact ⟨⟨halike, h.symbols.instances⟩, h.frame⟩

/-- A variable is declared in equal frames, so that it is refused in both or in neither. -/
theorem declare (h : s.Alike s') (name : String) (type : Fingerprint) (span : Span) :
    Alike Eq s s' (Attempt.declare name type span) (Attempt.declare name type span) := by
  refine ⟨?_, ⟨h.symbols, ?_⟩, rfl, rfl⟩
  · rw [run_declare, run_declare, h.frame]
    rcases (s.frame.declare name type span).1 with error | slot
    · exact .error error
    · exact .ok rfl
  · rw [run_declare, run_declare, h.frame]

end Attempt.Alike

/-! ### Operands -/

/-- An operand that differs in nothing but code, in both ways of lowering it. -/
structure Operand.Widthless (o : Operand) : Prop where
  infer {s s' : LoweringState} : s.Alike s' → Attempt.Alike Eq s s' o.infer o.infer
  check {s s' : LoweringState} (expected : Fingerprint) : s.Alike s' →
    Attempt.Alike Eq s s' (o.check expected) (o.check expected)

namespace Operand

variable {s s' : LoweringState} {o : Operand} {span : Span} {expected : Fingerprint}

/-- An error is reported on both sides or on neither. -/
theorem Widthless.checkOrTrap (ho : o.Widthless) (expected : Fingerprint) (h : s.Alike s') :
    Lower.Alike Eq s s' (o.checkOrTrap expected) (o.checkOrTrap expected) := by
  refine .bind (ho.check expected h) fun v v' s₁ s₁' hv h₁ ↦ ?_
  rcases hv with hinfo | error
  · exact .pure h₁ hinfo
  · exact (Lower.Alike.trap h₁ error).bind fun _ _ _ _ _ h₂ ↦ .pure h₂ rfl

/-- The same holds where no type is expected. -/
theorem Widthless.inferOrTrap (ho : o.Widthless) (h : s.Alike s') :
    Lower.Alike Eq s s' o.inferOrTrap o.inferOrTrap := by
  refine .bind (ho.infer h) fun v v' s₁ s₁' hv h₁ ↦ ?_
  rcases hv with hinfo | error
  · exact .pure h₁ (congrArg some hinfo)
  · exact (Lower.Alike.trap h₁ error).bind fun _ _ _ _ _ h₂ ↦ .pure h₂ rfl

/-- What is dropped is code, and may differ. -/
theorem Widthless.evaluateAndDrop (ho : o.Widthless) (h : s.Alike s') :
    Lower.Alike Eq s s' o.evaluateAndDrop o.evaluateAndDrop := by
  refine (ho.inferOrTrap h).bind fun v v' s₁ s₁' hv h₁ ↦ ?_
  subst hv
  rcases v with _ | info
  · exact .pure h₁ rfl
  · show Lower.Alike Eq s₁ s₁' (if info.type = voidType then _ else _)
      (if info.type = voidType then _ else _)
    split
    · exact .pure h₁ rfl
    · exact .emit h₁ .pop .pop

/-- Whether there is a conversion does not depend on the width; only its code does. -/
theorem alike_convert (h : s.Alike s') (span : Span) (expected : Fingerprint) (info : ValueInfo) :
    Attempt.Alike Eq s s' (convert span expected info) (convert span expected info) := by
  unfold convert
  split
  · exact .pure h rfl
  · refine .registry_bind ?_
    rw [h.symbols.registry.find?, h.symbols.registry.typeName, h.symbols.registry.typeName]
    split
    · exact .bind (.lift (.emitAll h _ _)) fun _ _ _ _ _ h₁ ↦ .pure h₁ rfl
    · exact .throw h _

/-- What comes to the same in inferring a type does so in checking against one. -/
theorem widthless_ofInference {x : Attempt ValueInfo}
    (hx : ∀ {s s' : LoweringState}, s.Alike s' → Attempt.Alike Eq s s' x x) :
    (ofInference span x).Widthless := by
  have hinfer {s s' : LoweringState} (h : s.Alike s') :
      Attempt.Alike Eq s s' (ofInference span x).infer (ofInference span x).infer :=
    .bind (.lift (.setLine h _ _)) fun _ _ _ _ _ h₁ ↦ hx h₁
  refine ⟨hinfer, fun expected h ↦ .bind (hinfer h) fun info info' s₁ s₁' heq h₁ ↦ ?_⟩
  subst heq
  exact alike_convert h₁ span expected info

/-! #### Literals -/

end Operand

/-- An integer literal converts to every type that has room for it at some width. -/
theorem Literal.exists_conversion {value : Literal} {pointer : Width} {expected : Fingerprint}
    {constant : Constant} (h : value.constantAs? pointer expected = some constant) (r : Registry) :
    ∃ conversion, Conversion.find? r value.type expected = some conversion := by
  rcases value with value | _ | _ | _
  · obtain ⟨q, hq, h⟩ := Option.bind_eq_some_iff.1 h
    obtain ⟨layout, -, h⟩ := Option.bind_eq_some_iff.1 h
    obtain ⟨hfits, -⟩ := Option.ite_none_right_eq_some.1 h
    -- a type with a range is an integer type
    have hnumber : q.isInteger = true ∨ q.isFloat = true := by
      rcases Bool.or_eq_true_iff.1 hfits with hfloat | hrange
      · exact .inr hfloat
      · cases q <;> simp_all [Primitive.range?, Primitive.isInteger]
    obtain ⟨p, hp, hsource, -⟩ := Literal.exists_holds_constant pointer value
    rw [← hsource, ← Primitive.ofFingerprint?_eq_some hq]
    exact ⟨_, Primitive.find?_conversion r (Primitive.convertsTo_of_isInteger hp (.inr hnumber))⟩
  all_goals cases h

namespace Operand

variable {s s' : LoweringState} {o : Operand} {span : Span} {expected : Fingerprint}

/-- A literal that the expected type has room for at some width becomes a value of this type at every
width: either at once, or by a conversion. -/
theorem exists_run_check_literal {value : Literal} {pointer : Width} {constant : Constant}
    (h : value.constantAs? pointer expected = some constant) (span : Span) (s : LoweringState) :
    ∃ line code, ((literal value span).check expected).run.run s =
      ⟨.ok (.computed expected), { s with line }, { code }⟩ := by
  cases hconstant : value.constantAs? s.symbols.registry.width expected with
  | some constant => exact ⟨_, _, run_check_literal_of_some hconstant span⟩
  | none =>
    obtain ⟨conversion, hconversion⟩ := Literal.exists_conversion h s.symbols.registry
    rw [run_check_literal_of_none hconstant,
      Attempt.run_bind_ok _ (run_infer_literal value span s),
      run_convert (s := { s with line := span.line }) hconversion]
    exact ⟨_, _, rfl⟩

/-- A literal comes to the same for all widths. This is not seen step by step: an integer may fit a
pointer of 64 bits at once and need a conversion for 32. -/
theorem widthless_literal (value : Literal) (span : Span) : (literal value span).Widthless := by
  have hplain : (ofInference span do
      Lower.emit (.const value.constant)
      return .computed value.type).Widthless :=
    widthless_ofInference fun h ↦ .bind (.lift (.emit h _ _)) fun _ _ _ _ _ h₁ ↦ .pure h₁ rfl
  refine ⟨hplain.infer, fun {s s'} expected h ↦ ?_⟩
  by_cases hroom : ∃ pointer constant, value.constantAs? pointer expected = some constant
  · obtain ⟨pointer, constant, hconstant⟩ := hroom
    obtain ⟨line, code, hrun⟩ := exists_run_check_literal hconstant span s
    obtain ⟨line', code', hrun'⟩ := exists_run_check_literal hconstant span s'
    constructor <;> rw [hrun, hrun']
    · exact .ok rfl
    · exact ⟨h.symbols, h.frame⟩
  · have hnone (pointer : Width) : value.constantAs? pointer expected = none :=
      Option.eq_none_iff_forall_ne_some.2 fun constant hconstant ↦ hroom ⟨pointer, constant, hconstant⟩
    refine .bind (.lift (.width h)) fun _ _ _ _ _ h₁ ↦ ?_
    rw [hnone, hnone]
    exact hplain.check expected h₁

/-- A variable is found in equal frames. -/
theorem widthless_var (name : String) (span : Span) : (var name span).Widthless := by
  refine widthless_ofInference fun {s s'} h ↦ .get_bind ?_
  rw [h.frame]
  split
  · exact .bind (.lift (.emit h _ _)) fun _ _ _ _ _ h₁ ↦ .pure h₁ rfl
  · exact .throw h _

/-- Parentheses may stand around an operand. -/
theorem Widthless.paren (ho : o.Widthless) (span : Span) : (o.paren span).Widthless :=
  ⟨fun h ↦ .bind (.lift (.setLine h _ _)) fun _ _ _ _ _ h₁ ↦ ho.infer h₁, ho.check⟩

end Operand

/-! ### Arguments -/

variable {s s' : LoweringState} {options : CompilerOptions} {args : List Operand} {span : Span}

namespace Lower

/-- A default is refused where its type has no layout, for all widths. -/
theorem alike_supply (h : s.Alike s') (span : Span) (param : Param) :
    Alike Eq s s' (supply span param) (supply span param) := by
  unfold supply
  rcases param.default? with _ | value
  · exact .emit h .trap .trap
  · refine .registry_bind ?_
    rw [h.symbols.registry.typeName]
    rcases h.symbols.registry.cases_layout? param.type with
      ⟨hnone, hnone'⟩ | ⟨layout, layout', hlayout, hlayout'⟩
    · rw [hnone, hnone']
      exact .trap h _
    · rw [hlayout, hlayout']
      exact .emit h _ _

/-- The missing arguments are supplied with the same reports. -/
theorem alike_supplyMissing (h : s.Alike s') (shortfall : CompileError) (span : Span)
    (missing : List Param) :
    Alike Eq s s' (supplyMissing shortfall span missing) (supplyMissing shortfall span missing) := by
  have hsupply {l : List Param} {s₁ s₁' : LoweringState} (h₁ : s₁.Alike s₁') :
      Alike Eq s₁ s₁' (l.forM (supply span)) (l.forM (supply span)) :=
    .forM h₁ fun param _ s₂ s₂' h₂ ↦ alike_supply h₂ span param
  refine (hsupply h).bind fun _ _ s₁ s₁' _ h₁ ↦ ?_
  split
  · exact .pure h₁ rfl
  · exact (Alike.report h₁ shortfall).bind fun _ _ _ _ _ h₂ ↦ hsupply h₂

/-- Arguments are bound with the same reports. -/
theorem alike_bindArguments (h : s.Alike s') (options : CompilerOptions) (params : List Param)
    (hargs : ∀ arg ∈ args, arg.Widthless) (span : Span) :
    Alike Eq s s' (bindArguments options params args span) (bindArguments options params args span) := by
  refine .bind (.forM h fun (param, arg) hmem s₁ s₁' h₁ ↦ ?_) fun _ _ s₁ s₁' _ h₁ ↦ ?_
  · exact ((hargs arg (List.of_mem_zip hmem).2).checkOrTrap param.type h₁).discard
  refine .bind (alike_supplyMissing h₁ _ span _) fun _ _ s₂ s₂' _ h₂ ↦ ?_
  have hextra : ∀ arg ∈ args.drop params.length, arg.Widthless :=
    fun arg harg ↦ hargs arg (List.mem_of_mem_drop harg)
  unfold rejectExcess
  split
  · exact .pure h₂ rfl
  next extra _ =>
    refine (Alike.report h₂ _).bind fun _ _ s₃ s₃' _ h₃ ↦ ?_
    split
    · exact .forM h₃ fun arg harg _ _ h₄ ↦ (hextra arg harg).evaluateAndDrop h₄
    · exact .pure h₃ rfl

end Lower

/-! ### Calls -/

/-- A call finds the same function for all widths. -/
theorem Operand.widthless_call (options : CompilerOptions) (callee : Option String)
    (calleeSpan : Span) (hargs : ∀ arg ∈ args, arg.Widthless) (span : Span) :
    (call options callee calleeSpan args span).Widthless := by
  refine widthless_ofInference fun {s s'} h ↦ .registry_bind ?_
  rw [h.symbols.registry.functionNamed?]
  split
  next => exact .throw h _
  next f _ =>
    split
    next => exact .throw h _
    next argc _ =>
      refine .bind (.lift (Lower.alike_bindArguments h options f.params hargs span))
        fun _ _ _ _ _ h₁ ↦ ?_
      exact .bind (.lift (.emit h₁ _ _)) fun _ _ _ _ _ h₂ ↦ .pure h₂ rfl

/-! ### Constructions -/

/-- Two plans that differ in nothing but sizes, and come to the same for all widths. -/
inductive ConstructionPlan.Alike : ConstructionPlan → ConstructionPlan → Prop
  | buffer (size size' : UInt32) {count : Operand} (hcount : count.Widthless) :
      Alike (.buffer size count) (.buffer size' count)
  | object (size size' : UInt32) (constructor? : Option Callable) :
      Alike (.object size constructor?) (.object size' constructor?)

namespace ConstructionPlan

/-- The elements of a buffer have some size for all widths, or for none. -/
theorem alike_elementSize (h : s.Alike s') (element : BufferElement) :
    Attempt.Alike (fun _ _ ↦ True) s s' (elementSize element) (elementSize element) := by
  rcases element with type | _
  · refine .bind (.resolve h (type.alike_resolve h.symbols)) fun id id' s₁ s₁' heq h₁ ↦
      .registry_bind ?_
    subst heq
    rw [h₁.symbols.registry.typeName]
    rcases h₁.symbols.registry.cases_layout? id with
      ⟨hnone, hnone'⟩ | ⟨layout, layout', hlayout, hlayout'⟩
    · rw [hnone, hnone']
      exact .throw h₁ _
    · rw [hlayout, hlayout']
      exact .pure h₁ trivial
  · exact .pure h trivial

/-- The plan for a class differs in the size of its objects only. -/
theorem alike_ofClass (h : s.Alike s') (id : Fingerprint) (span : Span) :
    Attempt.Alike Alike s s' (ofClass id span) (ofClass id span) := by
  refine .bind (.layOutClass h id span) fun size size' s₁ s₁' _ h₁ ↦ .registry_bind ?_
  rw [h₁.symbols.registry.constructorOf?]
  split
  next => exact .pure h₁ (.object size size' none)
  next c _ =>
    split
    next => exact .pure h₁ (.object size size' (some c))
    next => exact .throw h₁ _

/-- The plan of a construction differs in sizes only. -/
theorem alike_ofConstruction (h : s.Alike s') (span : Span) {shape : Construction}
    (hshape : ∀ element count, shape = .buffer element count → count.Widthless) :
    Attempt.Alike Alike s s' (ofConstruction span shape) (ofConstruction span shape) := by
  rcases shape with ⟨element, count⟩ | id | ⟨id, typeArgs⟩ | _
  · exact .bind (alike_elementSize h element) fun size size' _ _ _ h₁ ↦
      .pure h₁ (.buffer size size' (hshape element count rfl))
  · exact alike_ofClass h id span
  · refine .bind (.resolve h (alike_resolveTypes typeArgs h.symbols)) fun ids ids' s₁ s₁' heq h₁ ↦ ?_
    subst heq
    refine .bind (.resolve h₁ (.instantiate h₁.symbols id ids span)) fun id id' s₂ s₂' heq h₂ ↦ ?_
    subst heq
    exact alike_ofClass h₂ id span
  · exact .throw h _

/-- A buffer is filled with whatever size its elements have. -/
theorem alike_lowerBuffer (h : s.Alike s') (options : CompilerOptions) (size size' : UInt32)
    {count : Operand} (hcount : count.Widthless) :
    Lower.Alike Eq s s' (lowerBuffer options size count) (lowerBuffer options size' count) := by
  refine (Lower.Alike.width h).bind fun width width' s₁ s₁' _ h₁ ↦ ?_
  refine (Lower.Alike.temporary h₁ countTemporary addressType).bind fun _ _ s₂ s₂' _ h₂ ↦ ?_
  refine (Lower.Alike.temporary h₂ addressTemporary addressType).bind fun _ _ s₃ s₃' _ h₃ ↦ ?_
  refine (Lower.Alike.emit h₃ _ _).bind fun _ _ s₄ s₄' _ h₄ ↦ ?_
  refine (Lower.Alike.emit h₄ _ _).bind fun _ _ s₅ s₅' _ h₅ ↦ ?_
  refine (hcount.checkOrTrap addressType h₅).discard.bind fun _ _ s₆ s₆' _ h₆ ↦ ?_
  refine (Lower.Alike.emitAll h₆ _ _).bind fun _ _ s₇ s₇' _ h₇ ↦ ?_
  exact (Lower.Alike.emitAll h₇ _ _).bind fun _ _ s₈ s₈' _ h₈ ↦ .emitAll h₈ _ _

/-- An object is filled whatever its size is. -/
theorem alike_lowerObject (h : s.Alike s') (options : CompilerOptions) (size size' : UInt32)
    (constructor? : Option Callable) (hargs : ∀ arg ∈ args, arg.Widthless) (span : Span) :
    Lower.Alike Eq s s' (lowerObject options size constructor? args span)
      (lowerObject options size' constructor? args span) := by
  refine (Lower.Alike.width h).bind fun width width' s₁ s₁' _ h₁ ↦ ?_
  refine (Lower.Alike.emit h₁ _ _).bind fun _ _ s₂ s₂' _ h₂ ↦ ?_
  refine (Lower.Alike.emit h₂ _ _).bind fun _ _ s₃ s₃' _ h₃ ↦ ?_
  rcases constructor? with _ | c
  · exact .pure h₃ rfl
  · exact (Lower.alike_bindArguments h₃ options c.params hargs span).bind fun _ _ _ _ _ h₄ ↦
      .emit h₄ _ _

/-- Plans that differ in sizes only are lowered with the same reports. -/
theorem alike_lower (h : s.Alike s') (options : CompilerOptions) {plan plan' : ConstructionPlan}
    (hplan : plan.Alike plan') (hargs : ∀ arg ∈ args, arg.Widthless) (span : Span) :
    Lower.Alike Eq s s' (plan.lower options args span) (plan'.lower options args span) := by
  rcases hplan with ⟨size, size', hcount⟩ | ⟨size, size', constructor?⟩
  · exact alike_lowerBuffer h options size size' hcount
  · exact alike_lowerObject h options size size' constructor? hargs span

end ConstructionPlan

/-- A construction comes to the same for all widths: it is classified, planned and lowered, and sizes
go into the code alone. -/
theorem Operand.widthless_construct (options : CompilerOptions) (node : NodeId)
    (callee : Option String) (typeArgs : Option (List TypeExpr)) {args : Option (List Operand)}
    (hargs : ∀ arg ∈ args.getD [], arg.Widthless) (span : Span) :
    (construct options node callee typeArgs args span).Widthless := by
  refine widthless_ofInference fun {s s'} h ↦
    .bind (.lift (.annotate h node addressType)) fun _ _ s₁ s₁' _ h₁ ↦ .get_bind ?_
  rw [h₁.frame, h₁.symbols.registry.classify]
  have hshape (element : BufferElement) (count : Operand)
      (heq : Construction.classify s₁.symbols.registry s₁.frame callee typeArgs args =
        .buffer element count) : count.Widthless :=
    hargs count (by simp [Construction.classify_eq_buffer heq])
  refine .bind (.lift (ConstructionPlan.alike_ofConstruction h₁ span hshape))
    fun plan plan' s₂ s₂' hplan h₂ ↦ ?_
  rcases hplan with hplan | error
  · exact .bind (.lift (ConstructionPlan.alike_lower h₂ options hplan hargs span))
      fun _ _ _ _ _ h₃ ↦ .pure h₃ rfl
  · exact .bind (.lift (.trap h₂ error)) fun _ _ _ _ _ h₃ ↦ .pure h₃ rfl

/-! ### Expressions -/

mutual

/-- An expression comes to the same for all widths. -/
theorem Expr.widthless_operand : (e : Expr) → (e.operand options).Widthless
  | .literal value span => Operand.widthless_literal value span
  | .var name span => Operand.widthless_var name.name span
  | .call callee args span =>
    Operand.widthless_call options callee.ident? callee.span (widthless_operandsOfList args) span
  | .construct node callee typeArgs args span =>
    Operand.widthless_construct options node (callee.bind Expr.ident?) typeArgs
      (widthless_operandsOfArgs args) span
  | .paren inner span => inner.widthless_operand.paren span
termination_by structural e => e

/-- Expressions in a list come to the same one by one. -/
theorem widthless_operandsOfList : (es : List Expr) →
    ∀ arg ∈ operandsOfList options es, arg.Widthless
  | [] => by simp [operandsOfList]
  | e :: es => by
    rw [operandsOfList]
    intro arg harg
    rcases List.mem_cons.1 harg with rfl | harg
    · exact e.widthless_operand
    · exact widthless_operandsOfList es arg harg
termination_by structural es => es

/-- So do the arguments of a construction, if it has any. -/
theorem widthless_operandsOfArgs : (es : Option (List Expr)) →
    ∀ arg ∈ (operandsOfArgs options es).getD [], arg.Widthless
  | none => by simp [operandsOfArgs]
  | some es => by
    rw [operandsOfArgs, Option.getD_some]
    exact widthless_operandsOfList es
termination_by structural es => es

end

end StackLowering
