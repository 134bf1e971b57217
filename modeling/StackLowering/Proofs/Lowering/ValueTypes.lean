import StackLowering.Proofs.Lowering.Construction
import StackLowering.Proofs.Lowering.KnownTypes
import StackLowering.Proofs.Lowering.Operand

/-!
# Types of values

The type that an operand tells of its value is known, and an operand that is checked tells the type
that is expected (`Operand.Within`). That holds of every expression, and so a statement keeps the
variables of a function among those that can be stored: what a declaration stores is of a known type,
and it is refused if that is `void`.

Nothing is asked of the expected type itself. An operand that is checked against it either succeeds,
with a value of this very type, or is replaced by a trap, which is told the type as well.

The proof follows the forms of expressions and then those of statements (`Expr.within_operand`,
`Stmt.within_lower`). Types enter in four ways: from a literal, from a variable, from the result of a
function, and as the type of addresses for every construction. The first and the last are primitive;
the other two are known because the state is within what is known.
-/

namespace StackLowering

variable {E : Ending} {P : Prop}

/-! ### Operands -/

/-- An operand that tells a known type, or the type that is expected. -/
structure Operand.Within (E : Ending) (o : Operand) : Prop where
  infer : o.infer.Within E True fun info ↦ E.Known info.type
  check (expected : Fingerprint) : (o.check expected).Within E True fun info ↦ info.type = expected

namespace Operand

variable {o : Operand} {span : Span}

/-- A trap is told the expected type as well. -/
theorem Within.checkOrTrap (h : o.Within E) (expected : Fingerprint) :
    (o.checkOrTrap expected).Within E P fun info ↦ info.type = expected := by
  refine .bind ((h.check expected).of_imp fun _ ↦ trivial) fun r ↦ ?_
  cases r with
  | ok info => exact .pure fun ⟨_, hinfo⟩ ↦ hinfo info rfl
  | error error => exact .seq (.trap error) fun _ ↦ .pure fun _ ↦ rfl

/-- Where no type is expected, a trap is told no type. -/
theorem Within.inferOrTrap (h : o.Within E) :
    o.inferOrTrap.Within E P fun r ↦ ∀ info, r = some info → E.Known info.type := by
  refine .bind (h.infer.of_imp fun _ ↦ trivial) fun r ↦ ?_
  cases r with
  | ok info =>
    refine .pure fun ⟨_, hinfo⟩ info' heq ↦ ?_
    obtain rfl := Option.some.inj heq
    exact hinfo info rfl
  | error error => exact .seq (.trap error) fun _ ↦ .pure fun _ ↦ nofun

/-- A value that is dropped may be of any type. -/
theorem Within.evaluateAndDrop (h : o.Within E) : o.evaluateAndDrop.Within E P fun _ ↦ True := by
  refine .seq h.inferOrTrap fun r ↦ ?_
  cases r with
  | none => exact .pure fun _ ↦ trivial
  | some info =>
    show Lower.Within E P (if info.type = voidType then _ else _) _
    split
    · exact .pure fun _ ↦ trivial
    · exact .emit .pop

/-- A conversion that is found leads to the expected type. -/
theorem within_convert (span : Span) (expected : Fingerprint) (info : ValueInfo) :
    (convert span expected info).Within E P fun info' ↦ info'.type = expected := by
  unfold convert
  split
  next heq => exact .pure fun _ ↦ heq
  next =>
    refine .seq .registry fun r ↦ ?_
    split
    next => exact .seq (.emitAll _) fun _ ↦ .pure fun _ ↦ rfl
    next => exact .throw _

/-- What infers a known type also checks against every type. -/
theorem within_ofInference {x : Attempt ValueInfo}
    (h : x.Within E True fun info ↦ E.Known info.type) : (ofInference span x).Within E := by
  have hinfer : (ofInference span x).infer.Within E True fun info ↦ E.Known info.type :=
    .seq (.setLine _) fun _ ↦ h
  exact ⟨hinfer, fun expected ↦ .bind hinfer fun info ↦ within_convert span expected info⟩

/-- Parentheses may stand around an operand. -/
theorem Within.paren (h : o.Within E) (span : Span) : (o.paren span).Within E :=
  ⟨.seq (.setLine _) fun _ ↦ h.infer, h.check⟩

/-- The type of a literal is a primitive type, and not `void`. -/
theorem within_literal (hE : E.Stocked) (value : Literal) (span : Span) :
    (literal value span).Within E := by
  obtain ⟨p, hp, htype, -⟩ := value.category?_constant
  have hknown : E.Known value.type :=
    htype ▸ (Ending.sized_of_hasPrimitives hE.primitives hp).known
  have hplain : (ofInference span do
      Lower.emit (.const value.constant)
      return .computed value.type).Within E :=
    within_ofInference (.seq (.emit _) fun _ ↦ .pure fun _ ↦ hknown)
  refine ⟨hplain.infer, fun expected ↦ .seq .width fun width ↦ ?_⟩
  split
  next => exact .seq (.emit _) fun _ ↦ .pure fun _ ↦ rfl
  next => exact hplain.check expected

/-- A variable tells its type, which can be stored. -/
theorem within_var (name : String) (span : Span) : (var name span).Within E := by
  refine within_ofInference (.bind (.lift .get) fun s ↦ ?_)
  split
  next v hv =>
    exact .seq (.emit _) fun _ ↦ .pure fun ⟨_, hs⟩ ↦ (hs.frame.bindings hv).known
  next => exact .throw _

end Operand

/-! ### Arguments -/

namespace Lower

theorem within_supply (span : Span) (param : Param) :
    (supply span param).Within E P fun _ ↦ True := by
  unfold supply
  split
  next =>
    refine .seq .registry fun r ↦ ?_
    split
    · exact .emit _
    · exact .trap _
  next => exact .emit .trap

/-- Supplying arguments leaves symbols and variables as they are. -/
theorem within_supplyMissing (shortfall : CompileError) (span : Span) (missing : List Param) :
    (supplyMissing shortfall span missing).Within E P fun _ ↦ True := by
  refine .seq (.forM fun param _ ↦ within_supply span param) fun _ ↦ ?_
  split
  · exact .pure fun _ ↦ trivial
  · exact .seq (.report _) fun _ ↦ .forM fun param _ ↦ within_supply span param

/-- Binding arguments does to the state what lowering them does. -/
theorem within_bindArguments (options : CompilerOptions) (params : List Param) {args : List Operand}
    (h : ∀ arg ∈ args, arg.Within E) (span : Span) :
    (bindArguments options params args span).Within E P fun _ ↦ True := by
  have hcheck : (checkArguments (params.zip args)).Within E P fun _ ↦ True :=
    .forM fun pair hpair ↦ .discard ((h pair.2 (List.of_mem_zip hpair).2).checkOrTrap _)
  refine .seq hcheck fun _ ↦ .seq (within_supplyMissing _ span _) fun _ ↦ ?_
  unfold rejectExcess
  split
  next => exact .pure fun _ ↦ trivial
  next =>
    refine .seq (.report _) fun _ ↦ ?_
    split
    · exact .forM fun arg harg ↦ (h arg (List.mem_of_mem_drop harg)).evaluateAndDrop
    · exact .pure fun _ ↦ trivial

end Lower

/-- A call tells the type of the result of the function. -/
theorem Operand.within_call (options : CompilerOptions) (callee : Option String) (calleeSpan : Span)
    {args : List Operand} (h : ∀ arg ∈ args, arg.Within E) (span : Span) :
    (call options callee calleeSpan args span).Within E := by
  refine within_ofInference (.bind (.lift .registry) fun r ↦ ?_)
  split
  next => exact .throw _
  next f hf =>
    split
    next => exact .throw _
    next argc _ =>
      refine .seq (Lower.within_bindArguments options f.params h span) fun _ ↦ ?_
      refine .seq (.emit _) fun _ ↦ .pure fun ⟨_, s, hs, hr⟩ ↦ ?_
      subst hr
      exact hs.returns (hs.built.indexed.functionNamed?_eq_some_iff.1 hf).1

/-! ### Constructions -/

namespace ConstructionPlan

/-- To plan an object is to lay out its class. -/
theorem within_ofClass (id : Fingerprint) (span : Span) :
    (ofClass id span).Within E P fun _ ↦ True := by
  refine .bind (.layOutClass id span) fun size ↦ .seq .registry fun r ↦ ?_
  split
  next => exact .pure fun _ ↦ trivial
  next =>
    split
    · exact .pure fun _ ↦ trivial
    · exact .throw _

/-- The type of the elements of an array is one that the script writes. -/
theorem within_elementSize (hE : E.Stocked) (element : BufferElement) :
    (elementSize element).Within E P fun _ ↦ True := by
  cases element with
  | codeUnit => exact .pure fun _ ↦ trivial
  | declared type =>
    refine .bind (.resolve ((type.within_resolve hE).of_imp fun _ ↦ trivial)) fun id ↦ ?_
    refine .seq .registry fun r ↦ ?_
    split
    · exact .pure fun _ ↦ trivial
    · exact .throw _

/-- A plan requests instances at known types only. -/
theorem within_ofConstruction (hE : E.Stocked) (span : Span) (shape : Construction) :
    (ofConstruction span shape).Within E P fun _ ↦ True := by
  cases shape with
  | buffer element count =>
    exact .bind (within_elementSize hE element) fun _ ↦ .pure fun _ ↦ trivial
  | object id => exact within_ofClass id span
  | template id typeArgs =>
    refine .bind (.resolve ((within_resolveTypes hE typeArgs).of_imp fun _ ↦ trivial)) fun ids ↦ ?_
    refine .bind (.resolve (.instantiate hE id ids span fun hp ↦ hp.2.2)) fun instanceId ↦ ?_
    exact within_ofClass instanceId span
  | unsupported => exact .throw _

/-- The temporaries of a buffer hold addresses. -/
theorem within_lowerBuffer (hE : E.Stocked) (options : CompilerOptions) (elementSize : UInt32)
    {count : Operand} (h : count.Within E) :
    (lowerBuffer options elementSize count).Within E P fun _ ↦ True := by
  refine .seq .width fun width ↦ .seq (.temporary hE (.inl rfl)) fun countSlot ↦ ?_
  refine .seq (.temporary hE (.inr rfl)) fun addressSlot ↦ ?_
  refine .seq (.emit _) fun _ ↦ .seq (.emit _) fun _ ↦ .seq (.discard (h.checkOrTrap _)) fun _ ↦ ?_
  exact .seq (.emitAll _) fun _ ↦ .seq (.emitAll _) fun _ ↦ .emitAll _

/-- An object needs no variable. -/
theorem within_lowerObject (options : CompilerOptions) (size : UInt32)
    (constructor? : Option Callable) {args : List Operand} (h : ∀ arg ∈ args, arg.Within E)
    (span : Span) : (lowerObject options size constructor? args span).Within E P fun _ ↦ True := by
  refine .seq .width fun width ↦ .seq (.emit _) fun _ ↦ .seq (.emit _) fun _ ↦ ?_
  cases constructor? with
  | none => exact .pure fun _ ↦ trivial
  | some c => exact .seq (Lower.within_bindArguments options c.params h span) fun _ ↦ .emit _

end ConstructionPlan

/-- A construction tells the type of addresses. -/
theorem Operand.within_construct (hE : E.Stocked) (options : CompilerOptions) (node : NodeId)
    (callee : Option String) (typeArgs : Option (List TypeExpr)) {args : Option (List Operand)}
    (h : ∀ arg ∈ args.getD [], arg.Within E) (span : Span) :
    (construct options node callee typeArgs args span).Within E := by
  refine within_ofInference (.seq (.annotate _ _) fun _ ↦ .seq .get fun s ↦ ?_)
  refine .lift_bind (ConstructionPlan.within_ofConstruction hE span _) fun s' ↦ ?_
  split
  next plan hplan =>
    have hlower : (plan.lower options (args.getD []) span).Within E True fun _ ↦ True := by
      -- the count of a buffer is an argument
      rcases ConstructionPlan.ofConstruction_eq_ok hplan with
        ⟨element, count, size, hshape, rfl⟩ | ⟨size, constructor?, rfl⟩
      · have hcount : count.Within E := h count (by simp [Construction.classify_eq_buffer hshape])
        exact ConstructionPlan.within_lowerBuffer hE options size hcount
      · exact ConstructionPlan.within_lowerObject options size constructor? h span
    exact .seq hlower fun _ ↦ .pure fun _ ↦ hE.sized_address.known
  next error _ => exact .seq (.trap error) fun _ ↦ .pure fun _ ↦ hE.sized_address.known

/-! ### Expressions -/

mutual

/-- Every expression tells a known type. -/
theorem Expr.within_operand (hE : E.Stocked) (options : CompilerOptions) :
    (e : Expr) → (e.operand options).Within E
  | .literal value span => Operand.within_literal hE value span
  | .var name span => Operand.within_var name.name span
  | .call callee args span =>
    Operand.within_call options _ callee.span (within_operandsOfList hE options args) span
  | .construct node _ typeArgs args span =>
    Operand.within_construct hE options node _ typeArgs (within_operandsOfArgs hE options args) span
  | .paren inner span => (inner.within_operand hE options).paren span
termination_by structural e => e

/-- Every expression in a list tells a known type. -/
theorem within_operandsOfList (hE : E.Stocked) (options : CompilerOptions) :
    (es : List Expr) → ∀ arg ∈ operandsOfList options es, arg.Within E
  | [] => by simp [operandsOfList]
  | e :: es => by
    rw [operandsOfList]
    exact List.forall_mem_cons.2
      ⟨e.within_operand hE options, within_operandsOfList hE options es⟩
termination_by structural es => es

/-- So do the arguments of a construction, if it has any. -/
theorem within_operandsOfArgs (hE : E.Stocked) (options : CompilerOptions) :
    (es : Option (List Expr)) → ∀ arg ∈ (operandsOfArgs options es).getD [], arg.Within E
  | none => by simp [operandsOfArgs]
  | some es => by
    rw [operandsOfArgs, Option.getD_some]
    exact within_operandsOfList hE options es
termination_by structural es => es

end

/-! ### Statements -/

namespace Lower

/-- A parameter is declared if its type can be stored. -/
theorem within_declareParam (span : Span) (param : Param) (h : E.Sized param.type) :
    (declareParam span param).Within E P fun _ ↦ True := by
  refine .seq (.declare fun _ ↦ h) fun r ↦ ?_
  cases r with
  | ok slot => exact .pure fun _ ↦ trivial
  | error error => exact .report error

/-- A value of a known type is stored in a variable, unless the type is `void`. -/
theorem within_storeVariable (name : Ident) (span : Span) (type : Fingerprint)
    (h : P → E.Known type) : (storeVariable name span type).Within E P fun _ ↦ True := by
  unfold storeVariable
  split
  next => exact .seq .registry fun _ ↦ .trap _
  next hvoid =>
    refine .seq (.declare fun hp ↦ (h hp).resolve_left hvoid) fun r ↦ ?_
    cases r with
    | ok slot => exact .emit _
    | error error => exact .seq (.report error) fun _ ↦ .emit .pop

/-- A variable gets the written type, or that of its value. -/
theorem within_declareVariable (hE : E.Stocked) (name : Ident) (type : Option TypeExpr)
    {value : Operand} (h : value.Within E) (span : Span) :
    (declareVariable name type value span).Within E P fun _ ↦ True := by
  cases type with
  | none =>
    refine .bind h.inferOrTrap fun r ↦ ?_
    cases r with
    | none => exact .pure fun _ ↦ trivial
    | some info => exact within_storeVariable name span info.type fun hp ↦ hp.2 info rfl
  | some written =>
    have hresolve := (written.within_resolve hE).of_imp fun _ : P ↦ trivial
    refine .bind (Attempt.Within.resolve hresolve) fun r ↦ ?_
    cases r with
    | error error => exact .trap error
    | ok expected =>
      refine .bind (h.checkOrTrap expected) fun info ↦ ?_
      exact within_storeVariable name span info.type fun hp ↦ hp.2 ▸ hp.1.2 expected rfl

/-- A function returns a value of its type, or nothing. -/
theorem within_pushResult (returns : Fingerprint) {value : Option Operand}
    (h : ∀ o, value = some o → o.Within E) (span : Span) :
    (pushResult returns value span).Within E P fun _ ↦ True := by
  cases value with
  | some value => exact .discard ((h value rfl).checkOrTrap returns)
  | none =>
    show Within E P (if returns = voidType then _ else _) _
    split
    · exact .pure fun _ ↦ trivial
    · exact .seq .registry fun _ ↦ .trap _

end Lower

/-- A statement keeps the variables among those that can be stored. -/
theorem Stmt.within_lower (hE : E.Stocked) (options : CompilerOptions) (returns : Fingerprint)
    (stmt : Stmt) : (stmt.lower options returns).Within E P fun _ ↦ True := by
  refine .seq (.setLine _) fun _ ↦ ?_
  cases stmt with
  | expr e span => exact (e.within_operand hE options).evaluateAndDrop
  | declare name type value span =>
    exact Lower.within_declareVariable hE name type (value.within_operand hE options) span
  | ret value span =>
    refine .seq (Lower.within_pushResult returns (fun o ho ↦ ?_) span) fun _ ↦ .emit _
    obtain ⟨e, -, rfl⟩ := Option.map_eq_some_iff.1 ho
    exact e.within_operand hE options

end StackLowering
