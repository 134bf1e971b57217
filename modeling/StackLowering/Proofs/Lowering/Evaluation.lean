import StackLowering.Proofs.Lowering.CallOrder
import StackLowering.Proofs.Lowering.Traps

/-!
# The order of evaluation

If nothing is reported, the code of an operand calls functions in the order that its form tells
(`Operand.Calls`), however its value is asked for: conversions, literals, variables and defaults call
nothing, and an argument that would not be evaluated is reported. So the calls in the code of a script
that compiles without errors are those of its statements, one after the other, and none is lost, made
twice or moved (`Script.callOrder_compile`).

The proof follows the recursion of `Expr.callOrder`, with one rule for each form. Calls and
constructions are the forms in which something is called besides the arguments. For a construction
lowering and the order have to find out the same: whether it is a buffer (`map_bufferShape?`), which
class its name reaches, and which constructor that class has. Lowering lays out the class on the way,
the order does not; their registries look alike up to that (`ConstructionPlan.follows_ofClass`,
`ConstructionPlan.follows_elementSize`).

In the end the instructions are compared with bytes. They are read back from the code with the pool of
the whole script, which is where the bound on its size comes in: beyond it the index of a symbol no
longer fits.
-/

namespace StackLowering

/-! ### Operands -/

/-- An operand that calls what an order tells, in both ways of lowering it. -/
structure Operand.Calls (o : Operand) (order : CallOrder) : Prop where
  infer {s : LoweringState} {t : Symbols} : s.Follows t → Attempt.Calls s t o.infer order
  check {s : LoweringState} {t : Symbols} (expected : Fingerprint) : s.Follows t →
    Attempt.Calls s t (o.check expected) order

namespace Operand

variable {s : LoweringState} {t : Symbols} {o : Operand} {order : CallOrder} {span : Span}
  {expected : Fingerprint}

/-- If the operand fails, the trap comes with an error. -/
theorem Calls.checkOrTrap (ho : o.Calls order) (expected : Fingerprint) (h : s.Follows t) :
    Lower.Calls s t (o.checkOrTrap expected) order :=
  (ho.check expected h).handle (fun info _ h₁ ↦ .pure h₁ info) fun _ _ ↦ List.cons_ne_nil _ _

/-- The same holds where no type is expected. -/
theorem Calls.inferOrTrap (ho : o.Calls order) (h : s.Follows t) :
    Lower.Calls s t o.inferOrTrap order :=
  (ho.infer h).handle (fun info _ h₁ ↦ .pure h₁ (some info)) fun _ _ ↦ List.cons_ne_nil _ _

/-- A value is dropped without a call. -/
theorem Calls.evaluateAndDrop (ho : o.Calls order) (h : s.Follows t) :
    Lower.Calls s t o.evaluateAndDrop order := by
  refine (ho.inferOrTrap h).bind_silent fun t₁ h₁ ↦ ?_
  rcases (o.inferOrTrap.run s).value with _ | info
  · exact .pure h₁ ()
  · show Lower.Calls _ t₁ (if info.type = voidType then _ else _) _
    split
    · exact .pure h₁ ()
    · exact .emit h₁ .pop

/-- A conversion calls nothing. -/
theorem calls_convert (h : s.Follows t) (span : Span) (expected : Fingerprint) (info : ValueInfo) :
    Attempt.Calls s t (convert span expected info) (pure []) := by
  unfold convert
  split
  · exact .pure h info
  · refine .registry_bind ?_
    split
    · exact .silent_bind (.plainAll h Conversion.plain_code) fun t₁ h₁ ↦ .pure h₁ _
    · exact .throw _

/-- What keeps to an order in inferring a type does so in checking against one. -/
theorem calls_ofInference {x : Attempt ValueInfo}
    (hx : ∀ {s : LoweringState} {t : Symbols}, s.Follows t → Attempt.Calls s t x order) :
    (ofInference span x).Calls order := by
  have hinfer {s : LoweringState} {t : Symbols} (h : s.Follows t) :
      Attempt.Calls s t (ofInference span x).infer order :=
    .silent_bind (.silent h rfl rfl) fun t₁ h₁ ↦ hx h₁
  exact ⟨hinfer, fun expected h ↦ (hinfer h).bind_silent fun info t₁ h₁ ↦
    calls_convert h₁ span expected info⟩

/-- A literal calls nothing. -/
theorem calls_literal (value : Literal) (span : Span) : (literal value span).Calls (pure []) := by
  have hplain : (ofInference span do
      Lower.emit (.const value.constant)
      return .computed value.type).Calls (pure []) :=
    calls_ofInference fun h ↦ .silent_bind (.emit h _) fun t₁ h₁ ↦ .pure h₁ _
  refine ⟨hplain.infer, fun {s t} expected h ↦ ?_⟩
  refine .silent_bind (x := Lower.width) (.silent h rfl rfl) fun t₁ h₁ ↦ ?_
  split
  · exact .silent_bind (.emit h₁ _) fun t₂ h₂ ↦ .pure h₂ _
  · exact hplain.check expected h₁

/-- A variable calls nothing. -/
theorem calls_var (name : String) (span : Span) : (var name span).Calls (pure []) := by
  refine calls_ofInference fun h ↦ .get_bind ?_
  split
  · exact .silent_bind (.emit h _) fun t₁ h₁ ↦ .pure h₁ _
  · exact .throw _

/-- Parentheses may stand around an operand. -/
theorem Calls.paren (ho : o.Calls order) (span : Span) : (o.paren span).Calls order :=
  ⟨fun h ↦ .silent_bind (.silent h rfl rfl) fun _ h₁ ↦ ho.infer h₁, ho.check⟩

end Operand

/-! ### Arguments -/

namespace Lower

variable {s : LoweringState} {t : Symbols} {args : List Operand} {orders : List CallOrder}

/-- A default calls nothing. -/
theorem calls_supply (h : s.Follows t) (span : Span) (param : Param) :
    Calls s t (supply span param) (pure []) := by
  unfold supply
  split
  next value _ =>
    refine .bind_of_run (x := registry) rfl rfl ?_
    split
    · exact .emit h _
    · exact .trap _
  next => exact .emit h .trap

/-- If nothing is reported, no argument is missing but those with a default. -/
theorem calls_supplyMissing (h : s.Follows t) (shortfall : CompileError) (span : Span)
    (missing : List Param) : Calls s t (supplyMissing shortfall span missing) (pure []) := by
  refine .silent_bind (.forM_silent h fun param _ s t h ↦ calls_supply h span param) fun t₁ h₁ ↦ ?_
  split
  next => exact .pure h₁ ()
  next => exact .of_errors (List.cons_ne_nil _ _)

/-- The arguments that have a parameter are evaluated from left to right. -/
theorem calls_checkArguments {pairs : List (Param × Operand)} (h : s.Follows t)
    (hpairs : List.Forall₂ (fun q order ↦ q.2.Calls order) pairs orders) :
    Calls s t (checkArguments pairs) (.inOrder orders) :=
  .forM h (hpairs.imp fun q _ hq _ _ h ↦ (hq.checkOrTrap q.1.type h).discard)

/-- Arguments are evaluated from left to right. If some are in excess, this is reported. -/
theorem calls_bindArguments (h : s.Follows t) (options : CompilerOptions) (params : List Param)
    (hargs : List.Forall₂ Operand.Calls args orders) (span : Span) :
    Calls s t (bindArguments options params args span) (.inOrder orders) := by
  rcases Nat.lt_or_ge params.length args.length with hlt | hle
  · refine .of_errors fun hnil ↦ ?_
    rw [bindArguments, output_bind, Output.errors_append, List.append_eq_nil_iff, output_bind,
      Output.errors_append, List.append_eq_nil_iff] at hnil
    have hextra : args.drop params.length ≠ [] := by simpa using hlt
    obtain ⟨arg, extra, hextra⟩ := List.exists_cons_of_ne_nil hextra
    rw [hextra] at hnil
    exact List.cons_ne_nil _ _ hnil.2.2
  · have hpairs : List.Forall₂ (fun q order ↦ q.2.Calls order) (params.zip args) orders :=
      List.forall₂_map_left_iff.1 (by rwa [List.map_snd_zip hle])
    refine .bind_silent (calls_checkArguments h hpairs) fun t₁ h₁ ↦ ?_
    refine .silent_bind (calls_supplyMissing h₁ _ span _) fun t₂ h₂ ↦ ?_
    rw [List.drop_eq_nil_of_le hle]
    exact .pure h₂ ()

end Lower

/-- A function is called after its arguments were evaluated. -/
theorem Operand.calls_call (options : CompilerOptions) (callee : Option String) (calleeSpan : Span)
    {args : List Operand} {orders : List CallOrder} (hargs : List.Forall₂ Operand.Calls args orders)
    (span : Span) :
    (call options callee calleeSpan args span).Calls
      ((CallOrder.inOrder orders).andThen (pure [callee.getD anonymousCallee])) := by
  refine calls_ofInference fun h ↦ .registry_bind ?_
  split
  next => exact .throw _
  next f hf =>
    obtain ⟨-, hname⟩ := h.built.indexed.functionNamed?_eq_some_iff.1 hf
    rw [← hname]
    split
    next => exact .throw _
    next argc _ =>
      exact .lift_bind (Lower.calls_bindArguments h options f.params hargs span) fun t₁ h₁ ↦
        .bind_silent (.lift (.emit h₁ _)) fun _ t₂ h₂ ↦ .pure h₂ _

/-! ### Constructions -/

namespace ConstructionPlan

variable {s : LoweringState} {t : Symbols}

/-- A plan writes no code. -/
theorem code_ofConstruction (span : Span) (shape : Construction) (s : LoweringState) :
    Lower.code (ofConstruction span shape).run s = [] := by
  obtain ⟨-, -, -, houtput⟩ := quiet_ofConstruction span shape s
  rw [Lower.code, houtput]
  rfl

/-- What is found out about an object when it is planned: its constructor. -/
theorem follows_ofClass (h : s.Follows t) {id : Fingerprint} {span : Span} {plan : ConstructionPlan}
    (hplan : ((ofClass id span).run.run s).value = .ok plan) :
    (∃ size, plan = .object size (t.registry.constructorOf? id)) ∧
      ((ofClass id span).run.run s).state.Follows t := by
  rw [run_ofClass] at hplan ⊢
  split at hplan
  next => exact nomatch hplan
  next size registry hregistry =>
    have halike := h.symbols.registry.layOutClass_left hregistry
    have hbuilt : registry.Built := Symbols.Step.built (.layOut hregistry) h.built
    refine ⟨⟨size, ?_⟩, ⟨halike, h.symbols.instances⟩, hbuilt⟩
    rw [halike.constructorOf?]
    dsimp only at hplan
    split at hplan
    next hc => rw [hc, Except.ok.inj hplan]
    next c hc =>
      rw [hc]
      split at hplan
      next => exact (Except.ok.inj hplan).symm
      next => exact nomatch hplan

/-- What is found out about a buffer when it is planned: the type of its elements. -/
theorem follows_elementSize (h : s.Follows t) {element : BufferElement} {size : UInt32}
    (hsize : ((elementSize element).run.run s).value = .ok size) :
    ∃ t₁, element.resolve.run.run t = (.ok (), t₁) ∧
      ((elementSize element).run.run s).state.Follows t₁ := by
  rcases element with type | _
  · obtain ⟨id, hid, -⟩ := Attempt.bind_eq_ok.1 hsize
    obtain ⟨hvalue, hstate⟩ := h.resolve (type.alike_resolve h.symbols) type.steps_resolve
    refine ⟨(type.resolve.run.run t).2, ?_, ?_⟩
    · exact Resolution.run_bind_of_run (Prod.ext (hvalue.trans hid) rfl) _
    · rw [elementSize, Attempt.state_bind _ hid, Attempt.run_registry_bind]
      split <;> exact hstate
  · exact ⟨t, rfl, h⟩

/-- What is found out about a buffer, by its name and the type arguments. -/
theorem follows_buffer (h : s.Follows t) {name : String} {typeArgs : Option (List TypeExpr)}
    {args : Option (List Operand)} {element : BufferElement} {count : Operand}
    (hbuffer : bufferShape? name typeArgs args = some (element, count)) {span : Span}
    {plan : ConstructionPlan}
    (hplan : ((ofConstruction span (.classify s.symbols.registry s.frame (some name) typeArgs
      args)).run.run s).value = .ok plan) :
    ∃ size t₁, element.resolve.run.run t = (.ok (), t₁) ∧ plan = .buffer size count ∧
      ((ofConstruction span (.classify s.symbols.registry s.frame (some name) typeArgs
        args)).run.run s).state.Follows t₁ := by
  have hshape : Construction.classify s.symbols.registry s.frame (some name) typeArgs args =
      .buffer element count := by
    unfold Construction.classify
    dsimp only
    rw [hbuffer]
  rw [hshape] at hplan ⊢
  obtain ⟨size, hsize, hbuffered⟩ := Attempt.bind_eq_ok.1 hplan
  obtain ⟨t₁, helement, hend⟩ := follows_elementSize h hsize
  rw [ofConstruction, Attempt.state_bind _ hsize]
  exact ⟨size, t₁, helement, (Except.ok.inj hbuffered).symm, hend⟩

/-- What is found out about an object, by its name and the type arguments. -/
theorem follows_object (h : s.Follows t) {name : String} {typeArgs : Option (List TypeExpr)}
    {args : Option (List Operand)} (hbuffer : bufferShape? name typeArgs args = none) {span : Span}
    {plan : ConstructionPlan}
    (hplan : ((ofConstruction span (.classify s.symbols.registry s.frame (some name) typeArgs
      args)).run.run s).value = .ok plan) :
    ∃ id size t₁, (namedTarget name (typeArgs.getD []) span).run.run t = (.ok id, t₁) ∧
      plan = .object size (t₁.registry.constructorOf? id) ∧
      ((ofConstruction span (.classify s.symbols.registry s.frame (some name) typeArgs
        args)).run.run s).state.Follows t₁ := by
  rw [ofConstruction_eq span (Construction.classify_ne_buffer hbuffer)] at hplan ⊢
  obtain ⟨id, hid, hclass⟩ := Attempt.bind_eq_ok.1 hplan
  have hframe : s.frame.find? name = none := by
    rcases hfind : s.frame.find? name with _ | v
    · rfl
    · -- a variable is nothing that can be constructed
      rw [Construction.classify, hbuffer, Meaning.ofName, hfind] at hid
      exact nomatch hid
  -- what the construction reaches is what its name does
  have htarget : (Attempt.resolve ((Construction.classify s.symbols.registry s.frame (some name)
      typeArgs args).target span)).run.run s =
        (Attempt.resolve (namedTarget name (typeArgs.getD []) span)).run.run s := by
    rw [Attempt.run_resolve, Construction.run_target hframe hbuffer]
    rfl
  obtain ⟨hvalue, hstate⟩ := h.resolve
    (alike_namedTarget h.symbols name (typeArgs.getD []) span) (steps_namedTarget _ _ _)
  rw [Attempt.state_bind _ hid]
  rw [htarget] at hid hclass ⊢
  obtain ⟨⟨size, hplan⟩, hend⟩ := follows_ofClass hstate hclass
  exact ⟨id, size, _, Prod.ext (hvalue.trans hid) rfl, hplan, hend⟩

/-- The count of a buffer is evaluated before it is allocated. -/
theorem calls_lowerBuffer (h : s.Follows t) (options : CompilerOptions) (size : UInt32)
    {count : Operand} {order : CallOrder} (hcount : count.Calls order) :
    Lower.Calls s t (lowerBuffer options size count) (order.andThen (pure [options.allocator])) := by
  refine .silent_bind (.silent h rfl rfl) fun _ h₁ ↦ ?_
  refine .silent_bind (.silent h₁ rfl rfl) fun _ h₂ ↦ .silent_bind (.silent h₂ rfl rfl) fun _ h₃ ↦ ?_
  refine .silent_bind (.emit h₃ _) fun _ h₄ ↦ .silent_bind (.emit h₄ _) fun _ h₅ ↦ ?_
  refine (hcount.checkOrTrap addressType h₅).discard.bind fun _ h₆ ↦ ?_
  exact .bind_silent (.emitAll h₆ _) fun _ h₇ ↦
    .silent_bind (.plainAll h₇ (plain_narrowCount _)) fun _ h₈ ↦ .emitAll h₈ _

/-- An object is allocated before the arguments of its constructor are evaluated. -/
theorem calls_lowerObject (h : s.Follows t) (options : CompilerOptions) (size : UInt32)
    (constructor? : Option Callable) {args : List Operand} {orders : List CallOrder}
    (hargs : List.Forall₂ Operand.Calls args orders) (span : Span) :
    Lower.Calls s t (lowerObject options size constructor? args span)
      (.object options.allocator orders constructor?) := by
  refine .silent_bind (.silent h rfl rfl) fun _ h₁ ↦ .silent_bind (.emit h₁ _) fun _ h₂ ↦ ?_
  rcases constructor? with _ | c
  · exact .bind_silent (.emit h₂ _) fun _ h₃ ↦ .pure h₃ ()
  · exact .bind (.emit h₂ _) fun _ h₃ ↦
      (Lower.calls_bindArguments h₃ options c.params hargs span).bind fun _ h₄ ↦ .emit h₄ _

end ConstructionPlan

/-- What a construction calls goes by its form, and by what its name means at that moment. -/
theorem Operand.calls_construct (options : CompilerOptions) (node : NodeId) (callee : Option String)
    (typeArgs : Option (List TypeExpr)) {args : Option (List Operand)} {orders : List CallOrder}
    (hargs : List.Forall₂ Operand.Calls (args.getD []) orders) (span : Span) :
    (construct options node callee typeArgs args span).Calls
      (.construction options.allocator callee (typeArgs.getD []) orders span) := by
  refine calls_ofInference fun {s t} h ↦ .silent_bind (.silent h rfl rfl) fun t h ↦ .get_bind ?_
  generalize ((Lower.annotate node addressType).run s).state = s at h ⊢
  have hcode := ConstructionPlan.code_ofConstruction span
    (.classify s.symbols.registry s.frame callee typeArgs args) s
  rcases hplan : ((ConstructionPlan.ofConstruction span
    (.classify s.symbols.registry s.frame callee typeArgs args)).run.run s).value with error | plan
  · refine .lift_bind_of_run hcode rfl ?_
    rw [hplan]
    exact .bind_silent (.lift (.trap error)) fun _ _ h₁ ↦ .pure h₁ _
  rcases callee with _ | name
  · exact nomatch hplan
  have helement := map_bufferShape? name typeArgs args
  rw [hargs.length_eq] at helement
  rcases hbuffer : bufferShape? name typeArgs args with _ | ⟨element, count⟩
  · obtain ⟨id, size, t₁, hid, rfl, h₁⟩ := ConstructionPlan.follows_object h hbuffer hplan
    refine .lift_bind_of_run hcode (CallOrder.run_construction_object ?_ hid) ?_
    · rw [← helement, hbuffer, Option.map_none]
    · rw [hplan]
      exact .bind_silent (.lift (ConstructionPlan.calls_lowerObject h₁ options size _ hargs span))
        fun _ _ h₂ ↦ .pure h₂ _
  · obtain ⟨size, t₁, hresolved, rfl, h₁⟩ := ConstructionPlan.follows_buffer h hbuffer hplan
    obtain ⟨rfl, -⟩ := bufferShape?_eq_some hbuffer
    obtain ⟨order, rest, hcount, hrest, rfl⟩ := List.forall₂_cons_left_iff.1 hargs
    obtain rfl := List.forall₂_nil_left_iff.1 hrest
    refine .lift_bind_of_run hcode (CallOrder.run_construction_buffer ?_ hresolved) ?_
    · rw [← helement, hbuffer, Option.map_some]
    · rw [hplan, CallOrder.inOrder_singleton]
      exact .bind_silent (.lift (ConstructionPlan.calls_lowerBuffer h₁ options size hcount))
        fun _ _ h₂ ↦ .pure h₂ _

/-! ### Expressions -/

mutual

/-- If nothing is reported, an expression calls what its form tells. -/
theorem Expr.calls_operand (options : CompilerOptions) : (e : Expr) →
    (e.operand options).Calls (e.callOrder options.allocator)
  | .literal value span => Operand.calls_literal value span
  | .var name span => Operand.calls_var name.name span
  | .call callee args span =>
    Operand.calls_call options callee.ident? callee.span (calls_operandsOfList options args) span
  | .construct node callee typeArgs args span =>
    Operand.calls_construct options node (callee.bind Expr.ident?) typeArgs
      (calls_operandsOfArgs options args) span
  | .paren inner span => (inner.calls_operand options).paren span
termination_by structural e => e

/-- Expressions in a list call what their forms tell, one by one. -/
theorem calls_operandsOfList (options : CompilerOptions) : (es : List Expr) →
    List.Forall₂ Operand.Calls (operandsOfList options es) (callOrdersOfList options.allocator es)
  | [] => .nil
  | e :: es => .cons (e.calls_operand options) (calls_operandsOfList options es)
termination_by structural es => es

/-- So do the arguments of a construction, if it has any. -/
theorem calls_operandsOfArgs (options : CompilerOptions) : (es : Option (List Expr)) →
    List.Forall₂ Operand.Calls ((operandsOfArgs options es).getD [])
      (callOrdersOfArgs options.allocator es)
  | none => .nil
  | some es => calls_operandsOfList options es
termination_by structural es => es

end

/-! ### Statements -/

namespace Lower

variable {s : LoweringState} {t : Symbols} {o : Operand} {order : CallOrder}

theorem calls_declare (h : s.Follows t) (name : String) (type : Fingerprint) (span : Span) :
    Attempt.Calls s t (Attempt.declare name type span) (pure []) :=
  fun _ _ ↦ .silent h rfl rfl

theorem calls_declareParam (h : s.Follows t) (span : Span) (param : Param) :
    Calls s t (declareParam span param) (pure []) :=
  (calls_declare h param.name param.type span).handle (fun _ _ h₁ ↦ .pure h₁ ())
    fun _ _ ↦ List.cons_ne_nil _ _

theorem calls_storeVariable (h : s.Follows t) (name : Ident) (span : Span) (type : Fingerprint) :
    Calls s t (storeVariable name span type) (pure []) := by
  unfold storeVariable
  split
  · exact .bind_of_run (x := registry) rfl rfl (.trap _)
  · exact (calls_declare h name.name type name.span).handle (fun _ _ h₁ ↦ .emit h₁ _)
      fun _ _ ↦ List.cons_ne_nil _ _

/-- A written type is resolved before the value is evaluated, so that the instances in it are created
first. -/
theorem calls_declareVariable (h : s.Follows t) (name : Ident) (type : Option TypeExpr)
    (ho : o.Calls order) (span : Span) :
    Calls s t (declareVariable name type o span) (order.declaration type) := by
  rcases type with _ | written
  · refine (ho.inferOrTrap h).bind_silent fun t₁ h₁ ↦ ?_
    rcases (o.inferOrTrap.run s).value with _ | info
    · exact .pure h₁ ()
    · exact calls_storeVariable h₁ name span info.type
  · obtain ⟨hvalue, hstate⟩ := h.resolve (written.alike_resolve h.symbols) written.steps_resolve
    rcases hresolved : ((Attempt.resolve written.resolve).run.run s).value with error | expected
    · refine .bind_of_run (x := (Attempt.resolve written.resolve).run) rfl rfl ?_
      rw [hresolved]
      exact .trap error
    · refine .bind_of_run (x := (Attempt.resolve written.resolve).run) rfl
        (Resolution.run_bind_of_run (Prod.ext (hvalue.trans hresolved) rfl) _) ?_
      rw [hresolved]
      exact (ho.checkOrTrap expected hstate).bind_silent fun _ h₂ ↦ calls_storeVariable h₂ name span _

theorem calls_finish (h : s.Follows t) (returns : Fingerprint) :
    Calls s t (finish returns) (pure []) := by
  unfold finish
  split <;> exact .emit h _

theorem calls_pushResult (h : s.Follows t) (returns : Fingerprint) (span : Span) :
    Calls s t (pushResult returns none span) (pure []) := by
  show Calls s t (if returns = voidType then _ else _) _
  split
  · exact .pure h ()
  · exact .bind_of_run (x := registry) rfl rfl (.trap _)

end Lower

/-- If nothing is reported, a statement calls what its form tells. -/
theorem Stmt.calls_lower {s : LoweringState} {t : Symbols} (options : CompilerOptions)
    (h : s.Follows t) (returns : Fingerprint) (stmt : Stmt) :
    Lower.Calls s t (stmt.lower options returns) (stmt.callOrder options.allocator) := by
  refine .silent_bind (x := Lower.setLine stmt.span.line) (.silent h rfl rfl) fun _ h₁ ↦ ?_
  rcases stmt with ⟨e, span⟩ | ⟨name, type, value, span⟩ | ⟨_ | value, span⟩
  · exact (e.calls_operand options).evaluateAndDrop h₁
  · exact Lower.calls_declareVariable h₁ name type (value.calls_operand options) span
  · exact (Lower.calls_pushResult h₁ returns span).bind_silent fun _ h₂ ↦ Lower.calls_finish h₂ returns
  · exact ((value.calls_operand options).checkOrTrap returns h₁).discard.bind_silent fun _ h₂ ↦
      Lower.calls_finish h₂ returns

/-! ### Functions -/

/-- What ends a function calls nothing. -/
theorem Callable.callees_ending (f : Callable) (body : List Stmt) : callees (f.ending body) = [] := by
  unfold ending
  split
  · rfl
  · split <;> rfl

/-- If nothing is reported, a function calls what its statements tell. -/
theorem Callable.calls_lower (options : CompilerOptions) (f : Callable) (d : FunctionDecl)
    {s : LoweringState} {t : Symbols} (h : s.Follows t)
    (herrors : (f.lower options d.body d.span s).1.output.errors = []) :
    ∃ t', (d.callOrder options.allocator).run.run t =
        (.ok (callees (f.lower options d.body d.span s).1.output.instructions), t') ∧
      (f.lower options d.body d.span s).2.Follows t' := by
  have hstart : (bodyStart s).Follows t := ⟨h.symbols, h.built⟩
  have hbody : Lower.Calls (bodyStart s) t
      (f.lowerStatements options d.body d.span >>= fun _ ↦ Lower.emitAll (f.ending d.body))
      (d.callOrder options.allocator) := by
    refine .bind_silent (.silent_bind ?_ fun _ h₁ ↦ .forM h₁ ?_) fun _ h₂ ↦ ?_
    · exact .forM_silent hstart fun param _ _ _ h ↦ Lower.calls_declareParam h d.span param
    · exact List.forall₂_map_right_iff.2 (List.forall₂_same.2 fun stmt _ _ _ h ↦
        stmt.calls_lower options h f.returns)
    · have hending := Lower.Calls.emitAll h₂ (f.ending d.body)
      rwa [f.callees_ending] at hending
  rw [Lower.Calls, Lower.code, ← run_lowerBody] at hbody
  exact hbody herrors

/-! ### Scripts -/

/-- If nothing is reported, functions call what their statements tell, one after the other. -/
theorem calls_lowerFunctions (options : CompilerOptions) (fs : List (FunctionDecl × Callable))
    (hnames : ∀ q ∈ fs, q.2.name = q.1.name.name) {s : LoweringState} {t : Symbols}
    (h : s.Follows t) (herrors : ∀ g ∈ (lowerFunctions options fs s).1, g.output.errors = []) :
    ∃ t', (callOrders options.allocator (fs.map Prod.fst)).run.run t =
      (.ok ((lowerFunctions options fs s).1.map fun g ↦ (g.name, callees g.output.instructions)), t') := by
  induction fs generalizing s t with
  | nil => exact ⟨t, rfl⟩
  | cons q fs ih =>
    obtain ⟨d, f⟩ := q
    rw [lowerFunctions] at herrors ⊢
    obtain ⟨t₁, hfirst, h₁⟩ := f.calls_lower options d h (herrors _ List.mem_cons_self)
    obtain ⟨t₂, hrest⟩ := ih (fun q hq ↦ hnames q (List.mem_cons_of_mem _ hq)) h₁
      fun g hg ↦ herrors g (List.mem_cons_of_mem _ hg)
    refine ⟨t₂, ?_⟩
    have hname : f.name = d.name.name := hnames (d, f) List.mem_cons_self
    rw [List.map_cons, callOrders, Resolution.run_bind_of_run hfirst, Resolution.run_bind_of_run hrest,
      ← hname]
    rfl

/-- If a script compiles without errors, and its pool has at most 65536 entries, the code of each
function calls exactly what its statements tell, in the same order: from left to right, a function after
its arguments, a buffer after its count, and an object before the arguments of its constructor, which
comes last. -/
theorem Script.callOrder_compile (options : CompilerOptions) (registry : Registry) (script : Script)
    (hr : registry.Built) (herrors : (script.compile options registry).errors = [])
    (hpool : (script.compile options registry).pool.size ≤ 65536) :
    ∃ rows, script.callOrder options.allocator registry = .ok rows ∧
      (script.compile options registry).functions.map (fun f ↦
          (f.name, (f.calls (script.compile options registry).pool).map (List.map Prod.fst))) =
        rows.map fun q ↦ (q.1, .ok (q.2.map some)) := by
  obtain ⟨hscript, hlowered⟩ := errors_eq_nil herrors
  have hstart : LoweringState.Follows { symbols := (declareFunctions script { registry }).2 }
      (declareFunctions script { registry }).2 :=
    ⟨.refl _, (Symbols.Grows.declareFunctions script { registry }).built hr⟩
  have hnames : ∀ q ∈ (declareFunctions script { registry }).1.1, q.2.name = q.1.name.name := by
    intro q hq
    obtain ⟨-, types, returns, hcallable⟩ := mem_declareFunctions hq
    exact congrArg Callable.name hcallable
  obtain ⟨t, hrun⟩ := calls_lowerFunctions options _ hnames hstart hlowered
  rw [hscript] at hrun
  refine ⟨_, congrArg Prod.fst hrun, ?_⟩
  rw [List.map_map]
  refine (congrFun₂ List.forall₂_eq_eq_eq _ _).mp
    (List.forall₂_map_left_iff.2 (List.forall₂_map_right_iff.2 ?_))
  refine (script.assembledTo_compile options registry).flip.imp fun f g hassembled ↦ ?_
  rw [hassembled.calls_eq (script.listed_compile options registry) hpool, hassembled.name]
  simp [Except.map, callees, Function.comp_def]

/-- A point is allocated before the argument of its constructor is evaluated, and an array after that. -/
theorem Script.callOrder_compile_point :
    pointRegistry.Built ∧ (pointScript.compile {} pointRegistry).errors = [] ∧
      (pointScript.compile {} pointRegistry).pool.size ≤ 65536 ∧
      (pointScript.compile {} pointRegistry).functions.map (fun f ↦
          (f.name, (f.calls (pointScript.compile {} pointRegistry).pool).map (List.map Prod.fst))) =
        [("same", .ok []),
          ("main", .ok [some "malloc", some "same", some "Point#ctor", some "malloc"])] := by
  have herrors : (pointScript.compile {} pointRegistry).errors = [] := by
    decide +kernel
  have hpool : (pointScript.compile {} pointRegistry).pool.size ≤ 65536 := by
    decide +kernel
  have horder : pointScript.callOrder "malloc" pointRegistry =
      .ok [("same", []), ("main", ["malloc", "same", "Point#ctor", "malloc"])] := by
    decide +kernel
  obtain ⟨rows, hrows, hcalls⟩ := callOrder_compile {} pointRegistry pointScript
    usable_pointRegistry.built herrors hpool
  obtain rfl := Except.ok.inj (horder.symm.trans hrows)
  exact ⟨usable_pointRegistry.built, herrors, hpool, hcalls⟩

end StackLowering
