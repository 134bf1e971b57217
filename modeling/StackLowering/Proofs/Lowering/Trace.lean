import Mathlib.Data.List.TakeWhile
import StackLowering.Proofs.Lowering.Actions

/-!
# Lowering is a row of actions

Every part of a script is lowered by a row of actions, whatever the registered symbols are, whether it
fails or not, and however its lowering is asked for. The proof follows the forms of expressions; for
the body of a function it starts from an empty frame (`Callable.trace_bodyEnd`).

For most computations the rules of `Lower.Traced` are enough, since what they write needs no grounds or
brings its grounds along. Four places need more, because what is written there depends on what was
found before, and something was lowered in between:

* A call is written after its arguments. The function was found before them, and is still registered
  (`Operand.traced_call`).
* A constructor is called after its arguments as well (`Operand.traced_construct`).
* The temporaries of a buffer get their slots before its count is lowered, and are read after it. In
  between, buffers in the count may have used the same temporaries
  (`ConstructionPlan.traced_lowerBuffer`).
* Arguments without a default are trapped on the ground of one report for all of them
  (`Lower.traced_supplyMissing`).

In each of them a fact from the start is carried along the steps in between, which take nothing away.
The last part cuts the lowering of a function at the end of its parameters (`Callable.paramsEnd`) and
at the end of its statements (`Callable.bodyEnd`), since other actions are possible before, between and
after them.
-/

namespace StackLowering

open Relation

variable {options : CompilerOptions} {Uses : NameUse → Prop}

/-! ### Conversions -/

namespace Primitive

/-- Narrowing an integer to its range refers to nothing. -/
theorem plain_normalize {p : Primitive} : ∀ i ∈ p.normalize, i.Plain := by
  cases p <;> simp [normalize] <;> decide

theorem plain_truthTest (c : Category) : (truthTest c).Plain := by
  cases c <;> decide

/-- A conversion of primitive values refers to nothing: it is a truth test, or an instruction between
two categories with a narrowing after it. -/
theorem plain_conversionCode {pointer : Width} {source target : Primitive} :
    ∀ i ∈ conversionCode pointer source target, i.Plain := by
  intro i hi
  unfold conversionCode at hi
  split at hi
  next here there _ _ =>
    split at hi
    next =>
      obtain rfl := List.mem_singleton.1 hi
      exact plain_truthTest here.category
    next =>
      rcases List.mem_append.1 hi with hi | hi
      · split at hi
        · simp at hi
        · obtain rfl := List.mem_singleton.1 hi
          exact ⟨rfl, rfl, nofun⟩
      · split at hi
        · simp at hi
        · exact plain_normalize i hi
  next => simp at hi

end Primitive

/-- No conversion refers to anything, so that it needs no grounds. -/
theorem Conversion.plain_code {c : Conversion} {pointer : Width} : ∀ i ∈ c.code pointer, i.Plain := by
  cases c with
  | primitive source target => exact Primitive.plain_conversionCode
  | identity => simp [code]
  | reinterpret => simp [code]

/-! ### Operands -/

/-- An operand that is a row of actions, in both ways of lowering it. -/
structure Operand.Traced (options : CompilerOptions) (Uses : NameUse → Prop) (o : Operand) : Prop where
  infer : o.infer.Traced options Uses
  check (expected : Fingerprint) : (o.check expected).Traced options Uses

namespace Operand

variable {o : Operand} {span : Span}

/-- If an operand cannot be lowered, the error is reported before the trap. -/
theorem Traced.checkOrTrap (h : o.Traced options Uses) (expected : Fingerprint) :
    (o.checkOrTrap expected).Traced options Uses := by
  refine .bind (h.check expected) fun r ↦ ?_
  cases r with
  | ok info => exact .pure _
  | error error => exact .bind (.trap error) fun _ ↦ .pure _

/-- The same holds where no type is expected. -/
theorem Traced.inferOrTrap (h : o.Traced options Uses) : o.inferOrTrap.Traced options Uses := by
  refine .bind h.infer fun r ↦ ?_
  cases r with
  | ok info => exact .pure _
  | error error => exact .bind (.trap error) fun _ ↦ .pure _

/-- A value that nobody needs is dropped by an instruction of its own. -/
theorem Traced.evaluateAndDrop (h : o.Traced options Uses) :
    o.evaluateAndDrop.Traced options Uses := by
  refine .bind h.inferOrTrap fun r ↦ ?_
  cases r with
  | none => exact .pure _
  | some info =>
    show Lower.Traced options Uses (if info.type = voidType then _ else _)
    split
    · exact .pure _
    · exact .plain (by decide)

/-- A conversion is found in the registry before it is written. -/
theorem traced_convert (span : Span) (expected : Fingerprint) (info : ValueInfo) :
    Attempt.Traced options Uses (convert span expected info) := by
  unfold convert
  split
  · exact .pure _
  · refine .bind (.lift .registry) fun registry ↦ ?_
    split
    · exact .bind (.lift (.plainAll Conversion.plain_code)) fun _ ↦ .pure _
    · exact .throw _

/-- What infers a type by actions also checks against one by actions: only a conversion follows. -/
theorem traced_ofInference {x : Attempt ValueInfo} (h : x.Traced options Uses) :
    (ofInference span x).Traced options Uses := by
  have hinfer : (ofInference span x).infer.Traced options Uses :=
    .bind (.lift (.setLine _)) fun _ ↦ h
  exact ⟨hinfer, fun expected ↦ .bind hinfer (traced_convert span expected)⟩

/-- A literal is a constant, in whichever type it is written. -/
theorem traced_literal (value : Literal) (span : Span) : (literal value span).Traced options Uses := by
  have hplain : (ofInference span do
      Lower.emit (.const value.constant)
      return .computed value.type).Traced options Uses :=
    traced_ofInference (.bind (.lift (.const _)) fun _ ↦ .pure _)
  refine ⟨hplain.infer, fun expected ↦ .bind (.lift .width) fun width ↦ ?_⟩
  split
  · exact .bind (.lift (.const _)) fun _ ↦ .pure _
  · exact hplain.check expected

/-- A variable is read only after it was found in the frame. -/
theorem traced_var {name : String} (h : Uses (.read name)) (span : Span) :
    (var name span).Traced options Uses := by
  refine traced_ofInference fun p ↦ .lift_bind (Lower.Traced.get p) ?_
  split
  next v hv => exact .lift_bind (.emit (.read h hv)) (.pure _)
  next => exact .pure _

/-- Parentheses write nothing. -/
theorem Traced.paren (h : o.Traced options Uses) (span : Span) : (o.paren span).Traced options Uses :=
  ⟨.bind (.lift (.setLine _)) fun _ ↦ h.infer, h.check⟩

end Operand

/-! ### Arguments -/

namespace Lower

/-- A default is written as a constant. Where its type cannot be held there is an error. -/
theorem traced_pushDefault (type : Fingerprint) (span : Span) (value : DefaultValue) :
    (pushDefault type span value).Traced options Uses := by
  refine .bind .registry fun registry ↦ ?_
  split
  · exact .const _
  · exact .trap _

/-- A parameter without a default is trapped once an error was reported. -/
theorem traces_supply {p : Progress} {param : Param} (span : Span)
    (h : param.default?.isSome ∨ p.output.errors ≠ []) :
    p.Traces options Uses (supply span param) := by
  unfold supply
  split
  next value _ => exact traced_pushDefault param.type span value p
  next hnone => exact .emit (.trap (h.resolve_left (by simp [hnone])))

/-- The missing arguments up to the first without a default are supplied as they are. For the others
the shortfall is reported first, which is an error behind every trap that follows. -/
theorem traced_supplyMissing (shortfall : CompileError) (span : Span) (missing : List Param) :
    (supplyMissing shortfall span missing).Traced options Uses := by
  refine .bind (.forM fun param hparam p ↦ ?_) fun _ ↦ ?_
  · have hdefault := List.mem_takeWhile_imp hparam
    exact traces_supply span (.inl hdefault)
  · split
    · exact .pure _
    · intro p
      refine .bind (Traced.report shortfall p) (.forM (I := fun q ↦ q.output.errors ≠ []) ?_
        (p.errors_after_report_ne_nil shortfall))
      intro q herrors param _
      exact ⟨traces_supply span (.inr herrors), q.errors_after_ne_nil herrors _⟩

/-- The arguments that have a parameter are lowered one after the other. -/
theorem traced_checkArguments {pairs : List (Param × Operand)}
    (h : ∀ pair ∈ pairs, pair.2.Traced options Uses) :
    (checkArguments pairs).Traced options Uses :=
  .forM fun pair hpair ↦ .discard ((h pair hpair).checkOrTrap _)

/-- Arguments without a parameter are reported, and then evaluated or passed over as the options say.
-/
theorem traced_rejectExcess (excess : CompileError) {extra : List Operand}
    (h : ∀ arg ∈ extra, arg.Traced options Uses) :
    (rejectExcess options excess extra).Traced options Uses := by
  unfold rejectExcess
  split
  · exact .pure _
  · refine .bind (.report _) fun _ ↦ ?_
    split
    · exact .forM fun arg harg ↦ (h arg harg).evaluateAndDrop
    · exact .pure _

/-- The three parts of a list of arguments follow each other. -/
theorem traced_bindArguments (params : List Param) {args : List Operand}
    (h : ∀ arg ∈ args, arg.Traced options Uses) (span : Span) :
    (bindArguments options params args span).Traced options Uses := by
  refine .bind (traced_checkArguments fun pair hpair ↦ h _ (List.of_mem_zip hpair).2) fun _ ↦ ?_
  refine .bind (traced_supplyMissing _ span _) fun _ ↦ ?_
  exact traced_rejectExcess _ fun arg harg ↦ h arg (List.mem_of_mem_drop harg)

end Lower

/-! ### Calls -/

/-- The function that is called was found before its arguments were lowered, and still is. -/
theorem Operand.traced_call {callee : Option String}
    (hcallee : Uses (.call (callee.getD anonymousCallee))) (calleeSpan : Span)
    {args : List Operand} (h : ∀ arg ∈ args, arg.Traced options Uses) (span : Span) :
    (call options callee calleeSpan args span).Traced options Uses := by
  refine traced_ofInference fun p ↦ .lift_bind (Lower.Traced.registry p) ?_
  split
  next => exact .pure _
  next f hf =>
    split
    next => exact .pure _
    next argc hargc =>
      have hargs := Lower.traced_bindArguments f.params h span (p.after Lower.registry)
      have hext := LoweringState.Steps.registry hargs.steps
      refine .lift_bind hargs (.lift_bind (.emit ?_) (.pure _))
      exact .call hcallee (hext.functionNamed? hf) hargc

/-! ### Constructions -/

namespace ConstructionPlan

/-- What is left to do for a buffer once its temporaries have slots. -/
def fillBuffer (options : CompilerOptions) (width : Width) (countSlot addressSlot elementSize : UInt32)
    (count : Operand) : Lower Unit := do
  Lower.emit (.const (.ofPointer headerSize.toUInt64 width))
  Lower.emit (.const (.ofPointer elementSize.toUInt64 width))
  discard (count.checkOrTrap addressType)
  Lower.emitAll [.teeLocal countSlot, .mul width, .add width, .call options.allocator 1,
    .teeLocal addressSlot, .getLocal countSlot]
  Lower.emitAll (narrowCount width)
  Lower.emitAll [.store .i32 0 headerSize.toUInt8, .getLocal addressSlot]

/-- A buffer first asks for its temporaries, which writes nothing. -/
theorem run_lowerBuffer_eq (options : CompilerOptions) (size : UInt32) (count : Operand)
    (s : LoweringState) :
    (lowerBuffer options size count).run s =
      (fillBuffer options s.symbols.registry.width (countSlot s) (addressSlot s) size count).run
        (countState s) := rfl

theorem plain_narrowCount (w : Width) : ∀ i ∈ narrowCount w, i.Plain := by
  cases w <;> decide

/-- The temporaries of a buffer are read after they were written. -/
theorem traces_allocate {p : Progress} {v v' : LocalVariable}
    (hv : p.state.frame.find? countTemporary = some v)
    (hv' : p.state.frame.find? addressTemporary = some v') (width : Width) :
    p.Traces options Uses (do
      Lower.emitAll [.teeLocal v.slot, .mul width, .add width, .call options.allocator 1,
        .teeLocal v'.slot, .getLocal v.slot]
      Lower.emitAll (narrowCount width)
      Lower.emitAll [.store .i32 0 headerSize.toUInt8, .getLocal v'.slot]) := by
  refine .bind (.emitAll_cons (.keep (.inl rfl) hv) ?_) ?_
  · refine .emitAll_cons (.plain ⟨rfl, rfl, nofun⟩) (.emitAll_cons (.plain ⟨rfl, rfl, nofun⟩) ?_)
    refine .emitAll_cons .allocate (.emitAll_cons (.keep (.inr rfl) hv') ?_)
    refine .emitAll_cons (.reload (.inl rfl) hv ?_) .emitAll_nil
    simp [Progress.instructions_after, Lower.code_emit]
  · refine .bind (Lower.Traced.plainAll (plain_narrowCount width) _) ?_
    refine .emitAll_cons (.plain ⟨rfl, rfl, nofun⟩) (.emitAll_cons (.reload (.inr rfl) hv' ?_) .emitAll_nil)
    simp [Progress.instructions_after, Lower.code_emit, Lower.code_emitAll]

/-- A buffer is lowered by actions. Other constructions may stand in its count and use the same
temporaries, which keep their slots. -/
theorem traced_lowerBuffer (size : UInt32) {count : Operand} (h : count.Traced options Uses) :
    (lowerBuffer options size count).Traced options Uses := by
  intro p
  have hstart : p.after (lowerBuffer options size count) =
      Progress.after ⟨countState p.state, p.output⟩ (fillBuffer options p.state.symbols.registry.width
        (countSlot p.state) (addressSlot p.state) size count) := by
    rw [Progress.after, Progress.after, run_lowerBuffer_eq]
  have hcount := Lower.Traced.discard (h.checkOrTrap addressType)
  rw [Progress.Traces, hstart]
  refine .head (.temporaries p) ?_
  refine Progress.Traces.bind (.emit (.const _)) (.bind (.emit (.const _)) (.bind (hcount _) ?_))
  -- the temporaries still have their slots after the count
  have hsteps := (hcount ⟨countState p.state, p.output⟩).steps
  obtain ⟨v, hv, hcountSlot⟩ := find?_countSlot hsteps
  obtain ⟨v', hv', haddressSlot⟩ := find?_addressSlot hsteps
  rw [← hcountSlot, ← haddressSlot]
  exact traces_allocate hv hv' _

/-- An object is lowered by actions where its constructor is one of the registered constructors and
takes no more arguments than a call can have. -/
theorem traced_lowerObject {size : UInt32} {constructor? : Option Callable} {args : List Operand}
    (h : ∀ arg ∈ args, arg.Traced options Uses) {span : Span} {p : Progress}
    (hc : ∀ c, constructor? = some c → ∃ id argc,
      p.state.symbols.registry.constructorOf? id = some c ∧
        argcByte? (constructorArgc c) = some argc) :
    p.Traces options Uses (lowerObject options size constructor? args span) := by
  refine .bind (Lower.Traced.width p) (.bind (.emit (.const _)) (.bind (.emit .allocate) ?_))
  cases constructor? with
  | none => exact .pure _
  | some c =>
    obtain ⟨id, argc, hid, hargc⟩ := hc c rfl
    have hbyte : (constructorArgc c).toUInt8 = argc :=
      Option.some.inj (Option.ite_none_right_eq_some.1 hargc).2
    have hargs := Lower.traced_bindArguments c.params h span
    refine .bind (hargs _) (.emit ?_)
    have hext := LoweringState.Steps.registry (hargs p).steps
    rw [hbyte]
    exact .construct (hext.constructorOf? hid) hargc

end ConstructionPlan

/-- The constructor of an object is that of its class when the construction is planned. -/
theorem Operand.traced_construct (node : NodeId) (callee : Option String)
    (typeArgs : Option (List TypeExpr)) {args : Option (List Operand)}
    (h : ∀ arg ∈ args.getD [], arg.Traced options Uses) (span : Span) :
    (construct options node callee typeArgs args span).Traced options Uses := by
  refine traced_ofInference (.bind (.lift (.annotate _ _)) fun _ ↦ fun p ↦ ?_)
  have hplanned : (p.after Lower.get).Traces options Uses (ConstructionPlan.ofConstruction span
      (.classify p.state.symbols.registry p.state.frame callee typeArgs args)).run :=
    Lower.Traced.of_quiet (ConstructionPlan.quiet_ofConstruction span _) _
  refine .lift_bind (Lower.Traced.get p) (.lift_bind hplanned ?_)
  split
  next plan hplan =>
    refine .lift_bind ?_ (.pure _)
    rcases ConstructionPlan.ofConstruction_eq_ok hplan with
      ⟨element, count, size, hshape, rfl⟩ | ⟨size, constructor?, rfl⟩
    · have hcount := h count (by simp [Construction.classify_eq_buffer hshape])
      exact ConstructionPlan.traced_lowerBuffer size hcount _
    · refine ConstructionPlan.traced_lowerObject h fun c hc ↦ ?_
      subst hc
      exact ConstructionPlan.constructorOf?_ofConstruction hplan
  next error _ => exact .lift_bind (Lower.Traced.trap error _) (.pure _)

/-! ### Expressions -/

mutual

/-- An expression is lowered by actions, on the grounds of the names that it uses. -/
theorem Expr.traced_operand : (e : Expr) → (∀ u ∈ e.uses, Uses u) →
    (e.operand options).Traced options Uses
  | .literal value span, _ => Operand.traced_literal value span
  | .var _ span, h => Operand.traced_var (h _ (List.mem_singleton_self _)) span
  | .call callee args span, h =>
    Operand.traced_call (h _ List.mem_cons_self) callee.span
      (traced_operandsOfList args fun u hu ↦ h u (List.mem_cons_of_mem _ hu)) span
  | .construct node _ typeArgs args span, h =>
    Operand.traced_construct node _ typeArgs (traced_operandsOfArgs args h) span
  | .paren inner span, h => (inner.traced_operand h).paren span
termination_by structural e => e

/-- Expressions in a list are lowered by actions. -/
theorem traced_operandsOfList : (es : List Expr) → (∀ u ∈ usesOfList es, Uses u) →
    ∀ arg ∈ operandsOfList options es, arg.Traced options Uses
  | [], _ => by simp [operandsOfList]
  | e :: es, h => by
    rw [operandsOfList]
    intro arg harg
    rcases List.mem_cons.1 harg with rfl | harg
    · exact e.traced_operand fun u hu ↦ h u (List.mem_append_left _ hu)
    · exact traced_operandsOfList es (fun u hu ↦ h u (List.mem_append_right _ hu)) arg harg
termination_by structural es => es

/-- So are the arguments of a construction, if it has any. -/
theorem traced_operandsOfArgs : (es : Option (List Expr)) → (∀ u ∈ usesOfArgs es, Uses u) →
    ∀ arg ∈ (operandsOfArgs options es).getD [], arg.Traced options Uses
  | none, _ => by simp [operandsOfArgs]
  | some es, h => by
    rw [operandsOfArgs, Option.getD_some]
    exact traced_operandsOfList es h
termination_by structural es => es

end

/-! ### Statements -/

namespace Lower

/-- The slot of a new variable is written as soon as it is declared. -/
theorem traced_storeVariable {name : Ident} (hname : Uses (.declare name.name)) (span : Span)
    (type : Fingerprint) : (storeVariable name span type).Traced options Uses := by
  unfold storeVariable
  split
  · exact .bind .registry fun _ ↦ .trap _
  · intro p
    cases hnew : p.state.frame.find? name.name with
    | some v =>
      -- a name that is taken changes nothing
      have hrun : (Attempt.declare name.name type name.span).run.run p.state =
          ⟨.error (.variableRedeclaration name.name name.span), p.state, .empty⟩ := by
        rw [Attempt.run_declare, Frame.declare, hnew]
      refine .bind ?_ ?_
      · rw [Progress.Traces, Progress.after, hrun, Output.append_empty]
      · rw [hrun]
        exact .bind (Traced.report _ _) (.emit (.plain (by decide)))
    | none =>
      have hrun : (Attempt.declare name.name type name.span).run.run p.state =
          ⟨.ok p.state.frame.size,
            { p.state with frame := (p.state.frame.allocate name.name type name.span).2 }, .empty⟩ := by
        rw [Attempt.run_declare, Frame.declare, hnew]
        rfl
      have hafter : p.after (Attempt.declare name.name type name.span).run =
          ⟨{ p.state with frame := (p.state.frame.allocate name.name type name.span).2 }, p.output⟩ := by
        rw [Progress.after, hrun, Output.append_empty]
      rw [Progress.Traces, Progress.after_bind, hafter, hrun]
      exact .single (.declare p name.name hname hnew type name.span)

/-- A variable is declared after its value was lowered. -/
theorem traced_declareVariable {name : Ident} (hname : Uses (.declare name.name))
    (type : Option TypeExpr) {value : Operand} (h : value.Traced options Uses) (span : Span) :
    (declareVariable name type value span).Traced options Uses := by
  cases type with
  | none =>
    refine .bind h.inferOrTrap fun r ↦ ?_
    cases r with
    | none => exact .pure _
    | some info => exact traced_storeVariable hname span info.type
  | some written =>
    refine .bind (.of_quiet (.resolve written.steps_resolve)) fun r ↦ ?_
    cases r with
    | error error => exact .trap _
    | ok expected =>
      exact .bind (h.checkOrTrap expected) fun info ↦ traced_storeVariable hname span info.type

/-- What ends a function refers to nothing. -/
theorem traced_finish (returns : Fingerprint) : (finish returns).Traced options Uses := by
  unfold finish
  split
  · exact .plain (by decide)
  · exact .plain (by decide)

/-- A value that is returned is checked against the type of the function. -/
theorem traced_returnValue (returns : Fingerprint) {value : Option Operand}
    (h : ∀ o, value = some o → o.Traced options Uses) (span : Span) :
    (returnValue returns value span).Traced options Uses := by
  refine .bind ?_ fun _ ↦ traced_finish returns
  cases value with
  | some o => exact .discard ((h o rfl).checkOrTrap returns)
  | none =>
    show Lower.Traced options Uses (if returns = voidType then _ else _)
    split
    · exact .pure _
    · exact .bind .registry fun _ ↦ .trap _

end Lower

/-- A statement is lowered by actions. -/
theorem Stmt.traced_lower (returns : Fingerprint) {stmt : Stmt} (h : ∀ u ∈ stmt.uses, Uses u) :
    (stmt.lower options returns).Traced options Uses := by
  refine .bind (.setLine _) fun _ ↦ ?_
  cases stmt with
  | expr e span => exact (e.traced_operand h).evaluateAndDrop
  | declare name type value span =>
    have hvalue : (value.operand options).Traced options Uses :=
      value.traced_operand fun u hu ↦ h u (List.mem_cons_of_mem _ hu)
    exact Lower.traced_declareVariable (h _ List.mem_cons_self) type hvalue span
  | ret value span =>
    refine Lower.traced_returnValue returns (fun o ho ↦ ?_) span
    obtain ⟨e, rfl, rfl⟩ := Option.map_eq_some_iff.1 ho
    exact e.traced_operand h

/-! ### Functions -/

/-- A parameter is declared without a store. A repeated one is reported. -/
theorem Lower.trace_declareParam {param : Param} (h : Uses (.declare param.name)) (span : Span)
    (p : Progress) : Trace options Uses p (p.after (declareParam span param)) := by
  have hdeclare : Trace options Uses p
      (p.after (Attempt.declare param.name param.type span).run) := by
    rw [p.after_of_output_eq rfl]
    exact .single (.parameter p param.name h param.type span)
  rw [declareParam, Progress.after_bind]
  refine hdeclare.trans ?_
  split
  · rw [Progress.after_pure]
  · exact .single (.report _ _)

namespace Callable

/-- What is lowered of a function before it is ended. -/
def lowerStatements (options : CompilerOptions) (f : Callable) (body : List Stmt) (span : Span) :
    Lower Unit := do
  f.params.forM (Lower.declareParam span)
  body.forM (Stmt.lower options f.returns)

/-- The instruction that ends a function whose body does not. -/
def ending (f : Callable) (body : List Stmt) : List SymbolicInstruction :=
  if endsInReturn body then [] else [if f.returns = voidType then .retVoid else .trap]

/-- The state in which the parameters of a function are declared. -/
def bodyStart (s : LoweringState) : LoweringState := { s with frame := .empty, line := 1 }

/-- The body of a function is lowered from an empty frame, and then ended. -/
theorem run_lowerBody (options : CompilerOptions) (f : Callable) (body : List Stmt) (span : Span)
    (s : LoweringState) :
    (f.lowerBody options body span).run s =
      (f.lowerStatements options body span >>= fun _ ↦ Lower.emitAll (f.ending body)).run
        (bodyStart s) := by
  have hend : (if endsInReturn body then pure ()
      else Lower.emit (if f.returns = voidType then .retVoid else .trap)) =
        Lower.emitAll (f.ending body) := by
    unfold ending
    split <;> rfl
  rw [lowerStatements, ← hend, bind_assoc]
  rfl

/-- What was done when the parameters of a function were declared. -/
def paramsEnd (f : Callable) (span : Span) (s : LoweringState) : Progress :=
  Progress.after ⟨bodyStart s, .empty⟩ (f.params.forM (Lower.declareParam span))

/-- What was done when the last statement of a function was lowered. -/
def bodyEnd (options : CompilerOptions) (f : Callable) (body : List Stmt) (span : Span)
    (s : LoweringState) : Progress :=
  Progress.after ⟨bodyStart s, .empty⟩ (f.lowerStatements options body span)

/-- The statements start where the parameters are declared. -/
theorem bodyEnd_eq (options : CompilerOptions) (f : Callable) (body : List Stmt) (span : Span)
    (s : LoweringState) :
    f.bodyEnd options body span s =
      (f.paramsEnd span s).after (body.forM (Stmt.lower options f.returns)) :=
  Progress.after_bind _ _ _

/-- Parameters are declared by actions, one after the other. -/
theorem trace_paramsEnd {f : Callable} (hparams : ∀ param ∈ f.params, Uses (.declare param.name))
    (span : Span) (s : LoweringState) :
    Trace options Uses ⟨bodyStart s, .empty⟩ (f.paramsEnd span s) := by
  unfold paramsEnd
  generalize (⟨bodyStart s, .empty⟩ : Progress) = p
  generalize f.params = params at hparams ⊢
  induction params generalizing p with
  | nil =>
    show Trace options Uses p (p.after (pure ()))
    rw [Progress.after_pure]
  | cons param params ih =>
    show Trace options Uses p
      (p.after (Lower.declareParam span param >>= fun _ ↦ params.forM (Lower.declareParam span)))
    rw [Progress.after_bind]
    exact (Lower.trace_declareParam (hparams param List.mem_cons_self) span p).trans
      (ih _ fun q hq ↦ hparams q (List.mem_cons_of_mem param hq))

/-- The statements of a function are lowered by actions once its parameters are declared. -/
theorem bodyTrace_bodyEnd {f : Callable} {body : List Stmt}
    (hbody : ∀ stmt ∈ body, ∀ u ∈ stmt.uses, Uses u) (span : Span) (s : LoweringState) :
    BodyTrace options Uses (f.paramsEnd span s) (f.bodyEnd options body span s) := by
  have hstmts : (body.forM (Stmt.lower options f.returns)).Traced options Uses :=
    .forM fun _ hstmt ↦ Stmt.traced_lower f.returns (hbody _ hstmt)
  rw [bodyEnd_eq]
  exact hstmts _

/-- From an empty frame to its last statement, a function is lowered by actions. -/
theorem trace_bodyEnd {f : Callable} {body : List Stmt}
    (hparams : ∀ param ∈ f.params, Uses (.declare param.name))
    (hbody : ∀ stmt ∈ body, ∀ u ∈ stmt.uses, Uses u) (span : Span) (s : LoweringState) :
    Trace options Uses ⟨bodyStart s, .empty⟩ (f.bodyEnd options body span s) :=
  (trace_paramsEnd hparams span s).trans (bodyTrace_bodyEnd hbody span s).trace

variable (options)

/-- The instruction that ends a function changes no state. -/
theorem snd_lower (f : Callable) (body : List Stmt) (span : Span) (s : LoweringState) :
    (f.lower options body span s).2 = (f.bodyEnd options body span s).state := by
  show ((f.lowerBody options body span).run s).state = _
  rw [run_lowerBody]
  rfl

/-- The code of a lowered function is that of its statements, and then its end. -/
theorem instructions_lower (f : Callable) (body : List Stmt) (span : Span) (s : LoweringState) :
    (f.lower options body span s).1.output.instructions =
      (f.bodyEnd options body span s).output.instructions ++ f.ending body := by
  show ((f.lowerBody options body span).run s).output.instructions = _
  rw [run_lowerBody, Lower.output_bind, Output.instructions_append]
  exact congrArg _ (Lower.code_emitAll _ _)

/-- From an empty frame, lowering a function only makes steps. -/
theorem steps_lower (f : Callable) (body : List Stmt) (span : Span) (s : LoweringState) :
    (bodyStart s).Steps (f.lower options body span s).2 := by
  have htrace : Trace options (fun _ ↦ True) ⟨bodyStart s, .empty⟩ (f.bodyEnd options body span s) :=
    trace_bodyEnd (fun _ _ ↦ trivial) (fun _ _ _ _ ↦ trivial) span s
  rw [snd_lower]
  exact htrace.steps

end Callable

end StackLowering
