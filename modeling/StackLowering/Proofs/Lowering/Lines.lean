import StackLowering.Proofs.Lowering.UpToLines
import StackLowering.Proofs.Machine.Reading

/-!
# Lines of instructions

Lowering goes to the line of an expression when the expression is lowered for its own sake, and it does
not come back from the parts of an expression. What a call, a constructor or a buffer writes after its
parts is therefore on the line that the last part was lowered on, and an integer literal that takes on
an expected type is on the line of whatever comes before it.

The lowering in which each expression does go to its own line (`Expr.placed`) is the same up to lines.
It is the same altogether exactly where all that an expression writes for itself is on its line anyway
(`Expr.InPlace`), and where it is not, the table of lines tells (`Expr.lines_eq_placed_iff`).

## How the two lowerings are compared

The instructions of the two are equal without their lines, for every expression
(`Expr.upToLines_placed`), so that the lines are the only question. It is answered part by part: each
part of an expression writes the same lines in both under a condition of its own, and all that is
written is the same exactly if the conditions of all parts hold (`Expr.tells`). This needs the pieces
to be as long in both, which is what equality up to lines provides.

`Expr.InPlace` is told from the lowering itself, not from the text: an argument in excess, for
instance, has a part in it only if it is evaluated.
-/

namespace StackLowering

/-! ### Going back to the line -/

namespace Operand

/-- A literal that is always on its line. -/
def placedLiteral (value : Literal) (span : Span) : Operand :=
  { literal value span with
    check := fun expected ↦ do
      match value.constantAs? (← Lower.width) expected with
      | some constant =>
        Lower.setLine span.line
        Lower.emit (.const constant)
        return .computed expected
      | none => (literal value span).infer >>= convert span expected }

/-- A call that goes back to its line after the arguments. -/
def placedCall (options : CompilerOptions) (callee : Option String) (calleeSpan : Span)
    (args : List Operand) (span : Span) : Operand :=
  .ofInference span do
    let name := callee.getD anonymousCallee
    match (← Lower.registry).functionNamed? name with
    | none => throw (.unknownFunction name calleeSpan)
    | some f =>
      match argcByte? f.arity with
      | none => throw (.internal s!"'{f.name}' has too many parameters")
      | some argc =>
        Lower.bindArguments options f.params args span
        Lower.setLine span.line
        Lower.emit (.call f.name argc)
        return .computed f.returns

end Operand

namespace ConstructionPlan

/-- A buffer that goes back to its line after the count. -/
def placedBuffer (options : CompilerOptions) (elementSize : UInt32) (count : Operand) (line : UInt32) :
    Lower Unit := do
  let width ← Lower.width
  let countSlot ← Lower.temporary countTemporary addressType
  let addressSlot ← Lower.temporary addressTemporary addressType
  Lower.emit (.const (.ofPointer headerSize.toUInt64 width))
  Lower.emit (.const (.ofPointer elementSize.toUInt64 width))
  discard (count.checkOrTrap addressType)
  Lower.setLine line
  Lower.emitAll [.teeLocal countSlot, .mul width, .add width, .call options.allocator 1,
    .teeLocal addressSlot, .getLocal countSlot]
  Lower.emitAll (narrowCount width)
  Lower.emitAll [.store .i32 0 headerSize.toUInt8, .getLocal addressSlot]

/-- An object that goes back to its line after the arguments. -/
def placedObject (options : CompilerOptions) (size : UInt32) (constructor? : Option Callable)
    (args : List Operand) (span : Span) : Lower Unit := do
  Lower.emit (.const (.ofPointer size.toUInt64 (← Lower.width)))
  Lower.emit (.call options.allocator 1)
  match constructor? with
  | none => return ()
  | some c =>
    Lower.bindArguments options c.params args span
    Lower.setLine span.line
    Lower.emit (.call c.name (constructorArgc c).toUInt8)

/-- A planned construction that goes back to its line. -/
def placed (options : CompilerOptions) (args : List Operand) (span : Span) :
    ConstructionPlan → Lower Unit
  | buffer elementSize count => placedBuffer options elementSize count span.line
  | object size constructor? => placedObject options size constructor? args span

end ConstructionPlan

mutual

/-- An expression as an operand that writes on its own line all that it writes for itself. -/
def Expr.placed (options : CompilerOptions) : Expr → Operand
  | .literal value span => .placedLiteral value span
  | .var name span => .var name.name span
  | .call callee args span =>
    .placedCall options callee.ident? callee.span (placedOfList options args) span
  | .construct node callee typeArgs args span =>
    .constructBy node (callee.bind Expr.ident?) typeArgs (placedOfArgs options args) span
      (ConstructionPlan.placed options ((placedOfArgs options args).getD []) span)
  | .paren inner span => .paren (inner.placed options) span
termination_by structural e => e

/-- A list of expressions as operands on their own lines. -/
def placedOfList (options : CompilerOptions) : List Expr → List Operand
  | [] => []
  | e :: es => e.placed options :: placedOfList options es
termination_by structural es => es

/-- The arguments of a construction as operands on their own lines. -/
def placedOfArgs (options : CompilerOptions) : Option (List Expr) → Option (List Operand)
  | none => none
  | some es => some (placedOfList options es)
termination_by structural es => es

end

/-! ### Being in place -/

mutual

/-- Whatever an expression writes for itself is on its line, and so it is for its parts: a literal that
takes on the expected type starts on its line, and the line of a call, a constructor or a buffer is the
current one when its parts are done. -/
def Expr.InPlace (options : CompilerOptions) : Expr → Option Fingerprint → LoweringState → Prop
  | .literal value span, mode, s =>
    ∀ expected ∈ mode, (value.constantAs? s.symbols.registry.width expected).isSome →
      s.line = span.line
  | .var _ _, _, _ => True
  | .call callee args span, _, s =>
    let start : LoweringState := { s with line := span.line }
    ∀ f argc, s.symbols.registry.functionNamed? (callee.ident?.getD anonymousCallee) = some f →
      argcByte? f.arity = some argc →
      argsInPlace options args (f.params.map (·.type)) start ∧
        ((Lower.bindArguments options f.params (operandsOfList options args) span).run
          start).state.line = span.line
  | .construct _ callee typeArgs args span, _, s =>
    let operands := operandsOfArgs options args
    let shape := Construction.classify s.symbols.registry s.frame (callee.bind Expr.ident?) typeArgs
      operands
    let planned := (ConstructionPlan.ofConstruction span shape).run.run { s with line := span.line }
    match planned.value with
    | .ok (.buffer _ count) =>
      let start := ConstructionPlan.countState planned.state
      partsInPlace options args [addressType] start ∧
        ((count.checkOrTrap addressType).run start).state.line = span.line
    | .ok (.object _ (some c)) =>
      partsInPlace options args (c.params.map (·.type)) planned.state ∧
        ((Lower.bindArguments options c.params (operands.getD []) span).run
          planned.state).state.line = span.line
    | .ok (.object _ none) => True
    | .error _ => True
  | .paren inner span, mode, s =>
    inner.InPlace options mode (if mode.isSome then s else { s with line := span.line })
termination_by structural e => e

/-- The arguments are in place, one after the other, those in excess of the given types only if they
are evaluated. -/
def argsInPlace (options : CompilerOptions) : List Expr → List Fingerprint → LoweringState → Prop
  | [], _, _ => True
  | e :: es, type :: types, s =>
    e.InPlace options (some type) s ∧
      argsInPlace options es types (((e.operand options).checkOrTrap type).run s).state
  | e :: es, [], s =>
    options.evaluateExcess = true →
      e.InPlace options none s ∧
        argsInPlace options es [] ((e.operand options).evaluateAndDrop.run s).state
termination_by structural es => es

/-- The arguments of a construction are in place. -/
def partsInPlace (options : CompilerOptions) :
    Option (List Expr) → List Fingerprint → LoweringState → Prop
  | none, _, _ => True
  | some es, types, s => argsInPlace options es types s
termination_by structural es => es

end

/-! ### The same up to lines -/

namespace Operand

variable {args args' : List Operand}

theorem upToLines_placedLiteral (value : Literal) (span : Span) :
    (literal value span).UpToLines (placedLiteral value span) := by
  have hinfer : Attempt.UpToLines Eq (literal value span).infer (literal value span).infer :=
    .lift_bind_eq (.setLine _ _) fun _ ↦ .lift_bind_eq (.emit _) fun _ ↦ .pure rfl
  refine ⟨hinfer, fun expected ↦ .lift_bind_eq .width fun width ↦ ?_⟩
  cases value.constantAs? width expected with
  | some constant =>
    exact .lift_setLine_bind (.lift_bind_eq (.emit _) fun _ ↦ .pure rfl) span.line
  | none => exact hinfer.bind_eq fun info ↦ upToLines_convert span expected info

theorem upToLines_placedCall (options : CompilerOptions) (callee : Option String) (calleeSpan : Span)
    (h : List.Forall₂ UpToLines args args') (span : Span) :
    (call options callee calleeSpan args span).UpToLines
      (placedCall options callee calleeSpan args' span) := by
  refine upToLines_ofInference (.lift_bind_eq .registry fun r ↦ ?_)
  cases r.functionNamed? (callee.getD anonymousCallee) with
  | none => exact .throw _
  | some f =>
    dsimp only
    cases argcByte? f.arity with
    | none => exact .throw _
    | some argc =>
      refine .lift_bind_eq (Lower.upToLines_bindArguments options f.params h span) fun _ ↦ ?_
      exact .lift_setLine_bind (.lift_bind_eq (.emit _) fun _ ↦ .pure rfl) span.line

end Operand

namespace ConstructionPlan

variable {args args' : List Operand} {plan plan' : ConstructionPlan}

theorem upToLines_placed (options : CompilerOptions) (hplan : plan.UpToLines plan')
    (hargs : List.Forall₂ Operand.UpToLines args args') (span : Span) :
    Lower.UpToLines Eq (plan.lower options args span) (plan'.placed options args' span) := by
  cases hplan with
  | buffer size hcount =>
    refine Lower.UpToLines.width.bind_eq fun width ↦ ?_
    refine (Lower.UpToLines.temporary countTemporary addressType).bind_eq fun countSlot ↦ ?_
    refine (Lower.UpToLines.temporary addressTemporary addressType).bind_eq fun addressSlot ↦ ?_
    refine (Lower.UpToLines.emit _).bind_eq fun _ ↦ (Lower.UpToLines.emit _).bind_eq fun _ ↦ ?_
    refine (hcount.checkOrTrap addressType).discard.bind_eq fun _ ↦ .setLine_bind ?_ span.line
    refine (Lower.UpToLines.emitAll _).bind_eq fun _ ↦ ?_
    exact (Lower.UpToLines.emitAll _).bind_eq fun _ ↦ .emitAll _
  | object size constructor? =>
    refine Lower.UpToLines.width.bind_eq fun width ↦ ?_
    refine (Lower.UpToLines.emit _).bind_eq fun _ ↦ (Lower.UpToLines.emit _).bind_eq fun _ ↦ ?_
    cases constructor? with
    | none => exact .pure rfl
    | some c =>
      refine (Lower.upToLines_bindArguments options c.params hargs span).bind_eq fun _ ↦ ?_
      exact .setLine_bind (.emit _) span.line

end ConstructionPlan

/-- The parts of a construction go to the operands that differ in nothing but lines. -/
theorem Operand.upToLines_constructBy {args args' : Option (List Operand)}
    (h : Option.Rel (List.Forall₂ UpToLines) args args') (options : CompilerOptions) (node : NodeId)
    (callee : Option String) (typeArgs : Option (List TypeExpr)) (span : Span) :
    (construct options node callee typeArgs args span).UpToLines
      (constructBy node callee typeArgs args' span
        (ConstructionPlan.placed options (args'.getD []) span)) := by
  have hargs : List.Forall₂ UpToLines (args.getD []) (args'.getD []) := by
    cases h with
    | none => exact .nil
    | some h => exact h
  refine upToLines_ofInference (.lift_bind_eq (.annotate node addressType) fun _ ↦
    .lift_bind .get fun s s' hs ↦ ?_)
  rw [hs.symbols, hs.frame]
  refine .lift_bind (ConstructionPlan.upToLines_ofConstruction span
    (Construction.upToLines_classify h _ _ callee typeArgs)) fun r r' hr ↦ ?_
  cases hr with
  | ok hplan =>
    exact .lift_bind_eq (ConstructionPlan.upToLines_placed options hplan hargs span) fun _ ↦ .pure rfl
  | error error => exact .lift_bind_eq (.trap error) fun _ ↦ .pure rfl

mutual

/-- Going back to the line changes nothing but lines. -/
theorem Expr.upToLines_placed (options : CompilerOptions) : (e : Expr) →
    (e.operand options).UpToLines (e.placed options)
  | .literal value span => Operand.upToLines_placedLiteral value span
  | .var name span => Operand.upToLines_var name.name span
  | .call callee args span =>
    Operand.upToLines_placedCall options callee.ident? callee.span (upToLines_placedOfList options args)
      span
  | .construct node callee typeArgs args span =>
    Operand.upToLines_constructBy (upToLines_placedOfArgs options args) options node
      (callee.bind Expr.ident?) typeArgs span
  | .paren inner span => (inner.upToLines_placed options).paren span
termination_by structural e => e

theorem upToLines_placedOfList (options : CompilerOptions) : (es : List Expr) →
    List.Forall₂ Operand.UpToLines (operandsOfList options es) (placedOfList options es)
  | [] => .nil
  | e :: es => .cons (e.upToLines_placed options) (upToLines_placedOfList options es)
termination_by structural es => es

theorem upToLines_placedOfArgs (options : CompilerOptions) : (es : Option (List Expr)) →
    Option.Rel (List.Forall₂ Operand.UpToLines) (operandsOfArgs options es) (placedOfArgs options es)
  | none => .none
  | some es => .some (upToLines_placedOfList options es)
termination_by structural es => es

end

/-! ### The same altogether -/

namespace Operand

theorem sameIf_placedLiteral (value : Literal) (span : Span) (mode : Option Fingerprint)
    (s : LoweringState) :
    Lower.SameIf ((literal value span).lowerAs mode).run ((placedLiteral value span).lowerAs mode).run s
      (∀ expected ∈ mode, (value.constantAs? s.symbols.registry.width expected).isSome →
        s.line = span.line) := by
  cases mode with
  | none => exact (Lower.SameIf.refl _ s).congr (by simp)
  | some expected =>
    refine .lift_bind_right (x := Lower.width) (a := s.symbols.registry.width) rfl ?_
    cases hconstant : value.constantAs? s.symbols.registry.width expected with
    | none => exact (Lower.SameIf.refl _ s).congr (by simp [hconstant])
    | some constant =>
      dsimp only
      rw [Attempt.lift_bind_run]
      exact (Lower.SameIf.setLine_bind (fun s ↦ ⟨.const constant, [], rfl⟩) span.line s).congr
        (by simp [hconstant])

end Operand

/-- Going back to the lines of an expression makes no difference exactly where it is in place. -/
def Expr.Tells (options : CompilerOptions) (e : Expr) : Prop :=
  ∀ (mode : Option Fingerprint) (s : LoweringState),
    Lower.SameIf ((e.operand options).lowerAs mode).run ((e.placed options).lowerAs mode).run s
      (e.InPlace options mode s)

/-! #### Arguments -/

section Arguments

variable {options : CompilerOptions}

theorem Expr.Tells.checkOrTrap {e : Expr} (h : e.Tells options) (expected : Fingerprint)
    (s : LoweringState) :
    Lower.SameIf ((e.operand options).checkOrTrap expected) ((e.placed options).checkOrTrap expected) s
      (e.InPlace options (some expected) s) :=
  (e.upToLines_placed options).sameIf_checkOrTrap (h (some expected) s)

/-- Arguments in excess that are evaluated. -/
theorem sameIf_evaluateAndDrop (hevaluate : options.evaluateExcess = true) {es : List Expr}
    (hes : ∀ e ∈ es, e.Tells options) (s : LoweringState) :
    Lower.SameIf ((operandsOfList options es).forM (·.evaluateAndDrop))
      ((placedOfList options es).forM (·.evaluateAndDrop)) s (argsInPlace options es [] s) := by
  induction es generalizing s with
  | nil => exact .refl _ s
  | cons e es ih =>
    have hlines := e.upToLines_placed options
    have he := hlines.sameIf_evaluateAndDrop (hes e List.mem_cons_self none s)
    have hrest := ih (fun e' he' ↦ hes e' (List.mem_cons_of_mem e he'))
      ((e.operand options).evaluateAndDrop.run s).state
    refine Lower.SameIf.congr (he.bind hlines.evaluateAndDrop hrest) ?_
    simp [argsInPlace, hevaluate]

/-- The arguments of a call, of which there may be too few or too many. -/
theorem sameIf_bind (shortfall excess : CompileError) (span : Span) {es : List Expr}
    (hes : ∀ e ∈ es, e.Tells options) (params : List Param) (s : LoweringState) :
    let rest (args : List Operand) : Lower Unit := do
      Lower.supplyMissing shortfall span (params.drop args.length)
      Lower.rejectExcess options excess (args.drop params.length)
    Lower.SameIf (Lower.checkArguments (params.zip (operandsOfList options es)) >>= fun _ ↦
        rest (operandsOfList options es))
      (Lower.checkArguments (params.zip (placedOfList options es)) >>= fun _ ↦
        rest (placedOfList options es)) s
      (argsInPlace options es (params.map (·.type)) s) := by
  induction es generalizing params s with
  | nil => exact .refl _ s
  | cons e es ih =>
    have hlines := e.upToLines_placed options
    cases params with
    | nil =>
      -- no argument has a parameter
      show Lower.SameIf (Lower.report excess >>= fun _ ↦ if options.evaluateExcess then _ else _)
        (Lower.report excess >>= fun _ ↦ if options.evaluateExcess then _ else _) s _
      refine .bind_right _ ?_
      split
      next hevaluate => exact sameIf_evaluateAndDrop hevaluate hes _
      next hevaluate => exact (Lower.SameIf.refl _ _).congr (by simp [argsInPlace, hevaluate])
    | cons param params =>
      show Lower.SameIf ((discard ((e.operand options).checkOrTrap param.type) >>= fun _ ↦
          Lower.checkArguments (params.zip (operandsOfList options es))) >>= fun _ ↦ _)
        ((discard ((e.placed options).checkOrTrap param.type) >>= fun _ ↦
          Lower.checkArguments (params.zip (placedOfList options es))) >>= fun _ ↦ _) s _
      rw [bind_assoc, bind_assoc]
      have he := (hes e List.mem_cons_self).checkOrTrap param.type s
      have hfirst := he.bind_left (hlines.checkOrTrap param.type) fun _ ↦ pure ()
      have hrest := ih (fun e' he' ↦ hes e' (List.mem_cons_of_mem e he')) params
        ((discard ((e.operand options).checkOrTrap param.type)).run s).state
      exact Lower.SameIf.bind (hlines.checkOrTrap param.type).discard hfirst hrest

theorem sameIf_bindArguments {es : List Expr} (hes : ∀ e ∈ es, e.Tells options) (params : List Param)
    (span : Span) (s : LoweringState) :
    Lower.SameIf (Lower.bindArguments options params (operandsOfList options es) span)
      (Lower.bindArguments options params (placedOfList options es) span) s
      (argsInPlace options es (params.map (·.type)) s) := by
  have hlength : (placedOfList options es).length = (operandsOfList options es).length :=
    (upToLines_placedOfList options es).length_eq.symm
  have h := sameIf_bind
    (.tooFewArguments (neededCount params) (operandsOfList options es).length span)
    (.tooManyArguments params.length (operandsOfList options es).length span) span hes params s
  dsimp only at h
  unfold Lower.bindArguments
  rw [hlength] at h ⊢
  exact h

/-- The instructions after the arguments are where they would be on the given line exactly if the
arguments are, and leave that line behind. -/
theorem sameIf_bindArguments_setLine {es : List Expr} (hes : ∀ e ∈ es, e.Tells options)
    (params : List Param) (span : Span) {α : Type} {x : Lower α}
    (hx : ∀ s, ∃ i code, (x.run s).output.code = ⟨s.line, i⟩ :: code) (s : LoweringState) :
    let bind := Lower.bindArguments options params (operandsOfList options es) span
    Lower.SameIf (bind >>= fun _ ↦ x)
      (Lower.bindArguments options params (placedOfList options es) span >>= fun _ ↦
        Lower.setLine span.line >>= fun _ ↦ x) s
      (argsInPlace options es (params.map (·.type)) s ∧ (bind.run s).state.line = span.line) :=
  (sameIf_bindArguments hes params span s).bind
    (Lower.upToLines_bindArguments options params (upToLines_placedOfList options es) span)
    (.setLine_bind hx span.line _)

theorem Expr.tells_call (callee : Expr) {es : List Expr} (hes : ∀ e ∈ es, e.Tells options)
    (span : Span) : (Expr.call callee es span).Tells options := by
  intro mode s
  have hlines := (Expr.call callee es span).upToLines_placed options
  rw [Expr.operand, Expr.placed] at hlines ⊢
  rw [Expr.InPlace]
  refine Operand.sameIf_lowerAs hlines ?_ mode
  refine .lift_bind_right (x := Lower.setLine span.line) rfl ?_
  refine .lift_bind_right (x := Lower.registry) (a := s.symbols.registry) rfl ?_
  cases hf : s.symbols.registry.functionNamed? (callee.ident?.getD anonymousCallee) with
  | none => exact (Lower.SameIf.refl _ _).congr (by simp)
  | some f =>
    dsimp only
    cases hargc : argcByte? f.arity with
    | none =>
      refine (Lower.SameIf.refl _ _).congr (iff_of_true trivial fun f' argc hf' hargc' ↦ ?_)
      rw [← Option.some.inj hf', hargc] at hargc'
      cases hargc'
    | some argc =>
      simp only [Attempt.lift_bind_run]
      refine Lower.SameIf.congr (sameIf_bindArguments_setLine hes f.params span (fun s ↦ ?_) _) ?_
      · exact ⟨_, _, rfl⟩
      · exact ⟨fun h f' argc' hf' _ ↦ Option.some.inj hf' ▸ h, fun h ↦ h f argc rfl hargc⟩

end Arguments

/-! #### Constructions -/

namespace ConstructionPlan

variable {s : LoweringState} {span : Span}

/-- Constructions that differ in nothing but lines are planned alike. -/
theorem exists_run_ofConstruction {shape shape' : Construction} (h : shape.UpToLines shape')
    (span : Span) (s : LoweringState) :
    ∃ r r' symbols, (ofConstruction span shape).run.run s = ⟨r, { s with symbols }, .empty⟩ ∧
      (ofConstruction span shape').run.run s = ⟨r', { s with symbols }, .empty⟩ ∧
      Attempt.Related UpToLines r r' := by
  obtain ⟨symbols, -, hstate, houtput⟩ := quiet_ofConstruction span shape s
  obtain ⟨symbols', -, hstate', houtput'⟩ := quiet_ofConstruction span shape' s
  obtain ⟨hvalue, hlines, -, -, -⟩ := upToLines_ofConstruction span h s s ⟨rfl, rfl⟩
  rw [hstate, hstate'] at hlines
  obtain rfl : symbols' = symbols := hlines.symbols
  generalize (ofConstruction span shape).run.run s = out at *
  generalize (ofConstruction span shape').run.run s = out' at *
  obtain ⟨r, s₁, o⟩ := out
  obtain ⟨r', s₁', o'⟩ := out'
  subst hstate hstate' houtput houtput'
  exact ⟨r, r', _, rfl, rfl, hvalue⟩

end ConstructionPlan

section Constructions

variable {options : CompilerOptions} {s : LoweringState} {span : Span}

theorem partsInPlace_iff (es : Option (List Expr)) (types : List Fingerprint) (s : LoweringState) :
    partsInPlace options es types s ↔ argsInPlace options (es.getD []) types s := by
  cases es with
  | none => simp [partsInPlace, argsInPlace]
  | some es => rfl

/-- Constructions that are planned alike do the same exactly if what follows does. -/
theorem Operand.sameIf_constructBy {node : NodeId} {callee : Option String}
    {typeArgs : Option (List TypeExpr)} {args args' : Option (List Operand)}
    {lower lower' : ConstructionPlan → Lower Unit} {r r' : Except CompileError ConstructionPlan}
    {symbols : Symbols} {P : Prop}
    (h : (ConstructionPlan.ofConstruction span (.classify s.symbols.registry s.frame callee typeArgs
      args)).run.run { s with line := span.line } = ⟨r, { s with line := span.line, symbols }, .empty⟩)
    (h' : (ConstructionPlan.ofConstruction span (.classify s.symbols.registry s.frame callee typeArgs
      args')).run.run { s with line := span.line } = ⟨r', { s with line := span.line, symbols }, .empty⟩)
    (hrest : Lower.SameIf (ConstructionPlan.lowerOrTrap lower r)
      (ConstructionPlan.lowerOrTrap lower' r') { s with line := span.line, symbols } P) :
    Lower.SameIf (constructBy node callee typeArgs args span lower).infer.run
      (constructBy node callee typeArgs args' span lower').infer.run s P := by
  have hrun := run_constructBy node lower h
  have hrun' := run_constructBy node lower' h'
  refine ⟨fun hp ↦ ?_, fun hcode ↦ hrest.of_code_eq ?_⟩
  · rw [hrun, hrun', hrest.run_eq hp]
  · rw [hrun, hrun'] at hcode
    exact hcode

/-- A buffer is where it would be on its own line if its count is, and leaves that line behind. -/
theorem ConstructionPlan.sameIf_placedBuffer {e : Expr} (he : e.Tells options) (size : UInt32)
    (span : Span) (s : LoweringState) :
    Lower.SameIf (lowerBuffer options size (e.operand options))
      (placedBuffer options size (e.placed options) span.line) s
      (argsInPlace options [e] [addressType] (countState s) ∧
        (((e.operand options).checkOrTrap addressType).run (countState s)).state.line = span.line) := by
  have hlines := (e.upToLines_placed options).checkOrTrap addressType
  have hcount := (he.checkOrTrap addressType (countState s)).bind_left hlines fun _ ↦ pure ()
  refine .bind_right _ (.bind_right _ (.bind_right _ (.bind_right _ (.bind_right _ ?_))))
  refine Lower.SameIf.congr (hcount.bind hlines.discard (.setLine_bind (fun s ↦ ?_) span.line _)) ?_
  · exact ⟨_, _, rfl⟩
  · exact and_congr_left fun _ ↦ (and_iff_left trivial).symm

/-- An object is where it would be on its own line if the arguments of its constructor are, and leave
that line behind. -/
theorem ConstructionPlan.sameIf_placedObject {es : List Expr} (hes : ∀ e ∈ es, e.Tells options)
    (size : UInt32) (c : Callable) (span : Span) (s : LoweringState) :
    Lower.SameIf (lowerObject options size (some c) (operandsOfList options es) span)
      (placedObject options size (some c) (placedOfList options es) span) s
      (argsInPlace options es (c.params.map (·.type)) s ∧
        ((Lower.bindArguments options c.params (operandsOfList options es) span).run s).state.line =
          span.line) := by
  refine .bind_right _ (.bind_right _ (.bind_right _ ?_))
  exact sameIf_bindArguments_setLine hes c.params span (fun s ↦ ⟨_, [], rfl⟩) s

/-- The count of a planned buffer is the only argument. -/
theorem ConstructionPlan.args_eq_of_buffer {r : Registry} {f : Frame} {callee : Option String}
    {typeArgs : Option (List TypeExpr)} {args : Option (List Operand)} {size : UInt32} {count : Operand}
    (h : ((ofConstruction span (.classify r f callee typeArgs args)).run.run s).value =
      .ok (.buffer size count)) : args = some [count] := by
  rcases ofConstruction_eq_ok h with ⟨element, count', size', hshape, hplan⟩ | ⟨_, _, hplan⟩
  · obtain ⟨-, rfl⟩ := ConstructionPlan.buffer.inj hplan
    exact Construction.classify_eq_buffer hshape
  · cases hplan

theorem Expr.tells_construct (node : NodeId) (callee : Option Expr) (typeArgs : Option (List TypeExpr))
    {es : Option (List Expr)} (hes : ∀ e ∈ es.getD [], e.Tells options) (span : Span) :
    (Expr.construct node callee typeArgs es span).Tells options := by
  intro mode s
  have hlines := (Expr.construct node callee typeArgs es span).upToLines_placed options
  have hshape := Construction.upToLines_classify (upToLines_placedOfArgs options es)
    s.symbols.registry s.frame (callee.bind Expr.ident?) typeArgs
  obtain ⟨r, r', symbols, hrun, hrun', hplans⟩ :=
    ConstructionPlan.exists_run_ofConstruction hshape span { s with line := span.line }
  rw [Expr.operand, Expr.placed] at hlines ⊢
  rw [Expr.InPlace]
  dsimp only
  rw [hrun]
  dsimp only
  refine Operand.sameIf_lowerAs hlines (Operand.sameIf_constructBy hrun hrun' ?_) mode
  cases hplans with
  | error error => exact .refl _ _
  | ok hplan =>
    cases hplan with
    | @buffer size count count' hcount =>
      have hargs := ConstructionPlan.args_eq_of_buffer (congrArg Outcome.value hrun)
      have hargs' := ConstructionPlan.args_eq_of_buffer (congrArg Outcome.value hrun')
      obtain ⟨e, rfl, rfl, rfl⟩ : ∃ e : Expr, es = some [e] ∧ count = e.operand options ∧
          count' = e.placed options := by
        rcases es with _ | _ | ⟨e, _ | _⟩ <;> simp_all [operandsOfArgs, placedOfArgs, operandsOfList,
          placedOfList]
      exact ConstructionPlan.sameIf_placedBuffer (hes e List.mem_cons_self) size span _
    | object size constructor? =>
      cases constructor? with
      | none => exact .refl _ _
      | some c =>
        dsimp only
        rw [partsInPlace_iff]
        cases es with
        | none => exact ConstructionPlan.sameIf_placedObject hes size c span _
        | some es => exact ConstructionPlan.sameIf_placedObject hes size c span _

end Constructions

mutual

/-- Where it is in place, an expression does the same as on its own lines, and where it is not, what it
writes tells. -/
theorem Expr.tells (options : CompilerOptions) : (e : Expr) → e.Tells options
  | .literal value span => by
    intro mode s
    rw [Expr.InPlace]
    exact Operand.sameIf_placedLiteral value span mode s
  | .var name span => fun mode s ↦ by
    rw [Expr.InPlace]
    exact .refl _ _
  | .call callee args span => Expr.tells_call callee (tells_of_mem options args) span
  | .construct node callee typeArgs args span =>
    Expr.tells_construct node callee typeArgs (tells_of_mem_getD options args) span
  | .paren inner span => by
    intro mode s
    rw [Expr.InPlace]
    cases mode with
    | none =>
      refine .lift_bind_right (x := Lower.setLine span.line) rfl ?_
      exact inner.tells options none _
    | some expected => exact inner.tells options (some expected) s
termination_by structural e => e

theorem tells_of_mem (options : CompilerOptions) : (es : List Expr) → ∀ e ∈ es, e.Tells options
  | [] => nofun
  | e :: es => fun e' he' ↦ (List.mem_cons.1 he').elim (fun h ↦ h ▸ e.tells options)
    (tells_of_mem options es e')
termination_by structural es => es

theorem tells_of_mem_getD (options : CompilerOptions) : (es : Option (List Expr)) →
    ∀ e ∈ es.getD [], e.Tells options
  | none => nofun
  | some es => tells_of_mem options es
termination_by structural es => es

end

/-! ### Tables of lines -/

/-- The lines of the bytes tell the lines of the instructions, since no instruction is empty. -/
theorem LocatedInstruction.eq_of_lines {width : SymbolicInstruction → ℕ} (hwidth : ∀ i, width i ≠ 0)
    {code code' : List LocatedInstruction}
    (hcode : code'.map (·.instruction) = code.map (·.instruction))
    (hlines : (code'.flatMap fun i ↦ List.replicate (width i.instruction) i.line) =
      code.flatMap fun i ↦ List.replicate (width i.instruction) i.line) : code' = code := by
  induction code generalizing code' with
  | nil => exact List.map_eq_nil_iff.1 hcode
  | cons i code ih =>
    obtain ⟨⟨line', i'⟩, code', rfl, rfl, htail⟩ := List.map_eq_cons_iff.1 hcode
    rw [List.flatMap_cons, List.flatMap_cons] at hlines
    obtain ⟨hfirst, hrest⟩ := List.append_inj hlines (by simp)
    have hline : line' = i.line := (List.replicate_right_inj (hwidth i.instruction)).1 hfirst
    rw [ih htail hrest, hline]

namespace Assembler

variable {a : Assembler} {code code' : List LocatedInstruction}

/-- The pool depends on the instructions alone. -/
theorem pool_pushAll (a : Assembler) (code : List LocatedInstruction) :
    (a.pushAll code).pool =
      (code.map (·.instruction)).foldl (fun p i ↦ (p.intern i).2) a.pool := by
  induction code generalizing a with
  | nil => rfl
  | cons i code ih => exact ih (a.pushLocated i)

/-- The same instructions on other lines become the same code, with the same constants. -/
theorem code_pushAll_congr (h : code'.map (·.instruction) = code.map (·.instruction)) :
    (a.pushAll code').chunk.code = (a.pushAll code).chunk.code := by
  have hpool : (a.pushAll code').pool = (a.pushAll code).pool := by
    rw [pool_pushAll, pool_pushAll, h]
  have hindexed := congrArg (List.map (·.indexed (a.pushAll code).pool)) h
  rw [List.map_map, List.map_map] at hindexed
  rw [code_pushAll (.refl _), code_pushAll (.refl _), hpool]
  exact congrArg (fun is ↦ a.chunk.code ++ encodeAll is) hindexed

theorem lines_pushAll_inj (h : code'.map (·.instruction) = code.map (·.instruction)) :
    (a.pushAll code').chunk.lines = (a.pushAll code).chunk.lines ↔ code' = code := by
  refine ⟨fun hlines ↦ ?_, fun heq ↦ by rw [heq]⟩
  have hpool : (a.pushAll code').pool = (a.pushAll code).pool := by
    rw [pool_pushAll, pool_pushAll, h]
  rw [lines_pushAll (.refl _), lines_pushAll (.refl _), hpool] at hlines
  have hwidth (i : SymbolicInstruction) : (i.indexed (a.pushAll code).pool).encode.length ≠ 0 := by
    obtain ⟨op, operands, hencode, -⟩ := (i.indexed (a.pushAll code).pool).exists_encode_eq
    rw [hencode]
    exact Nat.succ_ne_zero _
  exact LocatedInstruction.eq_of_lines hwidth h (List.append_cancel_left hlines)

end Assembler

/-- If each expression went back to its own line, code, constants, reports and all else would be the same.
The table of lines would be the same exactly if the expression is in place, so this is the
condition on which every byte that an expression writes for itself has its line. -/
theorem Expr.lines_eq_placed_iff (options : CompilerOptions) (e : Expr) (mode : Option Fingerprint)
    (s : LoweringState) (a : Assembler) :
    let written := ((e.operand options).lowerAs mode).run.run s
    let placed := ((e.placed options).lowerAs mode).run.run s
    let actual := a.pushAll written.output.code
    let ideal := a.pushAll placed.output.code
    placed.value = written.value ∧ placed.state.symbols = written.state.symbols ∧
      placed.state.frame = written.state.frame ∧ placed.output.errors = written.output.errors ∧
      placed.output.findings = written.output.findings ∧
      ideal.pool = actual.pool ∧ ideal.chunk.code = actual.chunk.code ∧
      (ideal.chunk.lines = actual.chunk.lines ↔ e.InPlace options mode s) := by
  intro written placed actual ideal
  obtain ⟨hvalue, hstate, hcode, herrors, hfindings⟩ :=
    (e.upToLines_placed options).lowerAs mode s s ⟨rfl, rfl⟩
  refine ⟨hvalue.eq, hstate.symbols, hstate.frame, herrors, hfindings, ?_,
    Assembler.code_pushAll_congr hcode,
    (Assembler.lines_pushAll_inj hcode).trans ⟨(e.tells options mode s).of_code_eq, fun h ↦ ?_⟩⟩
  · rw [Assembler.pool_pushAll, Assembler.pool_pushAll]
    exact congrArg (List.foldl _ a.pool) hcode
  · exact congrArg (·.output.code) ((e.tells options mode s).run_eq h)

/-- A call on line 1 whose arguments, a call and a literal, are on lines 2 and 3: all of it is written on
line 2. -/
theorem Expr.lines_eq_placed_iff_call :
    let int := Primitive.int32.fingerprint
    let f := Callable.function "f" [{ name := "x", type := int }, { name := "y", type := int }] voidType
    let g := Callable.function "g" [] int
    let registry := ((Registry.withPrimitives .w32).putFunction f).putFunction g
    let s : LoweringState := { symbols := { registry } }
    let call (callee : String) (line : UInt32) (args : List Expr) : Expr :=
      .call (.var ⟨callee, .point line 1⟩ (.point line 1)) args (.point line 1)
    let e := call "f" 1 [call "g" 2 [], .literal (.int 5) (.point 3 1)]
    let lines (o : Operand) := (Assembler.pushAll {} (o.infer.run.run s).output.code).chunk.lines
    lines (e.operand {}) = [2, 2, 2, 2, 2, 2, 2, 2, 2, 2] ∧
      lines (e.placed {}) = [2, 2, 2, 2, 3, 3, 1, 1, 1, 1] ∧ ¬ e.InPlace {} none s := by
  intro int f g registry s call e lines
  have hwritten : lines (e.operand {}) = [2, 2, 2, 2, 2, 2, 2, 2, 2, 2] := by decide +kernel
  have hplaced : lines (e.placed {}) = [2, 2, 2, 2, 3, 3, 1, 1, 1, 1] := by decide +kernel
  refine ⟨hwritten, hplaced, fun h ↦ ?_⟩
  obtain ⟨-, -, -, -, -, -, -, hiff⟩ := lines_eq_placed_iff {} e none s {}
  have heq : lines (e.placed {}) = lines (e.operand {}) := hiff.2 h
  rw [hwritten, hplaced] at heq
  exact absurd heq (by decide)

end StackLowering
