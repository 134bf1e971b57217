import StackLowering.Proofs.Lowering.Buffer
import StackLowering.Proofs.Lowering.TypePosition

/-!
# Failed constructions

A construction goes through type arguments, an instance of a template, the layout of a class and its
constructor before it writes anything, and each of these may fail. What can go wrong is told without
lowering (`Construction.Fails`), and so is what a construction needs to go on with
(`Construction.Plans`); every construction is in exactly one of the two situations.

In the first one the construction writes a trap and reports one error, and that is all: no constant, no
slot and no other code, whatever the type arguments have left in the registry. In the second one it
writes the whole code of a buffer or of an object, and reports nothing of its own, only what its
count or its arguments report (`Expr.construct_fails_or_completes`).

That the two situations exclude each other is not proved from their definitions but from what planning
answers: an error in the one and a plan in the other (`Construction.Fails.run_ofConstruction`,
`Construction.Plans.run_ofConstruction`). That there is no third one is by cases on the form of a
construction (`Construction.fails_or_plans`).
-/

namespace StackLowering

/-! ### What a construction meets -/

/-- What stands in the way of an object: a class that cannot be laid out, or a constructor with more
parameters than a call can pass beside the object. -/
inductive Registry.FailsObject (r : Registry) (id : Fingerprint) (span : Span) : CompileError → Prop
  | layout {error : RegistrationError} (h : r.layOutClass id = .error error) :
      FailsObject r id span (.registration error span)
  | arity {size : UInt32} {r' : Registry} {c : Callable} (h : r.layOutClass id = .ok (size, r'))
      (hc : r'.constructorOf? id = some c) (harity : 254 < c.arity) :
      FailsObject r id span (.internal s!"constructor '{c.name}' has too many parameters")

/-- What an object is made from, and the registry in which its class is laid out. -/
inductive Registry.PlansObject (r : Registry) (id : Fingerprint) : ConstructionPlan → Registry → Prop
  | plain {size : UInt32} {r' : Registry} (h : r.layOutClass id = .ok (size, r'))
      (hc : r'.constructorOf? id = none) : PlansObject r id (.object size none) r'
  | constructed {size : UInt32} {r' : Registry} {c : Callable} (h : r.layOutClass id = .ok (size, r'))
      (hc : r'.constructorOf? id = some c) (harity : c.arity ≤ 254) :
      PlansObject r id (.object size (some c)) r'

/-- What stands in the way of a construction, and the error that says so. -/
inductive Construction.Fails (s : Symbols) (span : Span) : Construction → CompileError → Prop
  | unsupported : Fails s span .unsupported (.unsupportedConstruction span)
  | element {type : TypeExpr} {count : Operand} {error : CompileError} {s' : Symbols}
      (h : type.resolve.run.run s = (.error error, s')) :
      Fails s span (.buffer (.declared type) count) error
  | unsized {type : TypeExpr} {count : Operand} {id : Fingerprint} {s' : Symbols}
      (h : type.resolve.run.run s = (.ok id, s')) (hlayout : s'.registry.layout? id = none) :
      Fails s span (.buffer (.declared type) count)
        (.unsizedType (s'.registry.typeName id) type.span)
  | object {id : Fingerprint} {error : CompileError} (h : s.registry.FailsObject id span error) :
      Fails s span (.object id) error
  | typeArgs {template : Fingerprint} {types : List TypeExpr} {error : CompileError} {s' : Symbols}
      (h : (resolveTypes types).run.run s = (.error error, s')) :
      Fails s span (.template template types) error
  | request {template : Fingerprint} {types : List TypeExpr} {args : List Fingerprint}
      {error : CompileError} {s' s'' : Symbols} (h : (resolveTypes types).run.run s = (.ok args, s'))
      (hrequest : s'.instantiate template args span = (.error error, s'')) :
      Fails s span (.template template types) error
  | instanceObject {template id : Fingerprint} {types : List TypeExpr} {args : List Fingerprint}
      {error : CompileError} {s' s'' : Symbols} (h : (resolveTypes types).run.run s = (.ok args, s'))
      (hrequest : s'.instantiate template args span = (.ok id, s''))
      (hobject : s''.registry.FailsObject id span error) : Fails s span (.template template types) error

/-- What a construction that nothing stands in the way of is lowered from, and the symbols by then. -/
inductive Construction.Plans (s : Symbols) (span : Span) :
    Construction → ConstructionPlan → Symbols → Prop
  | codeUnits (count : Operand) : Plans s span (.buffer .codeUnit count) (.buffer codeUnitSize count) s
  | elements {type : TypeExpr} (count : Operand) {id : Fingerprint} {s' : Symbols} {layout : Layout}
      (h : type.resolve.run.run s = (.ok id, s')) (hlayout : s'.registry.layout? id = some layout) :
      Plans s span (.buffer (.declared type) count) (.buffer layout.size count) s'
  | object {id : Fingerprint} {plan : ConstructionPlan} {r : Registry}
      (h : s.registry.PlansObject id plan r) :
      Plans s span (.object id) plan { s with registry := r }
  | instanceObject {template id : Fingerprint} {types : List TypeExpr} {args : List Fingerprint}
      {plan : ConstructionPlan} {s' s'' : Symbols} {r : Registry}
      (h : (resolveTypes types).run.run s = (.ok args, s'))
      (hrequest : s'.instantiate template args span = (.ok id, s''))
      (hobject : s''.registry.PlansObject id plan r) :
      Plans s span (.template template types) plan { s'' with registry := r }

/-! ### Planning -/

namespace Attempt

variable {α β : Type} {s : LoweringState} {symbols : Symbols} {x : Resolution α}

/-- After a resolution that succeeds, the next computation starts with its value. -/
theorem run_resolve_bind_ok {a : α} (f : α → Attempt β) (h : x.run.run s.symbols = (.ok a, symbols)) :
    (resolve x >>= f).run.run s = (f a).run.run { s with symbols } := by
  have hrun := run_resolve x s
  rw [h] at hrun
  exact run_bind_ok f hrun

/-- A resolution that fails is the end of the computations in a row. -/
theorem run_resolve_bind_error {error : CompileError} (f : α → Attempt β)
    (h : x.run.run s.symbols = (.error error, symbols)) :
    (resolve x >>= f).run.run s = ⟨.error error, { s with symbols }, .empty⟩ := by
  have hrun := run_resolve x s
  rw [h] at hrun
  exact run_bind_error f hrun

end Attempt

namespace Registry

variable {r r' : Registry} {id : Fingerprint} {span : Span} {error : CompileError}
  {plan : ConstructionPlan}

theorem failsObject_or_plansObject (r : Registry) (id : Fingerprint) (span : Span) :
    (∃ error, r.FailsObject id span error) ∨ ∃ plan r', r.PlansObject id plan r' := by
  rcases hlayout : r.layOutClass id with error | ⟨size, r'⟩
  · exact .inl ⟨_, .layout hlayout⟩
  · rcases hc : r'.constructorOf? id with _ | c
    · exact .inr ⟨_, _, .plain hlayout hc⟩
    · rcases Nat.lt_or_ge 254 c.arity with hlt | hle
      · exact .inl ⟨_, .arity hlayout hc hlt⟩
      · exact .inr ⟨_, _, .constructed hlayout hc hle⟩

theorem FailsObject.run_ofClass {s : LoweringState} (h : s.symbols.registry.FailsObject id span error) :
    ∃ r', (ConstructionPlan.ofClass id span).run.run s =
      ⟨.error error, { s with symbols := { s.symbols with registry := r' } }, .empty⟩ := by
  rw [ConstructionPlan.run_ofClass]
  cases h with
  | layout h => exact ⟨s.symbols.registry, by rw [h]⟩
  | @arity size r' c h hc harity =>
    have hbyte : argcByte? (constructorArgc c) = none := if_neg (Nat.not_lt.2 (Nat.succ_le_succ harity))
    refine ⟨r', ?_⟩
    rw [h]
    dsimp only
    rw [hc]
    dsimp only
    rw [hbyte]

theorem PlansObject.run_ofClass {s : LoweringState} (h : s.symbols.registry.PlansObject id plan r')
    (span : Span) :
    (ConstructionPlan.ofClass id span).run.run s =
      ⟨.ok plan, { s with symbols := { s.symbols with registry := r' } }, .empty⟩ := by
  rw [ConstructionPlan.run_ofClass]
  cases h with
  | plain h hc =>
    rw [h]
    dsimp only
    rw [hc]
  | @constructed size r' c h hc harity =>
    have hbyte : argcByte? (constructorArgc c) = some (constructorArgc c).toUInt8 :=
      if_pos (Nat.lt_succ_of_le (Nat.succ_le_succ harity))
    rw [h]
    dsimp only
    rw [hc]
    dsimp only
    rw [hbyte]

end Registry

namespace Construction

variable {s : LoweringState} {span : Span} {shape : Construction} {error : CompileError}
  {plan : ConstructionPlan} {symbols : Symbols}

/-- There is no third situation. -/
theorem fails_or_plans (s : Symbols) (span : Span) (shape : Construction) :
    (∃ error, shape.Fails s span error) ∨ ∃ plan symbols, shape.Plans s span plan symbols := by
  rcases shape with ⟨type | _, count⟩ | id | ⟨template, types⟩ | _
  · rcases h : type.resolve.run.run s with ⟨error | id, s'⟩
    · exact .inl ⟨error, .element h⟩
    · rcases hlayout : s'.registry.layout? id with _ | layout
      · exact .inl ⟨_, .unsized h hlayout⟩
      · exact .inr ⟨_, _, .elements count h hlayout⟩
  · exact .inr ⟨_, _, .codeUnits count⟩
  · exact (s.registry.failsObject_or_plansObject id span).imp (fun ⟨error, h⟩ ↦ ⟨error, .object h⟩)
      fun ⟨plan, r', h⟩ ↦ ⟨plan, _, .object h⟩
  · rcases h : (resolveTypes types).run.run s with ⟨error | args, s'⟩
    · exact .inl ⟨error, .typeArgs h⟩
    · rcases hrequest : s'.instantiate template args span with ⟨error | id, s''⟩
      · exact .inl ⟨error, .request h hrequest⟩
      · exact (s''.registry.failsObject_or_plansObject id span).imp
          (fun ⟨error, hobject⟩ ↦ ⟨error, .instanceObject h hrequest hobject⟩)
          fun ⟨plan, r', hobject⟩ ↦ ⟨plan, _, .instanceObject h hrequest hobject⟩
  · exact .inl ⟨_, .unsupported⟩

/-- Once its type arguments are resolved, a template is planned by the class that is its instance. -/
theorem run_ofConstruction_template {template : Fingerprint} {types : List TypeExpr}
    {args : List Fingerprint} {s' : Symbols}
    (h : (resolveTypes types).run.run s.symbols = (.ok args, s')) (span : Span) :
    (ConstructionPlan.ofConstruction span (.template template types)).run.run s =
      match s'.instantiate template args span with
      | (.error error, symbols) => ⟨.error error, { s with symbols }, .empty⟩
      | (.ok id, symbols) => (ConstructionPlan.ofClass id span).run.run { s with symbols } := by
  have hinstantiate : (Resolution.instantiate template args span).run.run s' =
      s'.instantiate template args span := rfl
  rw [ConstructionPlan.ofConstruction, Attempt.run_resolve_bind_ok _ h]
  rcases hrequest : s'.instantiate template args span with ⟨error | id, symbols⟩
  · exact Attempt.run_resolve_bind_error _ (hinstantiate.trans hrequest)
  · exact Attempt.run_resolve_bind_ok _ (hinstantiate.trans hrequest)

/-- Where something stands in the way, planning fails with the error that says so. -/
theorem Fails.run_ofConstruction (h : shape.Fails s.symbols span error) :
    ∃ symbols, (ConstructionPlan.ofConstruction span shape).run.run s =
      ⟨.error error, { s with symbols }, .empty⟩ := by
  cases h with
  | unsupported => exact ⟨s.symbols, rfl⟩
  | @element type count error s' h =>
    have helement : (ConstructionPlan.elementSize (.declared type)).run.run s =
        ⟨.error error, { s with symbols := s' }, .empty⟩ :=
      Attempt.run_resolve_bind_error _ h
    exact ⟨_, Attempt.run_bind_error _ helement⟩
  | @unsized type count id s' h hlayout =>
    have helement : (ConstructionPlan.elementSize (.declared type)).run.run s =
        ⟨.error (.unsizedType (s'.registry.typeName id) type.span), { s with symbols := s' },
          .empty⟩ := by
      rw [ConstructionPlan.elementSize, Attempt.run_resolve_bind_ok _ h, Attempt.run_registry_bind]
      dsimp only
      rw [hlayout]
      rfl
    exact ⟨_, Attempt.run_bind_error _ helement⟩
  | object h =>
    obtain ⟨r', hrun⟩ := h.run_ofClass
    exact ⟨_, hrun⟩
  | typeArgs h => exact ⟨_, Attempt.run_resolve_bind_error _ h⟩
  | @request template types args error s' s'' h hrequest =>
    refine ⟨s'', ?_⟩
    rw [run_ofConstruction_template h, hrequest]
  | @instanceObject template id types args error s' s'' h hrequest hobject =>
    have hobject' : ({ s with symbols := s'' } : LoweringState).symbols.registry.FailsObject id span
        error := hobject
    obtain ⟨r', hrun⟩ := hobject'.run_ofClass
    refine ⟨{ s'' with registry := r' }, ?_⟩
    rw [run_ofConstruction_template h, hrequest]
    exact hrun

/-- Where nothing stands in the way, planning succeeds. -/
theorem Plans.run_ofConstruction (h : shape.Plans s.symbols span plan symbols) :
    (ConstructionPlan.ofConstruction span shape).run.run s =
      ⟨.ok plan, { s with symbols }, .empty⟩ := by
  cases h with
  | codeUnits count => rfl
  | @elements type count id _ layout h hlayout =>
    have helement : (ConstructionPlan.elementSize (.declared type)).run.run s =
        ⟨.ok layout.size, { s with symbols }, .empty⟩ := by
      rw [ConstructionPlan.elementSize, Attempt.run_resolve_bind_ok _ h, Attempt.run_registry_bind]
      dsimp only
      rw [hlayout]
      rfl
    exact Attempt.run_bind_ok _ helement
  | object h => exact h.run_ofClass span
  | @instanceObject template id types args plan s' s'' r h hrequest hobject =>
    have hobject' : ({ s with symbols := s'' } : LoweringState).symbols.registry.PlansObject id plan
        r := hobject
    rw [run_ofConstruction_template h, hrequest]
    exact hobject'.run_ofClass span

/-- A construction that something stands in the way of has no plan. -/
theorem Fails.not_plans {s : Symbols} (h : shape.Fails s span error) :
    ¬ shape.Plans s span plan symbols := by
  intro hplans
  obtain ⟨symbols', hrun⟩ := h.run_ofConstruction (s := { symbols := s })
  rw [hplans.run_ofConstruction (s := { symbols := s })] at hrun
  cases hrun

end Construction

/-! ### What is written -/

namespace Lower

theorem errors_bind {α β : Type} (x : Lower α) (f : α → Lower β) (s : LoweringState) :
    ((x >>= f).run s).output.errors =
      (x.run s).output.errors ++ ((f (x.run s).value).run (x.run s).state).output.errors := by
  rw [output_bind, Output.errors_append]

theorem errors_emit (i : SymbolicInstruction) (s : LoweringState) :
    ((emit i).run s).output.errors = [] := rfl

theorem errors_emitAll (is : List SymbolicInstruction) (s : LoweringState) :
    ((emitAll is).run s).output.errors = [] := rfl

theorem errors_discard {α : Type} (x : Lower α) (s : LoweringState) :
    ((discard x).run s).output.errors = (x.run s).output.errors :=
  (errors_bind x (fun _ ↦ pure ()) s).trans (List.append_nil _)

end Lower

namespace ConstructionPlan

variable (options : CompilerOptions) (args : List Operand) (span : Span) (s : LoweringState)

/-- The instructions of a buffer or of an object, with those of its count or of its arguments in
between. -/
def sequence : ConstructionPlan → List SymbolicInstruction
  | buffer size count =>
    let width := s.symbols.registry.width
    [.const (.ofPointer headerSize.toUInt64 width), .const (.ofPointer size.toUInt64 width)] ++
      (countCode count s ++
      ([.teeLocal (countSlot s), .mul width, .add width, .call options.allocator 1,
        .teeLocal (addressSlot s), .getLocal (countSlot s)] ++
      (narrowCount width ++ [.store .i32 0 headerSize.toUInt8, .getLocal (addressSlot s)])))
  | object size constructor? =>
    [.const (.ofPointer size.toUInt64 s.symbols.registry.width), .call options.allocator 1] ++
      constructor?.elim [] fun c ↦
        (Lower.bindArguments options c.params args span).code s ++
          [.call c.name (constructorArgc c).toUInt8]

/-- The errors of the count of a buffer, or of the arguments of a constructor. -/
def partErrors : ConstructionPlan → List CompileError
  | buffer _ count => ((count.checkOrTrap addressType).run (countState s)).output.errors
  | object _ constructor? =>
    constructor?.elim [] fun c ↦ ((Lower.bindArguments options c.params args span).run s).output.errors

theorem code_lower (plan : ConstructionPlan) :
    (plan.lower options args span).code s = plan.sequence options args span s := by
  cases plan with
  | buffer size count => exact code_lowerBuffer options size count s
  | object size constructor? =>
    cases constructor? with
    | none => rfl
    | some c =>
      show (lowerObject options size (some c) args span).code s = _
      simp only [lowerObject, Lower.code_bind, Lower.code_emit]
      rfl

/-- Nothing is reported but by the count and the arguments. -/
theorem errors_lower (plan : ConstructionPlan) :
    ((plan.lower options args span).run s).output.errors = plan.partErrors options args span s := by
  cases plan with
  | buffer size count =>
    show ((lowerBuffer options size count).run s).output.errors = _
    rw [run_lowerBuffer_eq]
    simp only [fillBuffer, Lower.errors_bind, Lower.errors_emit, Lower.errors_emitAll,
      Lower.errors_discard, List.nil_append, List.append_nil]
    rfl
  | object size constructor? =>
    cases constructor? with
    | none => rfl
    | some c =>
      show ((lowerObject options size (some c) args span).run s).output.errors = _
      simp only [lowerObject, Lower.errors_bind]
      exact List.append_nil _

end ConstructionPlan

/-! ### Constructions -/

/-- Lowers what is planned, and traps what could not be planned. -/
def ConstructionPlan.lowerOrTrap (lower : ConstructionPlan → Lower Unit) :
    Except CompileError ConstructionPlan → Lower Unit
  | .ok plan => lower plan
  | .error error => Lower.trap error

namespace Operand

variable {node : NodeId} {callee : Option String} {typeArgs : Option (List TypeExpr)}
  {args : Option (List Operand)} {span : Span} {s : LoweringState} {symbols : Symbols}

/-- A construction, given how its plan is lowered. -/
def constructBy (node : NodeId) (callee : Option String) (typeArgs : Option (List TypeExpr))
    (args : Option (List Operand)) (span : Span) (lower : ConstructionPlan → Lower Unit) : Operand :=
  .ofInference span do
    Lower.annotate node addressType
    let state ← Lower.get
    let shape := Construction.classify state.symbols.registry state.frame callee typeArgs args
    let plan : Except CompileError ConstructionPlan ←
      ((ConstructionPlan.ofConstruction span shape).run : Lower _)
    match plan with
    | .ok plan => lower plan
    | .error error => Lower.trap error
    return .computed addressType

/-- A construction is planned on its own line, and what it writes then depends on the plan alone. -/
theorem run_constructBy {r : Except CompileError ConstructionPlan} (node : NodeId)
    (lower : ConstructionPlan → Lower Unit)
    (h : (ConstructionPlan.ofConstruction span (.classify s.symbols.registry s.frame callee typeArgs
      args)).run.run { s with line := span.line } =
        ⟨r, { s with line := span.line, symbols }, .empty⟩) :
    (constructBy node callee typeArgs args span lower).infer.run.run s =
      let outcome := (ConstructionPlan.lowerOrTrap lower r).run { s with line := span.line, symbols }
      ⟨.ok (.computed addressType), outcome.state,
        { findings := [(node, addressType)] } ++ outcome.output⟩ := by
  unfold constructBy ofInference
  rw [Attempt.run_lift_bind (x := Lower.setLine span.line) _ (s := s) rfl,
    Attempt.run_lift_bind (x := Lower.annotate node addressType) _ rfl,
    Attempt.run_lift_bind (x := Lower.get) _ rfl]
  dsimp only
  rw [Attempt.run_lift_bind _ h]
  cases r with
  | ok plan =>
    dsimp only
    rw [Attempt.run_lift_bind (x := lower plan) _ rfl]
    exact congrArg (fun o ↦ Outcome.mk _ _ ({ findings := [(node, addressType)] } ++ o))
      (Output.append_empty _)
  | error error => rfl

/-- A construction that fails leaves a trap and a report. -/
theorem run_construct_of_fails {error : CompileError} (options : CompilerOptions) (node : NodeId)
    (h : (Construction.classify s.symbols.registry s.frame callee typeArgs args).Fails s.symbols span
      error) :
    ∃ symbols, s.symbols.Steps symbols ∧
      (construct options node callee typeArgs args span).infer.run.run s =
        ⟨.ok (.computed addressType), { s with line := span.line, symbols },
          { code := [⟨span.line, .trap⟩], errors := [error], findings := [(node, addressType)] }⟩ := by
  obtain ⟨symbols, hrun⟩ := h.run_ofConstruction (s := { s with line := span.line })
  have hsteps := ((ConstructionPlan.quiet_ofConstruction span _).of_run hrun).1
  exact ⟨symbols, hsteps, run_constructBy node _ hrun⟩

/-- A construction that is planned writes what its plan is lowered to. -/
theorem run_construct_of_plans {plan : ConstructionPlan} (options : CompilerOptions) (node : NodeId)
    (h : (Construction.classify s.symbols.registry s.frame callee typeArgs args).Plans s.symbols span
      plan symbols) :
    (construct options node callee typeArgs args span).infer.run.run s =
      let done := (plan.lower options (args.getD []) span).run { s with line := span.line, symbols }
      ⟨.ok (.computed addressType), done.state,
        { findings := [(node, addressType)] } ++ done.output⟩ :=
  run_constructBy node _ (h.run_ofConstruction (s := { s with line := span.line }))

end Operand

/-- A construction always has the type of an address, and does one of two things. If something stands
in its way, it writes a single trap on its line and reports the one error that says what; it leaves
the pool, the variables and the code before it as they are, and the symbols have only made steps.
If nothing does, it writes the whole sequence of its plan, and every error that it reports is one of
its count or of its arguments. -/
theorem Expr.construct_fails_or_completes (options : CompilerOptions) (s : LoweringState)
    (node : NodeId) (callee : Option Expr) (typeArgs : Option (List TypeExpr))
    (args : Option (List Expr)) (span : Span) :
    let operands := operandsOfArgs options args
    let shape := Construction.classify s.symbols.registry s.frame (callee.bind Expr.ident?) typeArgs
      operands
    let outcome := ((Expr.construct node callee typeArgs args span).operand options).infer.run.run s
    outcome.value = .ok (.computed addressType) ∧
    (∀ error, shape.Fails s.symbols span error →
      outcome.output.errors = [error] ∧
      (∃ symbols, s.symbols.Steps symbols ∧ outcome.state = { s with line := span.line, symbols }) ∧
      ∀ a : Assembler, (a.pushAll outcome.output.code).pool = a.pool ∧
        (a.pushAll outcome.output.code).chunk.code = a.chunk.code ++ [OpCode.trap.toByte] ∧
        (a.pushAll outcome.output.code).chunk.lines = a.chunk.lines ++ [span.line]) ∧
    ((∀ error, ¬ shape.Fails s.symbols span error) →
      ∃ plan symbols, shape.Plans s.symbols span plan symbols ∧
        let start : LoweringState := { s with line := span.line, symbols }
        outcome.output.instructions = plan.sequence options (operands.getD []) span start ∧
        outcome.output.errors = plan.partErrors options (operands.getD []) span start) := by
  intro operands shape outcome
  have houtcome : outcome = (Operand.construct options node (callee.bind Expr.ident?) typeArgs operands
      span).infer.run.run s := rfl
  refine ⟨?_, fun error h ↦ ?_, fun h ↦ ?_⟩
  · rcases shape.fails_or_plans s.symbols span with ⟨error, h⟩ | ⟨plan, symbols, h⟩
    · obtain ⟨symbols, -, hrun⟩ := Operand.run_construct_of_fails options node h
      rw [houtcome, hrun]
    · rw [houtcome, Operand.run_construct_of_plans options node h]
  · obtain ⟨symbols, hsteps, hrun⟩ := Operand.run_construct_of_fails options node h
    rw [houtcome, hrun]
    refine ⟨rfl, ⟨symbols, hsteps, rfl⟩, fun a ↦ ⟨rfl, ?_, ?_⟩⟩
    · exact Assembler.code_pushAll (.refl _)
    · exact Assembler.lines_pushAll (.refl _)
  · obtain ⟨plan, symbols, hplan⟩ := (shape.fails_or_plans s.symbols span).resolve_left
      fun ⟨error, herror⟩ ↦ h error herror
    refine ⟨plan, symbols, hplan, ?_⟩
    rw [houtcome, Operand.run_construct_of_plans options node hplan]
    exact ⟨plan.code_lower options (operands.getD []) span _,
      plan.errors_lower options (operands.getD []) span _⟩

/-- A construction without a callee fails; a string completes, whatever its count. -/
theorem Expr.construct_fails_or_completes_string :
    let s : LoweringState := { symbols := { registry := .withPrimitives .w32 } }
    let nothing := (Expr.construct 0 none none none .nowhere).operand {}
    let string (count : Expr) :=
      (Expr.construct 0 (some (.var ⟨stringName, .nowhere⟩ .nowhere)) none (some [count])
        .nowhere).operand {}
    (nothing.infer.run.run s).output.errors = [.unsupportedConstruction .nowhere] ∧
      ((string (.literal (.int 3) .nowhere)).infer.run.run s).output.errors = [] ∧
      ((string (.var ⟨"n", .nowhere⟩ .nowhere)).infer.run.run s).output.errors =
        [.unknownVariable "n" .nowhere] ∧
      ((string (.literal (.int 3) .nowhere)).infer.run.run s).output.instructions.length = 11 := by
  intro s nothing string
  have hnothing := (construct_fails_or_completes {} s 0 none none none .nowhere).2.1 _ .unsupported
  have hstring (count : Expr) :
      let start : LoweringState := { s with line := Span.nowhere.line }
      let plan := ConstructionPlan.buffer codeUnitSize (count.operand {})
      ((string count).infer.run.run s).output.instructions =
          plan.sequence {} [count.operand {}] .nowhere start ∧
        ((string count).infer.run.run s).output.errors =
          plan.partErrors {} [count.operand {}] .nowhere start := by
    have hplan : Construction.Plans s.symbols .nowhere _ _ _ := .codeUnits (count.operand {})
    obtain ⟨plan, symbols, hplan', hdone⟩ := (construct_fails_or_completes {} s 0
      (some (.var ⟨stringName, .nowhere⟩ .nowhere)) none (some [count]) .nowhere).2.2
        fun error h ↦ h.not_plans hplan
    cases hplan'
    exact hdone
  refine ⟨hnothing.1, (hstring _).2.trans ?_, (hstring _).2.trans ?_, ?_⟩
  · decide +kernel
  · decide +kernel
  · rw [(hstring _).1]
    decide +kernel

end StackLowering
