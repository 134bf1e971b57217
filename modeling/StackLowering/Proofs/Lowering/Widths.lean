import StackLowering.Proofs.Lowering.Capacity
import StackLowering.Proofs.Lowering.Comparison
import StackLowering.Proofs.Symbols.Operations

/-!
# Pointers of two widths

A host registers its types and functions in the same way for both widths (`HostOperation`), and the two
registries look alike but for the numbers of layouts. A script that is compiled against each of them
gets the same errors, functions of the same shape and the same findings, and the registries look alike
again (`Script.alike_compile`). So whether a script compiles does not depend on the target.

The comparison of operands (`Operand.Widthless`) is carried on through statements and functions here.
The pools of the two compilations differ, and so do the bytes, since a literal may be another constant;
what a host sees of a function apart from its code is a name, a number of parameters and the types of
the slots (`CompiledFunction.shape`).

The last part goes back to the start: registries that are empty but for their widths look alike, and
every operation of a host keeps it so (`Registry.Alike.performAll`), also one that fails. Together this
is `Script.compile_widths`, in which nothing is assumed of the operations.
-/

namespace StackLowering

variable {s s' : LoweringState} {returns : Fingerprint}

/-! ### Statements -/

namespace Lower

/-- A parameter is declared for both widths, or reported for both. -/
theorem alike_declareParam (h : s.Alike s') (span : Span) (param : Param) :
    Alike Eq s s' (declareParam span param) (declareParam span param) := by
  refine .bind (Attempt.Alike.declare h param.name param.type span) fun v v' s₁ s₁' hv h₁ ↦ ?_
  rcases hv with - | error
  · exact .pure h₁ rfl
  · exact .report h₁ error

/-- A value is stored or dropped for both widths. -/
theorem alike_storeVariable (h : s.Alike s') (name : Ident) (span : Span) (type : Fingerprint) :
    Alike Eq s s' (storeVariable name span type) (storeVariable name span type) := by
  unfold storeVariable
  split
  · refine .registry_bind ?_
    rw [h.symbols.registry.typeName]
    exact .trap h _
  · refine .bind (Attempt.Alike.declare h name.name type name.span) fun v v' s₁ s₁' hv h₁ ↦ ?_
    rcases hv with - | error
    · exact .emit h₁ _ _
    · exact (Alike.report h₁ error).bind fun _ _ _ _ _ h₂ ↦ .emit h₂ .pop .pop

/-- A variable gets the written type, which is resolved to the same for both widths, or that of its
value. -/
theorem alike_declareVariable (h : s.Alike s') (name : Ident) (type : Option TypeExpr)
    {value : Operand} (hvalue : value.Widthless) (span : Span) :
    Alike Eq s s' (declareVariable name type value span) (declareVariable name type value span) := by
  rcases type with _ | written
  · refine .bind (hvalue.inferOrTrap h) fun v v' s₁ s₁' hv h₁ ↦ ?_
    subst hv
    rcases v with _ | info
    · exact .pure h₁ rfl
    · exact alike_storeVariable h₁ name span info.type
  · refine .bind (Attempt.Alike.resolve h (written.alike_resolve h.symbols))
      fun v v' s₁ s₁' hv h₁ ↦ ?_
    rcases hv with hv | error
    · subst hv
      refine .bind (hvalue.checkOrTrap _ h₁) fun info info' s₂ s₂' hinfo h₂ ↦ ?_
      subst hinfo
      exact alike_storeVariable h₂ name span info.type
    · exact .trap h₁ error

theorem alike_returnValue (h : s.Alike s') (returns : Fingerprint) {value : Option Operand}
    (hvalue : ∀ o, value = some o → o.Widthless) (span : Span) :
    Alike Eq s s' (returnValue returns value span) (returnValue returns value span) := by
  have hpush : Alike Eq s s' (pushResult returns value span) (pushResult returns value span) := by
    rcases value with _ | o
    · show Alike Eq s s' (if returns = voidType then _ else _) (if returns = voidType then _ else _)
      split
      · exact .pure h rfl
      · refine .registry_bind ?_
        rw [h.symbols.registry.typeName, h.symbols.registry.typeName]
        exact .trap h _
    · exact ((hvalue o rfl).checkOrTrap returns h).discard
  exact hpush.bind fun _ _ _ _ _ h₁ ↦ .emit h₁ _ _

end Lower

/-- A statement is lowered with the same reports for both widths. -/
theorem Stmt.alike_lower (options : CompilerOptions) (h : s.Alike s') (returns : Fingerprint)
    (stmt : Stmt) :
    Lower.Alike Eq s s' (stmt.lower options returns) (stmt.lower options returns) := by
  refine (Lower.Alike.setLine h _ _).bind fun _ _ s₁ s₁' _ h₁ ↦ ?_
  rcases stmt with ⟨e, span⟩ | ⟨name, type, value, span⟩ | ⟨value, span⟩
  · exact e.widthless_operand.evaluateAndDrop h₁
  · exact Lower.alike_declareVariable h₁ name type value.widthless_operand span
  · refine Lower.alike_returnValue h₁ returns (fun o ho ↦ ?_) span
    obtain ⟨e, -, rfl⟩ := Option.map_eq_some_iff.1 ho
    exact e.widthless_operand

/-! ### Functions -/

/-- A lowered function without its code. -/
def LoweredFunction.withoutCode (f : LoweredFunction) : LoweredFunction :=
  ⟨f.name, f.paramCount, f.locals, ⟨[], f.output.errors, f.output.findings⟩⟩

/-- A function is lowered to the same for both widths, but for its code. -/
theorem Callable.alike_lower (options : CompilerOptions) (f : Callable) (body : List Stmt)
    (span : Span) (h : s.symbols.Alike .measureless s'.symbols) :
    (f.lower options body span s').1.withoutCode = (f.lower options body span s).1.withoutCode ∧
      (f.lower options body span s).2.symbols.Alike .measureless
        (f.lower options body span s').2.symbols := by
  have hstart : (bodyStart s).Alike (bodyStart s') := ⟨h, rfl⟩
  have hbody : Lower.Alike Eq (bodyStart s) (bodyStart s')
      (f.lowerStatements options body span >>= fun _ ↦ Lower.emitAll (f.ending body))
      (f.lowerStatements options body span >>= fun _ ↦ Lower.emitAll (f.ending body)) := by
    refine .bind (.bind (.forM hstart fun param _ s₁ s₁' h₁ ↦ Lower.alike_declareParam h₁ span param)
      fun _ _ s₁ s₁' _ h₁ ↦ .forM h₁ fun stmt _ s₂ s₂' h₂ ↦ ?_) fun _ _ s₂ s₂' _ h₂ ↦ .emitAll h₂ _ _
    exact stmt.alike_lower options h₂ f.returns
  have hrun (s : LoweringState) : f.lower options body span s =
      (⟨f.name, f.arity, ((f.lowerBody options body span).run s).state.frame.slots,
        ((f.lowerBody options body span).run s).output⟩,
        ((f.lowerBody options body span).run s).state) := rfl
  rw [hrun, hrun, run_lowerBody, run_lowerBody]
  refine ⟨?_, hbody.state.symbols⟩
  dsimp only [LoweredFunction.withoutCode]
  rw [hbody.state.frame, hbody.errors, hbody.findings]

/-- Functions become the same apart from their code. -/
theorem alike_lowerFunctions (options : CompilerOptions) (fs : List (FunctionDecl × Callable))
    (s s' : LoweringState) (h : s.symbols.Alike .measureless s'.symbols) :
    (lowerFunctions options fs s').1.map LoweredFunction.withoutCode =
        (lowerFunctions options fs s).1.map LoweredFunction.withoutCode ∧
      (lowerFunctions options fs s).2.symbols.Alike .measureless
        (lowerFunctions options fs s').2.symbols := by
  induction fs generalizing s s' with
  | nil => exact ⟨rfl, h⟩
  | cons q fs ih =>
    obtain ⟨hfirst, hsymbols⟩ := q.2.alike_lower options q.1.body q.1.span h
    obtain ⟨hrest, hend⟩ := ih _ _ hsymbols
    refine ⟨?_, hend⟩
    rw [lowerFunctions, lowerFunctions, List.map_cons, List.map_cons, hfirst, hrest]

/-! ### Scripts -/

/-- What a compiled function is from the outside: its name, the number of its parameters and the types
of its slots. -/
def CompiledFunction.shape (f : CompiledFunction) : String × Nat × Array Fingerprint :=
  (f.name, f.paramCount, f.locals)

/-- What a host sees of functions apart from their code does not depend on the pool. -/
theorem map_shape_assembleFunctions (lowered : List LoweredFunction) (pool : ConstantPool) :
    (assembleFunctions lowered pool).1.map CompiledFunction.shape =
      (lowered.map LoweredFunction.withoutCode).map fun f ↦ (f.name, f.paramCount, f.locals) := by
  induction lowered generalizing pool with
  | nil => rfl
  | cons g lowered ih =>
    exact congrArg ((g.name, g.paramCount, g.locals) :: ·) (ih (g.assemble pool).2)

/-- Two compilations with the same errors, findings and shapes of functions, and registries that look
alike. -/
structure Compilation.Alike (c c' : Compilation) : Prop where
  errors : c'.errors = c.errors
  shapes : c'.functions.map CompiledFunction.shape = c.functions.map CompiledFunction.shape
  annotations : c'.annotations = c.annotations
  registry : c.registry.Alike .measureless c'.registry

/-- A script that is compiled against registries which look alike comes to the same, but for code and
layouts. -/
theorem Script.alike_compile (options : CompilerOptions) {registry registry' : Registry}
    (h : registry.Alike .measureless registry') (script : Script) :
    (script.compile options registry).Alike (script.compile options registry') := by
  have hstart : Symbols.Alike .measureless { registry } { registry := registry' } := ⟨h, rfl⟩
  obtain ⟨hdeclared, hsymbols⟩ := alike_declareFunctions script hstart
  obtain ⟨hlowered, hend⟩ := alike_lowerFunctions options (declareFunctions script { registry }).1.1
    { symbols := (declareFunctions script { registry }).2 }
    { symbols := (declareFunctions script { registry := registry' }).2 } hsymbols
  have hlowered : (script.lowered options registry').1.map LoweredFunction.withoutCode =
      (script.lowered options registry).1.map LoweredFunction.withoutCode := by
    unfold lowered
    rw [hdeclared]
    exact hlowered
  -- the reports and findings of a function are those of the function without its code
  have hreports {α : Type} (report : LoweredFunction → List α)
      (hreport : ∀ g, report g = report g.withoutCode) :
      (script.lowered options registry').1.flatMap report =
        (script.lowered options registry).1.flatMap report := by
    have hcode (fs : List LoweredFunction) :
        fs.flatMap report = (fs.map LoweredFunction.withoutCode).flatMap report := by
      rw [List.flatMap_map]
      exact congrArg (List.flatMap · fs) (funext hreport)
    rw [hcode, hlowered, ← hcode]
  refine ⟨?_, ?_, ?_, ?_⟩
  · rw [errors_compile, errors_compile, hdeclared, hreports _ fun _ ↦ rfl]
  · show (assembleFunctions (script.lowered options registry').1 .empty).1.map _ =
      (assembleFunctions (script.lowered options registry).1 .empty).1.map _
    rw [map_shape_assembleFunctions, map_shape_assembleFunctions, hlowered]
  · exact congrArg Annotations.mk (hreports (·.output.findings) fun _ ↦ rfl)
  · show (script.lowered options registry).2.symbols.registry.Alike .measureless
      (script.lowered options registry').2.symbols.registry
    unfold lowered
    rw [hdeclared]
    exact hend.registry

/-! ### Hosts -/

namespace Registry

namespace Alike

variable {r r' : Registry}

/-- The primitive types are entered in both registries. Their layouts are not part of the entries. -/
theorem putPrimitives {v : ClassView} (h : r.Alike v r') :
    r.putPrimitives.Alike v r'.putPrimitives := by
  unfold Registry.putPrimitives
  generalize Primitive.all = primitives
  induction primitives generalizing r r' with
  | nil => exact h
  | cons p primitives ih => exact ih (h.putType (.primitive p))

/-- A field is added to a class in both registries, or in none because there is no such class. -/
theorem pushField? (h : r.Alike .measureless r') (id : Fingerprint) (field : Field) :
    (r.pushField? id field = none ∧ r'.pushField? id field = none) ∨
      ∃ r₁ r₁', r.pushField? id field = some r₁ ∧ r'.pushField? id field = some r₁' ∧
        r₁.Alike .measureless r₁' := by
  rw [Registry.pushField?, Registry.pushField?]
  rcases h.cases_class? id with ⟨hnone, hnone'⟩ | ⟨c, c', hc, hc', hsee⟩
  · exact .inl ⟨by rw [hnone]; rfl, by rw [hnone']; rfl⟩
  · refine .inr ⟨_, _, by rw [hc]; rfl, by rw [hc']; rfl, h.setClass ?_ id⟩
    have hpush (c : ClassEntry) : (c.pushField field).unmeasured =
        c.unmeasured.pushField field.unmeasured := by
      simp [ClassEntry.pushField, ClassEntry.unmeasured]
    show (c'.pushField field).unmeasured = (c.pushField field).unmeasured
    have hsee : c'.unmeasured = c.unmeasured := hsee
    rw [hpush, hpush, hsee]

/-- An operation succeeds on both registries or on none, and they look alike afterwards. -/
theorem perform (h : r.Alike .measureless r') (operation : HostOperation) :
    (r.perform operation).Alike .measureless (r'.perform operation) := by
  rcases operation with _ | entry | f | id | ⟨id, field⟩ <;> dsimp only [Registry.perform]
  · exact h.putPrimitives
  · rcases h.registerType entry with ⟨error, herror, herror'⟩ | ⟨r₁, r₁', hr, hr', halike⟩
    · rwa [herror, herror']
    · rwa [hr, hr']
  · rcases h.registerFunction f with ⟨error, herror, herror'⟩ | ⟨r₁, r₁', hr, hr', halike⟩
    · rwa [herror, herror']
    · rwa [hr, hr']
  · rcases h.layOutClass id with ⟨error, herror, herror'⟩ | ⟨_, _, r₁, r₁', hr, hr', halike⟩
    · rwa [herror, herror']
    · rwa [hr, hr']
  · rcases h.pushField? id field with ⟨hnone, hnone'⟩ | ⟨r₁, r₁', hr, hr', halike⟩
    · rwa [hnone, hnone']
    · rwa [hr, hr']

/-- The same operations lead to registries that look alike, whether they succeed or fail. -/
theorem performAll (h : r.Alike .measureless r') (operations : List HostOperation) :
    (r.performAll operations).Alike .measureless (r'.performAll operations) := by
  induction operations generalizing r r' with
  | nil => exact h
  | cons operation operations ih => exact ih (h.perform operation)

end Alike

end Registry

/-- What is said about a script does not depend on the width of pointers. If a host performs the same
operations on a registry for 32 bits and on one for 64 bits, a script gets the same errors in the same
order against both, the same functions with the same numbers of parameters and the same slots, and the
same findings. The registries hold the same types, functions and names in the end, and the same classes
are laid out, to whatever numbers. -/
theorem Script.compile_widths (options : CompilerOptions) (operations : List HostOperation)
    (script : Script) :
    let narrow := script.compile options ((Registry.empty .w32).performAll operations)
    let wide := script.compile options ((Registry.empty .w64).performAll operations)
    wide.errors = narrow.errors ∧
      wide.functions.map CompiledFunction.shape = narrow.functions.map CompiledFunction.shape ∧
      wide.annotations = narrow.annotations ∧
      wide.registry.typeNames = narrow.registry.typeNames ∧
      wide.registry.functions = narrow.registry.functions ∧
      wide.registry.functionNames = narrow.registry.functionNames ∧
      (∀ id, (wide.registry.type? id).map (·.seen .measureless) =
        (narrow.registry.type? id).map (·.seen .measureless)) ∧
      ∀ id, (wide.registry.class? id).map ClassEntry.flags =
        (narrow.registry.class? id).map ClassEntry.flags := by
  intro narrow wide
  have hempty : (Registry.empty .w32).Alike .measureless (Registry.empty .w64) :=
    ⟨fun _ ↦ rfl, rfl, rfl, rfl⟩
  have h : narrow.Alike wide := script.alike_compile options (hempty.performAll operations)
  refine ⟨h.errors, h.shapes, h.annotations, h.registry.typeNames, h.registry.functions,
    h.registry.functionNames, h.registry.types, fun id ↦ ?_⟩
  rcases h.registry.cases_class? id with ⟨hnone, hnone'⟩ | ⟨c, c', hc, hc', hsee⟩
  · rw [hnone, hnone']
  · have hflags (c : ClassEntry) : c.unmeasured.flags = c.flags := by
      have hlaidOut : c.unmeasured.isLaidOut = c.isLaidOut := Option.isSome_map
      rw [ClassEntry.flags, ClassEntry.flags, hlaidOut]
      rfl
    have hsee : c'.unmeasured = c.unmeasured := hsee
    rw [hc, hc', Option.map_some, Option.map_some, ← hflags c', hsee, hflags c]

end StackLowering
