import StackLowering.Proofs.Lowering.Calls
import StackLowering.Proofs.Lowering.Resolution
import StackLowering.Proofs.Lowering.TypePosition

/-!
# The order of calls

Which functions an expression calls, and in which order, can be told from its form (`Expr.callOrder`):
a function is called after its arguments were evaluated, and a buffer is allocated after its count, but
an object is allocated before the arguments of its constructor. Whether a class has a constructor
depends on what is registered at that moment, so the order is found out together with the instances
that are created on the way. Variables, layouts and conversions play no part in it.

The order is a recursion over the syntax and does not look at code. It is a resolution, since it has to
know of an instance that the expression itself creates whether it has a constructor; the registry that
it finds is compared with that of lowering up to layouts (`LoweringState.Follows`).

A computation keeps to an order if it reports an error, or if the instructions that it writes call what
the order tells, and it leaves symbols behind that look like those which the order has found
(`Lower.Calls`). Computations in a row keep to their orders in a row, and most computations keep to the
empty one. Errors are left out because a script with errors has traps in the place of calls.
-/

namespace StackLowering

/-! ### Forms -/

/-- The functions that are called, in order. -/
abbrev CallOrder := Resolution (List String)

namespace CallOrder

/-- Some calls after others. -/
def andThen (x y : CallOrder) : CallOrder := do
  let calls ← x
  let rest ← y
  pure (calls ++ rest)

/-- Calls from left to right. -/
def inOrder : List CallOrder → CallOrder
  | [] => pure []
  | x :: xs => x.andThen (inOrder xs)

end CallOrder

/-- The elements of what is written like a buffer: an array of a written type, or a string, with one
argument. -/
def bufferElement? (name : String) : List TypeExpr → Nat → Option BufferElement
  | [type], 1 => if name = arrayName then some (.declared type) else none
  | [], 1 => if name = stringName then some .codeUnit else none
  | _, _ => none

/-- Resolves the type of the elements of a buffer. -/
def BufferElement.resolve : BufferElement → Resolution Unit
  | declared type => do
    let _ ← type.resolve
    pure ()
  | codeUnit => pure ()

/-- The calls of the construction of an object, given those of the arguments. Without a constructor the
arguments are not evaluated. -/
def CallOrder.object (allocator : String) (args : List CallOrder) : Option Callable → CallOrder
  | none => pure [allocator]
  | some c => andThen (pure [allocator]) ((inOrder args).andThen (pure [c.name]))

/-- The calls of a construction, given those of its arguments. -/
def CallOrder.construction (allocator : String) (callee : Option String) (typeArgs : List TypeExpr)
    (args : List CallOrder) (span : Span) : CallOrder :=
  match callee with
  | none => throw (.unsupportedConstruction span)
  | some name =>
    match bufferElement? name typeArgs args.length with
    | some element => do
      element.resolve
      (inOrder args).andThen (pure [allocator])
    | none => do
      let id ← namedTarget name typeArgs span
      object allocator args ((← get).registry.constructorOf? id)

mutual

/-- The calls of an expression. -/
def Expr.callOrder (allocator : String) : Expr → CallOrder
  | .literal _ _ | .var _ _ => pure []
  | .call callee args _ =>
    (CallOrder.inOrder (callOrdersOfList allocator args)).andThen
      (pure [callee.ident?.getD anonymousCallee])
  | .construct _ callee typeArgs args span =>
    .construction allocator (callee.bind Expr.ident?) (typeArgs.getD []) (callOrdersOfArgs allocator args)
      span
  | .paren inner _ => inner.callOrder allocator
termination_by structural e => e

/-- The calls of each expression in a list. -/
def callOrdersOfList (allocator : String) : List Expr → List CallOrder
  | [] => []
  | e :: es => e.callOrder allocator :: callOrdersOfList allocator es
termination_by structural es => es

/-- The calls of each argument of a construction. -/
def callOrdersOfArgs (allocator : String) : Option (List Expr) → List CallOrder
  | none => []
  | some es => callOrdersOfList allocator es
termination_by structural es => es

end

/-- The calls of a variable declaration, given those of its value. A written type is resolved first. -/
def CallOrder.declaration (value : CallOrder) : Option TypeExpr → CallOrder
  | none => value
  | some type => do
    let _ ← type.resolve
    value

/-- The calls of a statement. -/
def Stmt.callOrder (allocator : String) : Stmt → CallOrder
  | .expr e _ => e.callOrder allocator
  | .declare _ type value _ => (value.callOrder allocator).declaration type
  | .ret none _ => pure []
  | .ret (some value) _ => value.callOrder allocator

/-- The calls of a function. -/
def FunctionDecl.callOrder (allocator : String) (d : FunctionDecl) : CallOrder :=
  .inOrder (d.body.map (Stmt.callOrder allocator))

/-- The name and the calls of each function. -/
def callOrders (allocator : String) : List FunctionDecl → Resolution (List (String × List String))
  | [] => pure []
  | d :: ds => do
    let calls ← d.callOrder allocator
    let rest ← callOrders allocator ds
    pure ((d.name.name, calls) :: rest)

/-- The name and the calls of each function of a script, whose signatures are registered first. -/
def Script.callOrder (allocator : String) (registry : Registry) (script : Script) :
    Except CompileError (List (String × List String)) :=
  ((callOrders allocator script).run.run (declareFunctions script { registry }).2).1

/-! ### Runs -/

/-- What is left to be found out after a resolution. -/
theorem Resolution.run_bind_of_run {α β : Type} {x : Resolution α} {t t₁ : Symbols} {a : α}
    (h : x.run.run t = (.ok a, t₁)) (f : α → Resolution β) :
    (x >>= f).run.run t = (f a).run.run t₁ := by
  rw [run_bind, h]

namespace CallOrder

variable {x y : CallOrder} {t t₁ t₂ : Symbols} {calls calls' : List String}

/-- Two orders after each other, if both are found out. -/
theorem run_andThen (hx : x.run.run t = (.ok calls, t₁)) (hy : y.run.run t₁ = (.ok calls', t₂)) :
    (x.andThen y).run.run t = (.ok (calls ++ calls'), t₂) :=
  (Resolution.run_bind_of_run hx _).trans (Resolution.run_bind_of_run hy _)

@[simp] theorem nil_andThen (x : CallOrder) : andThen (pure []) x = x := by
  simp [andThen]

@[simp] theorem andThen_nil (x : CallOrder) : x.andThen (pure []) = x := by
  simp [andThen]

@[simp] theorem inOrder_singleton (x : CallOrder) : inOrder [x] = x :=
  x.andThen_nil

section Construction

variable {allocator name : String} {typeArgs : List TypeExpr} {args : List CallOrder} {span : Span}

/-- Once the type of its elements is resolved, a buffer is what is left. -/
theorem run_construction_buffer {element : BufferElement}
    (hbuffer : bufferElement? name typeArgs args.length = some element)
    (helement : element.resolve.run.run t = (.ok (), t₁)) :
    (construction allocator (some name) typeArgs args span).run.run t =
      ((inOrder args).andThen (pure [allocator])).run.run t₁ := by
  rw [construction, hbuffer]
  exact Resolution.run_bind_of_run helement _

/-- Once its type is known, an object with its constructor is what is left. -/
theorem run_construction_object {id : Fingerprint}
    (hbuffer : bufferElement? name typeArgs args.length = none)
    (hid : (namedTarget name typeArgs span).run.run t = (.ok id, t₁)) :
    (construction allocator (some name) typeArgs args span).run.run t =
      (object allocator args (t₁.registry.constructorOf? id)).run.run t₁ := by
  rw [construction, hbuffer]
  exact Resolution.run_bind_of_run hid _

end Construction

end CallOrder

/-- Whether something is written like a buffer does not depend on what its arguments are. -/
theorem map_bufferShape? (name : String) (typeArgs : Option (List TypeExpr))
    (args : Option (List Operand)) :
    (bufferShape? name typeArgs args).map Prod.fst =
      bufferElement? name (typeArgs.getD []) (args.getD []).length := by
  rcases typeArgs with _ | _ | ⟨type, _ | ⟨type', types⟩⟩ <;>
    rcases args with _ | _ | ⟨arg, _ | ⟨arg', args⟩⟩ <;>
    simp [bufferShape?, bufferElement?, apply_ite]

/-- To find out what a name reaches is to request instances. -/
theorem steps_namedTarget (name : String) (typeArgs : List TypeExpr) (span : Span) :
    (namedTarget name typeArgs span).Steps := by
  refine .bind .get fun s ↦ ?_
  split
  · exact .pure _
  · exact .bind (steps_resolveTypes typeArgs) fun _ ↦ .instantiate _ _ _
  · exact .throw _

/-- What a name applied to type arguments reaches is the same in states that look alike. -/
theorem alike_namedTarget {v : ClassView} {s t : Symbols} (h : s.Alike v t) (name : String)
    (typeArgs : List TypeExpr) (span : Span) :
    Resolution.Alike v s t (namedTarget name typeArgs span) (namedTarget name typeArgs span) := by
  refine .get_bind ?_
  rcases h.registry.cases_typeNamed? name with heq | ⟨c, c', hc, hc', hsee⟩
  · rw [heq]
    rcases s.registry.typeNamed? name with _ | p | c | u
    · exact .throw h _
    · exact .throw h _
    · exact .pure h _
    · exact .bind (alike_resolveTypes typeArgs h) fun ids _ _ h₁ ↦ .instantiate h₁ u.id ids span
  · rw [hc, hc']
    have hid : c'.id = c.id := ClassView.id_eq hsee
    dsimp only
    rw [hid]
    exact .pure h _

/-! ### Computations -/

/-- The symbols of a state look like those that an order has found, up to layouts. -/
structure LoweringState.Follows (s : LoweringState) (t : Symbols) : Prop where
  symbols : s.symbols.Alike .written t
  built : s.symbols.registry.Built

/-- Types are resolved to the same, and the symbols still look alike. -/
theorem LoweringState.Follows.resolve {α : Type} {x : Resolution α} {s : LoweringState} {t : Symbols}
    (h : s.Follows t) (hx : x.Alike .written s.symbols t x) (hsteps : x.Steps) :
    (x.run.run t).1 = ((Attempt.resolve x).run.run s).value ∧
      ((Attempt.resolve x).run.run s).state.Follows (x.run.run t).2 :=
  ⟨hx.value, hx.symbols, (hsteps s.symbols).built h.built⟩

/-- The functions that instructions call, in order. -/
def callees (is : List SymbolicInstruction) : List String := (is.filterMap Instruction.call?).map Prod.fst

/-- Code in two pieces calls what the first piece calls and then what the second one calls. -/
theorem callees_append (is js : List SymbolicInstruction) :
    callees (is ++ js) = callees is ++ callees js := by
  simp [callees]

/-- A plain instruction calls nothing. -/
theorem callees_eq_nil {is : List SymbolicInstruction} (h : ∀ i ∈ is, i.Plain) : callees is = [] := by
  refine List.map_eq_nil_iff.2 (List.filterMap_eq_nil_iff.2 fun i hi ↦ ?_)
  have hplain := (h i hi).1
  cases i <;> first | rfl | exact nomatch hplain

/-- If a computation reports nothing, it calls what an order tells, and its symbols still look like
those that the order has found. -/
def Lower.Calls {α : Type} (s : LoweringState) (t : Symbols) (x : Lower α) (order : CallOrder) : Prop :=
  (x.run s).output.errors = [] →
    ∃ t', order.run.run t = (.ok (callees (x.code s)), t') ∧ (x.run s).state.Follows t'

namespace Lower.Calls

variable {α β : Type} {s : LoweringState} {t t₁ : Symbols} {x : Lower α} {f : α → Lower β}
  {order order' : CallOrder}

/-- Nothing is said of a computation that reports an error. -/
theorem of_errors (h : (x.run s).output.errors ≠ []) : Calls s t x order :=
  fun hnil ↦ absurd hnil h

/-- A computation that calls nothing and leaves the symbols alone. -/
theorem silent (h : s.Follows t) (hsymbols : (x.run s).state.symbols = s.symbols)
    (hcode : callees (x.code s) = []) : Calls s t x (Pure.pure []) :=
  fun _ ↦ ⟨t, by rw [hcode]; rfl, hsymbols ▸ h.symbols, hsymbols ▸ h.built⟩

/-- A value is returned without a call. -/
theorem pure (h : s.Follows t) (a : α) : Calls s t (pure a) (pure []) :=
  .silent h rfl rfl

/-- A run of instructions calls what stands in it. -/
theorem emitAll (h : s.Follows t) (is : List SymbolicInstruction) :
    Calls s t (emitAll is) (Pure.pure (callees is)) :=
  fun _ ↦ ⟨t, by rw [code_emitAll]; rfl, h⟩

theorem emit (h : s.Follows t) (i : SymbolicInstruction) :
    Calls s t (emit i) (Pure.pure (callees [i])) :=
  emitAll h [i]

/-- Instructions that refer to nothing call nothing. -/
theorem plainAll (h : s.Follows t) {is : List SymbolicInstruction} (his : ∀ i ∈ is, i.Plain) :
    Calls s t (Lower.emitAll is) (Pure.pure []) := by
  have hcalls := emitAll h is
  rwa [callees_eq_nil his] at hcalls

/-- A trap comes with an error, so that nothing is said of its calls. -/
theorem trap (error : CompileError) : Calls s t (trap error) order :=
  .of_errors (List.cons_ne_nil _ _)

/-- The second computation calls what the second order tells. -/
theorem bind (hx : Calls s t x order)
    (hf : ∀ t₁, (x.run s).state.Follows t₁ →
      Calls (x.run s).state t₁ (f (x.run s).value) order') :
    Calls s t (x >>= f) (order.andThen order') := by
  intro h
  rw [output_bind, Output.errors_append, List.append_eq_nil_iff] at h
  obtain ⟨t₁, hfirst, h₁⟩ := hx h.1
  obtain ⟨t₂, hsecond, h₂⟩ := hf t₁ h₁ h.2
  refine ⟨t₂, ?_, h₂⟩
  rw [code_bind, callees_append]
  exact CallOrder.run_andThen hfirst hsecond

/-- What calls nothing may come before. -/
theorem silent_bind (hx : Calls s t x (Pure.pure []))
    (hf : ∀ t₁, (x.run s).state.Follows t₁ → Calls (x.run s).state t₁ (f (x.run s).value) order) :
    Calls s t (x >>= f) order := by
  have h := hx.bind hf
  rwa [CallOrder.nil_andThen] at h

/-- What calls nothing may come after. -/
theorem bind_silent (hx : Calls s t x order)
    (hf : ∀ t₁, (x.run s).state.Follows t₁ →
      Calls (x.run s).state t₁ (f (x.run s).value) (Pure.pure [])) :
    Calls s t (x >>= f) order := by
  have h := hx.bind hf
  rwa [CallOrder.andThen_nil] at h

/-- A computation that writes no call, while a part of the order is found out. -/
theorem bind_of_run (hcode : x.code s = []) (horder : order.run.run t = order'.run.run t₁)
    (hf : Calls (x.run s).state t₁ (f (x.run s).value) order') : Calls s t (x >>= f) order := by
  intro h
  rw [output_bind, Output.errors_append, List.append_eq_nil_iff] at h
  obtain ⟨t₂, hrun, h₂⟩ := hf h.2
  refine ⟨t₂, ?_, h₂⟩
  rw [code_bind, hcode, List.nil_append, horder]
  exact hrun

theorem discard (h : Calls s t x order) : Calls s t (discard x) order :=
  h.bind_silent fun _ h₁ ↦ .pure h₁ ()

/-- A loop calls from left to right what its rounds call. -/
theorem forM {l : List α} {f : α → Lower Unit} {orders : List CallOrder} (h : s.Follows t)
    (hf : List.Forall₂ (fun a order ↦ ∀ s t, s.Follows t → Calls s t (f a) order) l orders) :
    Calls s t (l.forM f) (.inOrder orders) := by
  induction hf generalizing s t with
  | nil => exact .pure h ()
  | cons hfirst _ ih => exact (hfirst s t h).bind fun _ h₁ ↦ ih h₁

/-- A loop calls nothing if its body calls nothing. -/
theorem forM_silent {l : List α} {f : α → Lower Unit} (h : s.Follows t)
    (hf : ∀ a ∈ l, ∀ s t, s.Follows t → Calls s t (f a) (Pure.pure [])) :
    Calls s t (l.forM f) (Pure.pure []) := by
  induction l generalizing s t with
  | nil => exact .pure h ()
  | cons a l ih =>
    exact (hf a List.mem_cons_self s t h).silent_bind fun _ h₁ ↦
      ih h₁ fun b hb ↦ hf b (List.mem_cons_of_mem a hb)

end Lower.Calls

/-- If a computation succeeds and reports nothing, it calls what an order tells. -/
def Attempt.Calls {α : Type} (s : LoweringState) (t : Symbols) (x : Attempt α) (order : CallOrder) :
    Prop :=
  ∀ a, (x.run.run s).value = .ok a → Lower.Calls s t x.run order

namespace Attempt.Calls

variable {α β : Type} {s : LoweringState} {t t₁ : Symbols} {x : Attempt α} {f : α → Attempt β}
  {order order' : CallOrder}

theorem pure (h : s.Follows t) (a : α) : Calls s t (pure a) (pure []) :=
  fun _ _ ↦ Lower.Calls.pure h _

/-- Nothing is said of a computation that fails. -/
theorem throw (error : CompileError) : Calls s t (throw error : Attempt α) order :=
  nofun

/-- Attempts in a row keep to their orders in a row. Nothing is asked if one of them fails. -/
theorem bind (hx : Calls s t x order)
    (hf : ∀ a t₁, (x.run.run s).state.Follows t₁ → Calls (x.run.run s).state t₁ (f a) order') :
    Calls s t (x >>= f) (order.andThen order') := by
  intro b hb
  obtain ⟨a, ha, hb⟩ := Attempt.bind_eq_ok.1 hb
  refine Lower.Calls.bind (f := fun v ↦ (ExceptT.bindCont f v)) (hx a ha) fun t₁ h₁ ↦ ?_
  show Lower.Calls _ t₁ (ExceptT.bindCont f (x.run.run s).value) order'
  rw [ha]
  exact hf a t₁ h₁ b hb

theorem bind_silent (hx : Calls s t x order)
    (hf : ∀ a t₁, (x.run.run s).state.Follows t₁ →
      Calls (x.run.run s).state t₁ (f a) (Pure.pure [])) :
    Calls s t (x >>= f) order := by
  have h := hx.bind hf
  rwa [CallOrder.andThen_nil] at h

/-- What only looks at the registry calls nothing. -/
theorem registry_bind {f : Registry → Attempt β} (hf : Calls s t (f s.symbols.registry) order) :
    Calls s t (liftM Lower.registry >>= f) order :=
  fun b hb ↦ hf b hb

/-- A computation may depend on the state that it finds. -/
theorem get_bind {f : LoweringState → Attempt β} (hf : Calls s t (f s) order) :
    Calls s t (liftM Lower.get >>= f) order :=
  fun b hb ↦ hf b hb

theorem lift {x : Lower α} (hx : Lower.Calls s t x order) : Calls s t (liftM x) order :=
  fun _ _ ↦ hx.bind_silent fun _ h₁ ↦ .pure h₁ _

/-- The first computation cannot fail. -/
theorem lift_bind {x : Lower α} {f : α → Attempt β} (hx : Lower.Calls s t x order)
    (hf : ∀ t₁, (x.run s).state.Follows t₁ →
      Calls (x.run s).state t₁ (f (x.run s).value) order') :
    Calls s t (liftM x >>= f) (order.andThen order') := by
  intro b hb
  rw [Attempt.lift_bind_run] at hb ⊢
  exact hx.bind fun t₁ h₁ ↦ hf t₁ h₁ b hb

/-- What cannot fail and calls nothing may come before. -/
theorem silent_bind {x : Lower α} {f : α → Attempt β} (hx : Lower.Calls s t x (Pure.pure []))
    (hf : ∀ t₁, (x.run s).state.Follows t₁ →
      Calls (x.run s).state t₁ (f (x.run s).value) order) :
    Calls s t (liftM x >>= f) order := by
  have h := lift_bind hx hf
  rwa [CallOrder.nil_andThen] at h

/-- A computation that writes nothing, while a part of the order is found out. -/
theorem lift_bind_of_run {x : Lower α} {f : α → Attempt β} (hcode : x.code s = [])
    (horder : order.run.run t = order'.run.run t₁)
    (hf : Calls (x.run s).state t₁ (f (x.run s).value) order') :
    Calls s t (liftM x >>= f) order := by
  intro b hb
  rw [Attempt.lift_bind_run] at hb ⊢
  exact .bind_of_run hcode horder (hf b hb)

/-- Where a failure is reported, nothing is said of it. -/
theorem handle {f : Except CompileError α → Lower β} (hx : Calls s t x order)
    (hok : ∀ a t₁, (x.run.run s).state.Follows t₁ →
      Lower.Calls (x.run.run s).state t₁ (f (.ok a)) (Pure.pure []))
    (herror : ∀ error s₁, ((f (.error error)).run s₁).output.errors ≠ []) :
    Lower.Calls s t (x.run >>= f) order := by
  rcases hvalue : (x.run.run s).value with error | a
  · refine .of_errors fun hnil ↦ ?_
    rw [Lower.output_bind, Output.errors_append, List.append_eq_nil_iff, hvalue] at hnil
    exact herror error _ hnil.2
  · refine (hx a hvalue).bind_silent fun t₁ h₁ ↦ ?_
    rw [hvalue]
    exact hok a t₁ h₁

end Attempt.Calls

end StackLowering
