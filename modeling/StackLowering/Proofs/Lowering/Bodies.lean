import StackLowering.Proofs.Lowering.Passes
import StackLowering.Proofs.Lowering.Uniform

/-!
# Bodies in two states

A body that is lowered in two states, the second of which knows all that the first one knows, becomes
the same function in both, and the same is added to both registries (`Callable.agree_lower`). A body
starts with an empty frame on the first line, so that only the symbols of the two states matter.

What is asked of a body is asked of its statements one by one (`Stmt.Known`): the types that are
written in it are known to the setting, and no constructor is called by its symbol. What is asked of
its function is that the types of the parameters and of the result are stable. Both are decided before
any body is lowered, so the theorem can be used for the bodies of a script in any order.

The two states need not be equal. The second one may know instances, layouts and functions that the
first one does not know, from bodies that were lowered in between. That makes no difference, since both
answer alike whatever a body may ask for. So the functions of a script, lowered one after the other,
are compared with themselves, each of them lowered before all others (`lowerFunctions_eq`).
-/

namespace StackLowering

variable {W : Setting} {s t : LoweringState} {options : CompilerOptions} {returns : Fingerprint}

/-! ### Variables -/

/-- A variable of a stable type is declared in both frames, or its name is taken in both. -/
theorem Attempt.agree_declare (h : W.Related s t) (name : String) {type : Fingerprint}
    (htype : W.Stable s.symbols.registry type) (span : Span) :
    Attempt.Agree W s t (declare name type span) (declare name type span) fun _ _ ↦ True := by
  have hrelated := h.setFrame (s.frame.declare name type span).2 fun {name' v} hv ↦ by
    unfold Frame.declare at hv
    cases hfind : s.frame.find? name with
    | some v₀ =>
      rw [hfind] at hv
      exact h.bindings hv
    | none =>
      rw [hfind] at hv
      exact h.stable_allocate htype hv
  constructor
  · rw [run_declare, run_declare, h.frame]
  · rw [run_declare, run_declare]
  · rw [run_declare, run_declare, h.frame]
    exact hrelated
  · exact .refl h.symbols
  · exact fun _ _ ↦ trivial

namespace Lower

theorem agree_declareParam (h : W.Related s t) (span : Span) {param : Param}
    (hparam : W.Stable s.symbols.registry param.type) :
    Agree W s t (declareParam span param) (declareParam span param) fun _ _ ↦ True := by
  refine .bind (Attempt.agree_declare h param.name hparam span) fun v s₁ t₁ h₁ _ _ ↦ ?_
  cases v with
  | ok slot => exact .pure h₁ trivial
  | error error => exact .report h₁ error

theorem agree_storeVariable (h : W.Related s t) (name : Ident) (span : Span) {type : Fingerprint}
    (htype : W.Stable s.symbols.registry type) :
    Agree W s t (storeVariable name span type) (storeVariable name span type) fun _ _ ↦ True := by
  unfold storeVariable
  split
  · refine .registry_bind ?_
    rw [h.typeName_eq htype]
    exact .trap h _
  · refine .bind (Attempt.agree_declare h name.name htype name.span) fun v s₁ t₁ h₁ _ _ ↦ ?_
    cases v with
    | ok slot => exact .emit h₁ _
    | error error => exact (Agree.report h₁ error).bind fun _ _ _ h₂ _ _ ↦ .emit h₂ .pop

/-- A variable is declared with the written type, which is resolved to the same in both states, or with
that of its value. -/
theorem agree_declareVariable (hW : W.Sound) (h : W.Related s t) (name : Ident)
    {type : Option TypeExpr} (htype : ∀ w, type = some w → ∀ a ∈ w.applications, W.Writes a)
    {value : Operand} (hvalue : value.Uniform W) (span : Span) :
    Agree W s t (declareVariable name type value span) (declareVariable name type value span)
      fun _ _ ↦ True := by
  cases type with
  | none =>
    refine .bind (hvalue.inferOrTrap h) fun v s₁ t₁ h₁ _ hinfo ↦ ?_
    cases v with
    | none => exact .pure h₁ trivial
    | some info => exact agree_storeVariable h₁ name span (hinfo info rfl)
  | some written =>
    have hresolve := written.agree_resolve hW (htype written rfl) h.symbols
    refine .bind (Attempt.Agree.resolve h hresolve) fun v s₁ t₁ h₁ _ hexpected ↦ ?_
    cases v with
    | error error => exact .trap h₁ error
    | ok expected =>
      exact .bind (hvalue.checkOrTrap h₁ (.inl (hexpected expected rfl).1)) fun info s₂ t₂ h₂ _ hinfo ↦
        agree_storeVariable h₂ name span hinfo

/-! ### Returns -/

/-- A value is returned as a stable type. -/
theorem agree_returnValue (hW : W.Sound) (h : W.Related s t)
    (hreturns : W.Stable s.symbols.registry returns) {value : Option Operand}
    (hvalue : ∀ o, value = some o → o.Uniform W) (span : Span) :
    Agree W s t (returnValue returns value span) (returnValue returns value span)
      fun _ _ ↦ True := by
  have hpush : Agree W s t (pushResult returns value span) (pushResult returns value span)
      fun _ _ ↦ True := by
    cases value with
    | some o => exact ((hvalue o rfl).checkOrTrap h hreturns).discard
    | none =>
      show Agree W s t (if returns = voidType then _ else _) (if returns = voidType then _ else _) _
      split
      · exact .pure h trivial
      · refine .registry_bind ?_
        have hvoid : W.Stable s.symbols.registry voidType := hW.stable_primitive _ .void
        rw [h.typeName_eq hvoid, h.typeName_eq hreturns]
        exact .trap h _
  exact hpush.bind fun _ _ _ h₁ _ _ ↦ .emit h₁ _

end Lower

/-! ### Statements and functions -/

/-- What a script writes in a statement is known, and the statement calls no constructor by its
symbol. -/
structure Stmt.Known (W : Setting) (stmt : Stmt) : Prop where
  writes : ∀ a ∈ stmt.applications, W.Writes a
  calls : ∀ name, .call name ∈ stmt.uses → ∀ owner, name ≠ Callable.constructorName owner

/-- A statement that is known agrees in every pair of states. -/
theorem Stmt.agree_lower (hW : W.Sound) (options : CompilerOptions) (h : W.Related s t)
    (hreturns : W.Stable s.symbols.registry returns) {stmt : Stmt} (hstmt : stmt.Known W) :
    Lower.Agree W s t (stmt.lower options returns) (stmt.lower options returns) fun _ _ ↦ True := by
  refine (Lower.Agree.setLine h _).bind fun _ s₁ t₁ h₁ hext _ ↦ ?_
  obtain ⟨hwrites, hcalls⟩ := hstmt
  cases stmt with
  | expr e span => exact (e.uniform_operand hW hwrites hcalls).evaluateAndDrop h₁
  | declare name type value span =>
    have hcalls' : ∀ callee, .call callee ∈ value.uses → ∀ owner, callee ≠ Callable.constructorName owner :=
      fun callee hcallee ↦ hcalls callee (List.mem_cons_of_mem _ hcallee)
    cases type with
    | none =>
      exact Lower.agree_declareVariable hW h₁ name (by simp)
        (value.uniform_operand hW hwrites hcalls') span
    | some written =>
      refine Lower.agree_declareVariable hW h₁ name (fun w hw a ha ↦ ?_)
        (value.uniform_operand hW (fun a ha ↦ hwrites a (List.mem_append_right _ ha)) hcalls') span
      obtain rfl := Option.some.inj hw
      exact hwrites a (List.mem_append_left _ ha)
  | ret value span =>
    refine Lower.agree_returnValue hW h₁ (hreturns.mono hext) (fun o ho ↦ ?_) span
    obtain ⟨e, rfl, rfl⟩ := Option.map_eq_some_iff.1 ho
    exact e.uniform_operand hW hwrites hcalls

namespace Callable

/-- A registered function is lowered in the same way in both states. -/
theorem agree_lower (hW : W.Sound) (options : CompilerOptions)
    (h : W.Below s.symbols t.symbols) (hdeclared : W.Declared s.symbols.registry) {f : Callable}
    (hf : f ∈ W.functions) {body : List Stmt} (hbody : ∀ stmt ∈ body, stmt.Known W) (span : Span) :
    (f.lower options body span t).1 = (f.lower options body span s).1 ∧
      W.InStep s.symbols t.symbols (f.lower options body span s).2.symbols
        (f.lower options body span t).2.symbols := by
  obtain ⟨-, hparams, hreturns⟩ := hdeclared f hf
  have hstart : W.Related (bodyStart s) (bodyStart t) :=
    ⟨h, hdeclared, rfl, rfl, fun hv ↦ by simp [bodyStart, Frame.find?, Frame.empty] at hv⟩
  have hstatements : Lower.Agree W (bodyStart s) (bodyStart t)
      (f.lowerStatements options body span) (f.lowerStatements options body span)
      fun _ _ ↦ True := by
    refine (Lower.Agree.forM hstart fun param hparam s₁ t₁ h₁ hext ↦
      Lower.agree_declareParam h₁ span ((hparams param hparam).mono hext)).bind
        fun _ s₁ t₁ h₁ hext _ ↦ .forM h₁ fun stmt hstmt s₂ t₂ h₂ hext' ↦ ?_
    exact Stmt.agree_lower hW options h₂ (hreturns.mono (hext.trans hext')) (hbody stmt hstmt)
  have hagree : Lower.Agree W (bodyStart s) (bodyStart t)
      (f.lowerStatements options body span >>= fun _ ↦ Lower.emitAll (f.ending body))
      (f.lowerStatements options body span >>= fun _ ↦ Lower.emitAll (f.ending body))
      fun _ _ ↦ True :=
    hstatements.bind fun _ _ _ h₁ _ _ ↦ .emitAll h₁ _
  have hrun (s : LoweringState) : f.lower options body span s =
      (⟨f.name, f.arity, ((f.lowerBody options body span).run s).state.frame.slots,
        ((f.lowerBody options body span).run s).output⟩,
        ((f.lowerBody options body span).run s).state) := rfl
  rw [hrun, hrun, run_lowerBody, run_lowerBody]
  exact ⟨by rw [hagree.related.frame, hagree.output], hagree.step⟩

end Callable

/-- A function that is lowered before all others. -/
def lowerFirst (options : CompilerOptions) (base : Symbols) (q : FunctionDecl × Callable) :
    LoweredFunction × LoweringState :=
  q.2.lower options q.1.body q.1.span { symbols := base }

/-- Registered functions are lowered one after the other to what each of them is lowered to before
all others, and what they add is what each of them adds there. -/
theorem lowerFunctions_eq (hW : W.Sound) (options : CompilerOptions) {base : Symbols}
    (hdeclared : W.Declared base.registry) {fs : List (FunctionDecl × Callable)}
    (hfs : ∀ q ∈ fs, q.2 ∈ W.functions ∧ ∀ stmt ∈ q.1.body, stmt.Known W)
    (h : W.Below base s.symbols) :
    (lowerFunctions options fs s).1 = fs.map (fun q ↦ (lowerFirst options base q).1) ∧
      s.symbols.registry.Adds
        (fun r ↦ ∀ q ∈ fs, (lowerFirst options base q).2.symbols.registry.Extends r)
        (lowerFunctions options fs s).2.symbols.registry := by
  induction fs generalizing s with
  | nil => exact ⟨rfl, .of_forall fun _ _ ↦ by simp⟩
  | cons q fs ih =>
    obtain ⟨hf, hbody⟩ := hfs q List.mem_cons_self
    obtain ⟨hvalue, hstep⟩ := q.2.agree_lower hW options (s := { symbols := base }) h hdeclared hf
      hbody q.1.span
    -- what is lowered next still starts from a state above the first one
    obtain ⟨hlowered, hadds⟩ := ih (fun q hq ↦ hfs q (List.mem_cons_of_mem _ hq))
      ⟨h.lower, hstep.below.upper, hstep.extend.trans hstep.below.extend⟩
    obtain ⟨K, hbase, hfirst⟩ := hstep.adds
    refine ⟨congrArg₂ List.cons hvalue hlowered, ?_⟩
    have hq : s.symbols.registry.Adds (lowerFirst options base q).2.symbols.registry.Extends
        (q.2.lower options q.1.body q.1.span s).2.symbols.registry :=
      .of_extends h.extend hbase hfirst
    exact (hq.trans hadds).congr fun _ _ ↦ by simp

end StackLowering
