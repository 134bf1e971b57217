import StackLowering.Proofs.Lowering.Expr

/-!
# Typing of function bodies

A statement starts and ends with an empty stack, and so does the body of a function: what a declaration
computes goes into its slot, and a return takes the one value that it leaves.

What is asked of a statement is what is asked of its expressions (`Expr.Admissible`), and that a
written type has no `void` in its arguments (`Stmt.Admissible`). Nothing is asked about types being
right: a statement with errors is typed as well, since every value that cannot be lowered is a trap.

A function that should return something, and whose last statement is no return, ends in a trap. Behind
it the stack may be taken to have the value that is missing, so that every body can be typed
(`Callable.sound_lowerBody`).
-/

namespace StackLowering

/-! ### Statements -/

namespace Lower

variable {E : Ending} {P : Prop} {cells : List Category}

/-- A parameter that is declared writes no code. -/
theorem typed_declareParam (hE : E.Sound) (span : Span) (param : Param)
    (h : P → E.Sized param.type ∧ ¬ IsTemporary param.name) :
    (declareParam span param).Typed E P cells fun _ cells' ↦ cells' = cells := by
  refine .bind (.declare hE param.name param.type span h) fun r _ ↦ .of_eq (fun hp ↦ hp.2.1) ?_
  cases r with
  | ok slot => exact .pure fun _ ↦ rfl
  | error error => exact .report error

/-- The value on top of the stack goes into a slot, or it is dropped. -/
theorem typed_storeVariable (hE : E.Sound) (name : Ident) (span : Span) (type : Fingerprint)
    (hname : ¬ IsTemporary name.name) (h : P → E.Known type) :
    (storeVariable name span type).Typed E P (E.push type cells) fun _ cells' ↦ cells' = cells := by
  unfold storeVariable
  split
  next => exact .bind .registry fun _ _ ↦ .trap cells
  next hvoid =>
    have hsized (hp : P) : E.Sized type := (h hp).resolve_left hvoid
    refine .bind (.declare hE name.name type name.span fun hp ↦ ⟨hsized hp, hname⟩)
      fun r _ ↦ .of_eq (fun hp ↦ hp.2.1) ?_
    cases r with
    | ok slot =>
      refine .emit cells fun ⟨hp, _, hslot⟩ ↦ ?_
      obtain ⟨c, hc⟩ := (hsized hp).exists_category
      rw [Ending.push_eq_cons hc]
      exact .setLocal (Option.bind_eq_some_iff.2 ⟨type, hslot slot rfl, hc⟩)
    | error error =>
      refine .seq (.report error) fun _ ↦ .emit cells fun ⟨hp, _⟩ ↦ ?_
      obtain ⟨c, hc⟩ := (hsized hp).exists_category
      rw [Ending.push_eq_cons hc]
      exact .pop

theorem typed_declareVariable (hE : E.Sound) (name : Ident) {type : Option TypeExpr}
    {value : Operand} (hname : ¬ IsTemporary name.name)
    (htype : ∀ t, type = some t → t.ArgsStorable) (h : value.Typed E) (span : Span)
    (cells : List Category) :
    (declareVariable name type value span).Typed E True cells fun _ cells' ↦ cells' = cells := by
  cases type with
  | none =>
    refine .bind (h.inferOrTrap cells) fun r cells₁ ↦ ?_
    cases r with
    | none => exact .pure And.right
    | some info =>
      exact .of_eq (fun hp ↦ hp.2.2) (typed_storeVariable hE name span info.type hname fun hp ↦ hp.2.1)
  | some written =>
    have hresolve := written.typed_resolve hE (htype written rfl)
    refine .bind (Attempt.Typed.resolve hresolve) fun r cells₁ ↦ ?_
    cases r with
    | error error => exact .trap cells
    | ok expected =>
      refine .of_eq (fun hp ↦ (hp.2 expected rfl).1) ?_
      refine .bind ((h.checkOrTrap expected cells).of_imp fun hp ↦ (hp.2 expected rfl).2.1)
        fun info cells₂ ↦ ?_
      refine .of_eq ?_ (typed_storeVariable hE name span info.type hname ?_)
      · rintro ⟨-, htype, heq⟩
        rw [heq, htype]
      · rintro ⟨⟨-, hr⟩, htype, -⟩
        exact htype ▸ (hr expected rfl).2.1

/-- A return leaves one value of the type of the result, or none if that is `void`. -/
theorem typed_pushResult (hE : E.Sound) (returns : Fingerprint) {value : Option Operand}
    (h : ∀ o, value = some o → o.Typed E) (span : Span) (cells : List Category) :
    (pushResult returns value span).Typed E (E.Known returns) cells fun _ cells' ↦
      cells' = E.push returns cells := by
  cases value with
  | some value =>
    refine Typed.mono (.discard ((h value rfl).checkOrTrap returns cells)) id ?_
    rintro - _ _ ⟨_, -, heq⟩
    exact heq
  | none =>
    show Typed E _ cells (if returns = voidType then _ else _) _
    -- a trap stands for the missing value
    split
    next hvoid => exact .pure fun _ ↦ by rw [hvoid, hE.push_void]
    next => exact .bind .registry fun _ _ ↦ .trap _

/-- The end of a function takes its result. -/
theorem typed_finish (hE : E.Sound) :
    (finish E.returns).Typed E (E.Known E.returns) (E.push E.returns []) fun _ cells' ↦
      cells' = [] := by
  unfold finish
  split
  next hvoid =>
    refine .emit [] fun _ ↦ ?_
    rw [hvoid, hE.push_void]
    exact .retVoid (if_pos hvoid)
  next hvoid =>
    refine .emit [] fun hknown ↦ ?_
    obtain ⟨c, hc⟩ := (hknown.resolve_left hvoid).exists_category
    rw [Ending.push_eq_cons hc]
    exact .ret ((if_neg hvoid).trans hc)

theorem typed_returnValue (hE : E.Sound) {value : Option Operand}
    (h : ∀ o, value = some o → o.Typed E) (span : Span) :
    (returnValue E.returns value span).Typed E (E.Known E.returns) [] fun _ cells' ↦ cells' = [] :=
  .seq (typed_pushResult hE E.returns h span []) fun _ ↦ typed_finish hE

end Lower

/-- A statement in whose types `void` is not written, that declares no temporary, and in which the
name of every callee satisfies a condition. -/
def Stmt.Admissible (p : String → Prop) : Stmt → Prop
  | expr e _ => e.Admissible p
  | declare name type value _ =>
    ¬ IsTemporary name.name ∧ (∀ t, type = some t → t.ArgsStorable) ∧ value.Admissible p
  | ret value _ => ∀ e, value = some e → e.Admissible p

namespace Ending

/-- The functions that a script can call by their names: in the end no constructor has the name. -/
def Callee (E : Ending) (name : String) : Prop :=
  ∀ f, E.symbols.registry.functionNamed? name = some f → f.isConstructor = false

end Ending

/-- A statement starts and ends with an empty stack. -/
theorem Stmt.typed_lower {E : Ending} (hE : E.Sound) (options : CompilerOptions)
    (hoptions : options.allocator = E.allocator) {stmt : Stmt} (h : stmt.Admissible E.Callee) :
    (stmt.lower options E.returns).Typed E (E.Known E.returns) [] fun _ cells' ↦ cells' = [] := by
  have hexpr {e : Expr} (he : e.Admissible E.Callee) : (e.operand options).Typed E :=
    e.typed_operand hE options hoptions he
  refine .seq (.setLine _) fun _ ↦ ?_
  cases stmt with
  | expr e span =>
    exact ((hexpr h).evaluateAndDrop hE []).of_imp fun _ ↦ trivial
  | declare name type value span =>
    obtain ⟨hname, htype, hvalue⟩ := h
    exact (Lower.typed_declareVariable hE name hname htype (hexpr hvalue) span []).of_imp
      fun _ ↦ trivial
  | ret value span =>
    refine Lower.typed_returnValue hE (fun o ho ↦ ?_) span
    obtain ⟨e, he, rfl⟩ := Option.map_eq_some_iff.1 ho
    exact hexpr (h e he)

/-! ### Bodies -/

/-- The code of a body, from an empty stack to an empty stack. The symbols fit the ending again. -/
theorem Callable.sound_lowerBody {E : Ending} (hE : E.Sound) (options : CompilerOptions)
    (hoptions : options.allocator = E.allocator) {f : Callable} (hf : E.Signed f)
    (hreturns : f.returns = E.returns) (hparams : ∀ p ∈ f.params, ¬ IsTemporary p.name)
    {body : List Stmt} (hbody : ∀ stmt ∈ body, stmt.Admissible E.Callee) (span : Span)
    {s : LoweringState} (hs : s.symbols.Fits E)
    (hbefore : ((f.lowerBody options body span).run s).state.Before E) :
    ((f.lowerBody options body span).run s).state.symbols.Fits E ∧
      E.context.Runs ((f.lowerBody options body span).run s).output.instructions [] [] := by
  have hknown : E.Known E.returns := hreturns ▸ hf.returns
  have htyped : Lower.Typed E True [] (f.params.forM (Lower.declareParam span) >>= fun _ ↦
      body.forM (Stmt.lower options f.returns) >>= fun _ ↦
        if endsInReturn body then pure ()
        else Lower.emit (if f.returns = voidType then .retVoid else .trap))
      fun _ cells' ↦ cells' = [] := by
    rw [hreturns]
    refine .seq (.forM_fixed fun p hp ↦ Lower.typed_declareParam hE span p
      fun _ ↦ ⟨hf.params p hp, hparams p hp⟩) fun _ ↦ ?_
    refine .seq (.forM_fixed fun stmt hstmt ↦ (Stmt.typed_lower hE options hoptions
      (hbody stmt hstmt)).of_imp fun _ ↦ hknown) fun _ ↦ ?_
    split
    · exact .pure fun _ ↦ rfl
    · refine .emit [] fun _ ↦ ?_
      split
      next hvoid => exact .retVoid (if_pos hvoid)
      next => exact .trap [] []
  -- a frame without variables fits every ending
  have hfits : LoweringState.Fits { s with frame := .empty, line := 1 } E :=
    ⟨hs, List.nil_prefix, by simp [Frame.find?, Frame.empty], by simp [Frame.find?, Frame.empty]⟩
  obtain ⟨hfits', cells, rfl, hruns⟩ := htyped.sound trivial _ hfits hbefore
  exact ⟨hfits'.symbols, hruns⟩

end StackLowering
