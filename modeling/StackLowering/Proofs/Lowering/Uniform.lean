import StackLowering.Proofs.Lowering.Actions
import StackLowering.Proofs.Lowering.Expr
import StackLowering.Proofs.Lowering.Requests

/-!
# Lowering in two states

Lowering starts in two states that differ in what is registered, the second of which knows all that the
first one knows (`Setting.Related`). A computation agrees in them if it has the same value and writes
the same, and if the same is added to both registries (`Lower.Agree`). So does every operand of a
script: what it looks up is plain, or the type of a value, which is stable (`Operand.Uniform`).

This is the induction behind the theorem that a script may be compiled in any order: a function is
compiled in a state that differs by what other functions have added. Two things must not get in the
way. A name in the script must mean the same in both states, so instances that are still to be created
must not be written by their names (`Setting.Writes`). And a call must not go to a constructor, since
constructors come with instances; this is asked of every call (`Expr.uniform_operand`).

Agreement carries a condition on the value and the registry after it. It says that the types of values
are stable, and it is what the next computation needs: the types of the arguments, of the result and of
the variables are looked up later. The rules for what computations do one after the other hand the
condition on (`Lower.Agree.bind`), and everything that is stable stays so while the registries grow.
-/

namespace StackLowering

/-! ### States -/

/-- Two states that lowering can be in at the same place of a script. -/
structure Setting.Related (W : Setting) (s t : LoweringState) : Prop where
  symbols : W.Below s.symbols t.symbols
  declared : W.Declared s.symbols.registry
  frame : t.frame = s.frame
  line : t.line = s.line
  bindings : ∀ {name : String} {v : LocalVariable}, s.frame.find? name = some v →
    W.Stable s.symbols.registry v.type

namespace Setting.Related

variable {W : Setting} {s t : LoweringState} {type : Fingerprint}

/-- Both states are for the same width of pointers. -/
theorem width_eq (h : W.Related s t) :
    t.symbols.registry.width = s.symbols.registry.width :=
  h.symbols.extend.width_eq

/-- A stable type has the same name in both states. -/
theorem typeName_eq (h : W.Related s t) (htype : W.Stable s.symbols.registry type) :
    t.symbols.registry.typeName type = s.symbols.registry.typeName type :=
  h.symbols.lower.grown.typeName_eq h.symbols.upper.grown h.symbols.extend htype

/-- A stable type has the same layout in both states. -/
theorem layout?_eq (h : W.Related s t) (htype : W.Stable s.symbols.registry type) :
    t.symbols.registry.layout? type = s.symbols.registry.layout? type :=
  h.symbols.lower.grown.layout?_eq h.symbols.upper.grown h.symbols.extend htype

/-- A stable class has the same constructor in both states. -/
theorem constructorOf?_eq (h : W.Related s t) (hW : W.Sound)
    (htype : W.Stable s.symbols.registry type) :
    t.symbols.registry.constructorOf? type = s.symbols.registry.constructorOf? type :=
  h.symbols.lower.grown.constructorOf?_eq h.symbols.upper.grown h.symbols.extend htype hW h.declared

/-- A name that no constructor has means the same function in both states. -/
theorem functionNamed?_eq (h : W.Related s t) {name : String}
    (hname : ∀ owner, name ≠ Callable.constructorName owner) :
    t.symbols.registry.functionNamed? name = s.symbols.registry.functionNamed? name :=
  h.symbols.lower.grown.functionNamed?_eq h.symbols.upper.grown h.symbols.extend h.declared hname

/-- The same conversions are found in both states. -/
theorem find?_eq (h : W.Related s t) {source target : Fingerprint}
    (hsource : W.Stable s.symbols.registry source) (htarget : W.Stable s.symbols.registry target) :
    Conversion.find? t.symbols.registry source target =
      Conversion.find? s.symbols.registry source target := by
  have hclass {type : Fingerprint} (htype : W.Stable s.symbols.registry type) :=
    h.symbols.lower.grown.isSome_class?_eq h.symbols.upper.grown h.symbols.extend htype
  simp only [Conversion.find?, Conversion.handle?, hclass hsource, hclass htarget]

/-- The symbols may go on in step. -/
theorem setSymbols (h : W.Related s t) {symbols symbols' : Symbols}
    (hstep : W.InStep s.symbols t.symbols symbols symbols') :
    W.Related { s with symbols } { t with symbols := symbols' } :=
  ⟨hstep.below, h.declared.mono hstep.extend, h.frame, h.line,
    fun hv ↦ (h.bindings hv).mono hstep.extend⟩

/-- A new variable of a stable type leaves all types in the frame stable. -/
theorem stable_allocate (h : W.Related s t) (htype : W.Stable s.symbols.registry type)
    {name name' : String} {span : Span} {v : LocalVariable}
    (hv : (s.frame.allocate name type span).2.find? name' = some v) :
    W.Stable s.symbols.registry v.type := by
  rw [Frame.find?_allocate] at hv
  split at hv
  · obtain rfl := Option.some.inj hv
    exact htype
  · exact h.bindings hv

/-- The frame may be replaced by one with stable types. -/
theorem setFrame (h : W.Related s t) (frame : Frame)
    (hframe : ∀ {name : String} {v : LocalVariable}, frame.find? name = some v →
      W.Stable s.symbols.registry v.type) :
    W.Related { s with frame } { t with frame } :=
  ⟨h.symbols, h.declared, rfl, h.line, hframe⟩

end Setting.Related

/-! ### Computations that agree -/

/-- Two computations, each from its own state, have the same value and write the same, and the same is
added to both registries. -/
structure Lower.Agree {α : Type} (W : Setting) (s t : LoweringState) (x y : Lower α)
    (post : α → Registry → Prop) : Prop where
  value : (y.run t).value = (x.run s).value
  output : (y.run t).output = (x.run s).output
  related : W.Related (x.run s).state (y.run t).state
  step : W.InStep s.symbols t.symbols (x.run s).state.symbols (y.run t).state.symbols
  post : post (x.run s).value (x.run s).state.symbols.registry

namespace Lower.Agree

variable {α β : Type} {W : Setting} {s t : LoweringState} {x y : Lower α}
  {post : α → Registry → Prop}

/-- Two computations agree if they come to the same, in states that went on in step. -/
theorem of_run {s' t' : LoweringState} {a : α} {output : Output} (hx : x.run s = ⟨a, s', output⟩)
    (hy : y.run t = ⟨a, t', output⟩) (h : W.Related s' t')
    (hstep : W.InStep s.symbols t.symbols s'.symbols t'.symbols) (ha : post a s'.symbols.registry) :
    Agree W s t x y post := by
  constructor <;> simp only [hx, hy] <;> assumption

/-- A value is returned in both states, and what is asked of it holds in the first. -/
theorem pure (h : W.Related s t) {a : α} (ha : post a s.symbols.registry) :
    Agree W s t (pure a) (pure a) post :=
  ⟨rfl, rfl, h, .refl h.symbols, ha⟩

/-- The second computations start where the first ones have got to. -/
theorem bind {f g : α → Lower β} {mid : α → Registry → Prop} {post : β → Registry → Prop}
    (hx : Agree W s t x y mid)
    (hf : ∀ a s₁ t₁, W.Related s₁ t₁ → s.symbols.registry.Extends s₁.symbols.registry →
      mid a s₁.symbols.registry → Agree W s₁ t₁ (f a) (g a) post) :
    Agree W s t (x >>= f) (y >>= g) post := by
  have hnext := hf _ _ _ hx.related hx.step.extend hx.post
  constructor
  · rw [value_bind, value_bind, hx.value]
    exact hnext.value
  · rw [output_bind, output_bind, hx.value, hx.output, hnext.output]
  · rw [state_bind, state_bind, hx.value]
    exact hnext.related
  · rw [state_bind, state_bind, hx.value]
    exact hx.step.trans hnext.step
  · rw [value_bind, state_bind]
    exact hnext.post

/-- The values may be thrown away. -/
theorem discard (hx : Agree W s t x y post) :
    Agree W s t (discard x) (discard y) fun _ _ ↦ True :=
  hx.bind fun _ _ _ h _ _ ↦ .pure h trivial

/-- A loop whose body agrees wherever the states have got to. -/
theorem forM {l : List α} {f : α → Lower Unit} (h : W.Related s t)
    (hf : ∀ a ∈ l, ∀ s₁ t₁, W.Related s₁ t₁ → s.symbols.registry.Extends s₁.symbols.registry →
      Agree W s₁ t₁ (f a) (f a) fun _ _ ↦ True) :
    Agree W s t (l.forM f) (l.forM f) fun _ _ ↦ True := by
  induction l generalizing s t with
  | nil => exact .pure h trivial
  | cons a l ih =>
    show Agree W s t (f a >>= fun _ ↦ l.forM f) (f a >>= fun _ ↦ l.forM f) _
    refine (hf a List.mem_cons_self s t h (.refl _)).bind fun _ s₁ t₁ h₁ hext _ ↦ ?_
    exact ih h₁ fun b hb s₂ t₂ h₂ hext' ↦ hf b (List.mem_cons_of_mem a hb) s₂ t₂ h₂ (hext.trans hext')

/-! #### State -/

/-- Two computations may depend on the registries that they find. -/
theorem registry_bind {f g : Registry → Lower β} {post : β → Registry → Prop}
    (h : Agree W s t (f s.symbols.registry) (g t.symbols.registry) post) :
    Agree W s t (registry >>= f) (registry >>= g) post :=
  ⟨h.value, h.output, h.related, h.step, h.post⟩

/-- Both computations read the same width. -/
theorem width (h : W.Related s t) : Agree W s t width width fun _ _ ↦ True :=
  ⟨h.width_eq, rfl, h, .refl h.symbols, trivial⟩

/-- Both computations go to the same line. -/
theorem setLine (h : W.Related s t) (line : UInt32) :
    Agree W s t (setLine line) (setLine line) fun _ _ ↦ True :=
  ⟨rfl, rfl, ⟨h.symbols, h.declared, h.frame, rfl, h.bindings⟩, .refl h.symbols, trivial⟩

/-- A temporary is declared in both frames. -/
theorem temporary (h : W.Related s t) (name : String) {type : Fingerprint}
    (htype : W.Stable s.symbols.registry type) :
    Agree W s t (temporary name type) (temporary name type) fun _ _ ↦ True := by
  have hrun (s : LoweringState) : (Lower.temporary name type).run s =
      ⟨(s.frame.temporary name type).1, { s with frame := (s.frame.temporary name type).2 }, .empty⟩ :=
    rfl
  have hrelated := h.setFrame (s.frame.temporary name type).2 fun {name' v} hv ↦ by
    unfold Frame.temporary at hv
    cases hfind : s.frame.find? name with
    | some v₀ =>
      rw [hfind] at hv
      exact h.bindings hv
    | none =>
      rw [hfind] at hv
      exact h.stable_allocate htype hv
  exact .of_run (hrun s) (by rw [hrun, h.frame]) hrelated (.refl h.symbols) trivial

/-! #### Output -/

/-- An instruction is written on the same line in both states. -/
theorem emit (h : W.Related s t) (i : SymbolicInstruction) :
    Agree W s t (emit i) (emit i) fun _ _ ↦ True := by
  refine ⟨rfl, ?_, h, .refl h.symbols, trivial⟩
  show Output.mk [⟨t.line, i⟩] _ _ = Output.mk [⟨s.line, i⟩] _ _
  rw [h.line]

/-- A run of instructions is written on the same line in both states. -/
theorem emitAll (h : W.Related s t) (is : List SymbolicInstruction) :
    Agree W s t (emitAll is) (emitAll is) fun _ _ ↦ True := by
  refine ⟨rfl, ?_, h, .refl h.symbols, trivial⟩
  show Output.mk (is.map (⟨t.line, ·⟩)) _ _ = Output.mk (is.map (⟨s.line, ·⟩)) _ _
  rw [h.line]

theorem report (h : W.Related s t) (error : CompileError) :
    Agree W s t (report error) (report error) fun _ _ ↦ True :=
  ⟨rfl, rfl, h, .refl h.symbols, trivial⟩

theorem annotate (h : W.Related s t) (node : NodeId) (type : Fingerprint) :
    Agree W s t (annotate node type) (annotate node type) fun _ _ ↦ True :=
  ⟨rfl, rfl, h, .refl h.symbols, trivial⟩

/-- An error is reported in both states, with a trap in the place of the value. -/
theorem trap (h : W.Related s t) (error : CompileError) :
    Agree W s t (trap error) (trap error) fun _ _ ↦ True :=
  (report h error).bind fun _ _ _ h _ _ ↦ emit h .trap

end Lower.Agree

/-- Two computations that may fail agree; something is known of the value if they do not fail. -/
abbrev Attempt.Agree {α : Type} (W : Setting) (s t : LoweringState) (x y : Attempt α)
    (post : α → Registry → Prop) : Prop :=
  Lower.Agree W s t x.run y.run fun v r ↦ ∀ a, v = .ok a → post a r

namespace Attempt.Agree

variable {α β : Type} {W : Setting} {s t : LoweringState} {x y : Attempt α}
  {post : α → Registry → Prop}

theorem pure (h : W.Related s t) {a : α} (ha : post a s.symbols.registry) :
    Agree W s t (pure a) (pure a) post :=
  Lower.Agree.pure h fun _ heq ↦ Except.ok.inj heq ▸ ha

/-- A failure has no value, so that anything may be asked of it. -/
theorem throw (h : W.Related s t) (error : CompileError) :
    Agree W s t (throw error) (throw error) post :=
  Lower.Agree.pure h fun _ heq ↦ nomatch heq

/-- If the first computations fail, they do so for the same reason, and nothing follows in either
state. -/
theorem bind {f g : α → Attempt β} {mid : α → Registry → Prop} {post : β → Registry → Prop}
    (hx : Agree W s t x y mid)
    (hf : ∀ a s₁ t₁, W.Related s₁ t₁ → s.symbols.registry.Extends s₁.symbols.registry →
      mid a s₁.symbols.registry → Agree W s₁ t₁ (f a) (g a) post) :
    Agree W s t (x >>= f) (y >>= g) post := by
  refine Lower.Agree.bind (f := fun v ↦ (ExceptT.bindCont f v)) hx fun v s₁ t₁ h hext hmid ↦ ?_
  cases v with
  | ok a => exact hf a s₁ t₁ h hext (hmid a rfl)
  | error error => exact Lower.Agree.pure h fun _ heq ↦ nomatch heq

/-- Computations that cannot fail agree also where others might. -/
theorem lift {x y : Lower α} (hx : Lower.Agree W s t x y post) :
    Agree W s t (liftM x) (liftM y) post :=
  Lower.Agree.bind hx fun _ _ _ h _ ha ↦ Lower.Agree.pure h fun _ heq ↦ Except.ok.inj heq ▸ ha

/-- Two computations may depend on the states that they find. -/
theorem get_bind {f g : LoweringState → Attempt β} {post : β → Registry → Prop}
    (h : Agree W s t (f s) (g t) post) :
    Agree W s t (liftM Lower.get >>= f) (liftM Lower.get >>= g) post :=
  ⟨h.value, h.output, h.related, h.step, h.post⟩

/-- Two attempts may depend on the registries that they find. -/
theorem registry_bind {f g : Registry → Attempt β} {post : β → Registry → Prop}
    (h : Agree W s t (f s.symbols.registry) (g t.symbols.registry) post) :
    Agree W s t (liftM Lower.registry >>= f) (liftM Lower.registry >>= g) post :=
  ⟨h.value, h.output, h.related, h.step, h.post⟩

/-- Types are resolved in both states. -/
theorem resolve (h : W.Related s t) {x : Resolution α}
    (hx : x.Agree W s.symbols t.symbols x post) :
    Agree W s t (Attempt.resolve x) (Attempt.resolve x) post :=
  ⟨hx.value, rfl, h.setSymbols hx.step, hx.step, hx.post⟩

end Attempt.Agree

/-! ### Operands -/

/-- An operand that agrees in every pair of states, in both ways of lowering it. The types that it
tells are stable. -/
structure Operand.Uniform (W : Setting) (o : Operand) : Prop where
  infer {s t : LoweringState} : W.Related s t →
    Attempt.Agree W s t o.infer o.infer fun info r ↦ W.Stable r info.type
  check {s t : LoweringState} {expected : Fingerprint} : W.Related s t →
    W.Stable s.symbols.registry expected →
      Attempt.Agree W s t (o.check expected) (o.check expected) fun info r ↦ W.Stable r info.type

namespace Operand

variable {W : Setting} {s t : LoweringState} {o : Operand} {span : Span} {expected : Fingerprint}

/-- In place of a value that cannot be had, the expected type is told. It is stable by assumption, and
stays so. -/
theorem Uniform.checkOrTrap (ho : o.Uniform W) (h : W.Related s t)
    (hexpected : W.Stable s.symbols.registry expected) :
    Lower.Agree W s t (o.checkOrTrap expected) (o.checkOrTrap expected)
      fun info r ↦ W.Stable r info.type := by
  refine .bind (ho.check h hexpected) fun v s₁ t₁ h₁ hext hinfo ↦ ?_
  cases v with
  | ok info => exact .pure h₁ (hinfo info rfl)
  | error error =>
    exact (Lower.Agree.trap h₁ error).bind fun _ s₂ t₂ h₂ hext' _ ↦
      .pure h₂ (hexpected.mono (hext.trans hext'))

/-- Only a value that can be had tells its type. -/
theorem Uniform.inferOrTrap (ho : o.Uniform W) (h : W.Related s t) :
    Lower.Agree W s t o.inferOrTrap o.inferOrTrap
      fun v r ↦ ∀ info, v = some info → W.Stable r info.type := by
  refine .bind (ho.infer h) fun v s₁ t₁ h₁ _ hinfo ↦ ?_
  cases v with
  | ok info =>
    refine .pure h₁ fun info' heq ↦ ?_
    obtain rfl := Option.some.inj heq
    exact hinfo _ rfl
  | error error =>
    exact (Lower.Agree.trap h₁ error).bind fun _ _ _ h₂ _ _ ↦ .pure h₂ nofun

/-- Whether a value is dropped depends on its type, which is the same in both states. -/
theorem Uniform.evaluateAndDrop (ho : o.Uniform W) (h : W.Related s t) :
    Lower.Agree W s t o.evaluateAndDrop o.evaluateAndDrop fun _ _ ↦ True := by
  refine (ho.inferOrTrap h).bind fun v s₁ t₁ h₁ _ _ ↦ ?_
  cases v with
  | none => exact .pure h₁ trivial
  | some info =>
    show Lower.Agree W s₁ t₁ (if info.type = voidType then _ else _)
      (if info.type = voidType then _ else _) _
    split
    · exact .pure h₁ trivial
    · exact .emit h₁ .pop

/-- Between stable types the same conversion is found, or it is refused with the same words. -/
theorem agree_convert (h : W.Related s t) (span : Span) {info : ValueInfo}
    (hexpected : W.Stable s.symbols.registry expected)
    (hinfo : W.Stable s.symbols.registry info.type) :
    Attempt.Agree W s t (convert span expected info) (convert span expected info)
      fun info r ↦ W.Stable r info.type := by
  unfold convert
  split
  · exact .pure h hinfo
  · refine .registry_bind ?_
    rw [h.find?_eq hinfo hexpected, h.width_eq, h.typeName_eq hinfo, h.typeName_eq hexpected]
    split
    · exact .bind (.lift (.emitAll h _)) fun _ _ _ h₁ hext _ ↦ .pure h₁ (hexpected.mono hext)
    · exact .throw h _

/-- What agrees in inferring a type agrees in checking against one. -/
theorem uniform_ofInference {x : Attempt ValueInfo}
    (hx : ∀ {s t : LoweringState}, W.Related s t →
      Attempt.Agree W s t x x fun info r ↦ W.Stable r info.type) :
    (ofInference span x).Uniform W := by
  have hinfer {s t : LoweringState} (h : W.Related s t) :
      Attempt.Agree W s t (ofInference span x).infer (ofInference span x).infer
        fun info r ↦ W.Stable r info.type :=
    .bind (.lift (.setLine h _)) fun _ _ _ h₁ _ _ ↦ hx h₁
  refine ⟨hinfer, fun h hexpected ↦ .bind (hinfer h) fun info s₁ t₁ h₁ hext hinfo ↦ ?_⟩
  exact agree_convert h₁ span (hexpected.mono hext) hinfo

/-- The types of literals are primitive, and so they are stable. -/
theorem uniform_literal (hW : W.Sound) (value : Literal) (span : Span) :
    (literal value span).Uniform W := by
  have htype (r : Registry) : W.Stable r value.type := by
    obtain ⟨p, -, heq, -⟩ := value.category?_constant
    rw [← heq]
    exact hW.stable_primitive r p
  have hplain : (ofInference span do
      Lower.emit (.const value.constant)
      return .computed value.type).Uniform W :=
    uniform_ofInference fun h ↦ .bind (.lift (.emit h _)) fun _ _ _ h₁ _ _ ↦ .pure h₁ (htype _)
  refine ⟨hplain.infer, fun h hexpected ↦ .bind (.lift (.width h)) fun width s₁ t₁ h₁ hext _ ↦ ?_⟩
  split
  · exact .bind (.lift (.emit h₁ _)) fun _ _ _ h₂ hext' _ ↦
      .pure h₂ (hexpected.mono (hext.trans hext'))
  · exact hplain.check h₁ (hexpected.mono hext)

/-- A variable has a stable type, since all types in a frame are stable. -/
theorem uniform_var (name : String) (span : Span) : (var name span).Uniform W := by
  refine uniform_ofInference fun {s t} h ↦ .get_bind ?_
  rw [h.frame]
  split
  next v hv =>
    exact .bind (.lift (.emit h _)) fun _ _ _ h₁ hext _ ↦ .pure h₁ ((h.bindings hv).mono hext)
  next => exact .throw h _

/-- Parentheses may stand around an operand. -/
theorem Uniform.paren (ho : o.Uniform W) (span : Span) : (o.paren span).Uniform W :=
  ⟨fun h ↦ .bind (.lift (.setLine h _)) fun _ _ _ h₁ _ _ ↦ ho.infer h₁, ho.check⟩

end Operand

/-! ### Arguments -/

namespace Lower

variable {W : Setting} {s t : LoweringState} {span : Span}

/-- A missing argument is supplied in the same way: whether its default can be held depends on a stable
type. -/
theorem agree_supply (h : W.Related s t) (span : Span) {param : Param}
    (hparam : W.Stable s.symbols.registry param.type) :
    Agree W s t (supply span param) (supply span param) fun _ _ ↦ True := by
  unfold supply
  cases param.default? with
  | none => exact .emit h .trap
  | some value =>
    refine .registry_bind ?_
    rw [h.layout?_eq hparam, h.typeName_eq hparam]
    split
    · exact .emit h _
    · exact .trap h _

/-- The missing arguments are supplied in the same way, one after the other. -/
theorem agree_supplyMissing (h : W.Related s t) (shortfall : CompileError) (span : Span)
    {missing : List Param} (hparams : ∀ p ∈ missing, W.Stable s.symbols.registry p.type) :
    Agree W s t (supplyMissing shortfall span missing) (supplyMissing shortfall span missing)
      fun _ _ ↦ True := by
  have hsupply {l : List Param} (hl : l ⊆ missing) {s₁ t₁ : LoweringState} (h₁ : W.Related s₁ t₁)
      (hext : s.symbols.registry.Extends s₁.symbols.registry) :
      Agree W s₁ t₁ (l.forM (supply span)) (l.forM (supply span)) fun _ _ ↦ True :=
    .forM h₁ fun p hp s₂ t₂ h₂ hext' ↦
      agree_supply h₂ span ((hparams p (hl hp)).mono (hext.trans hext'))
  refine (hsupply (List.takeWhile_prefix _).subset h (.refl _)).bind fun _ s₁ t₁ h₁ hext _ ↦ ?_
  have hsubset := (List.dropWhile_suffix (l := missing) (·.default?.isSome)).subset
  generalize missing.dropWhile (·.default?.isSome) = rest at hsubset
  cases rest with
  | nil => exact .pure h₁ trivial
  | cons p rest =>
    exact (Agree.report h₁ shortfall).bind fun _ s₂ t₂ h₂ hext' _ ↦
      hsupply hsubset h₂ (hext.trans hext')

/-- Arguments are bound to parameters of stable types. -/
theorem agree_bindArguments (h : W.Related s t) (options : CompilerOptions) {params : List Param}
    (hparams : ∀ p ∈ params, W.Stable s.symbols.registry p.type) {args : List Operand}
    (hargs : ∀ arg ∈ args, arg.Uniform W) (span : Span) :
    Agree W s t (bindArguments options params args span) (bindArguments options params args span)
      fun _ _ ↦ True := by
  refine .bind (.forM h fun (param, arg) hmem s₁ t₁ h₁ hext ↦ ?_) fun _ s₁ t₁ h₁ hext _ ↦ ?_
  · obtain ⟨hparam, harg⟩ := List.of_mem_zip hmem
    exact .discard ((hargs arg harg).checkOrTrap h₁ ((hparams param hparam).mono hext))
  refine .bind (agree_supplyMissing h₁ _ span fun p hp ↦
    (hparams p (List.mem_of_mem_drop hp)).mono hext) fun _ s₂ t₂ h₂ _ _ ↦ ?_
  have hextra : ∀ arg ∈ args.drop params.length, arg.Uniform W :=
    fun arg harg ↦ hargs arg (List.mem_of_mem_drop harg)
  unfold rejectExcess
  split
  · exact .pure h₂ trivial
  next extra _ =>
    refine (Agree.report h₂ _).bind fun _ s₃ t₃ h₃ _ _ ↦ ?_
    split
    · exact .forM h₃ fun arg harg _ _ h₄ _ ↦ (hextra arg harg).evaluateAndDrop h₄
    · exact .pure h₃ trivial

end Lower

/-! ### Calls -/

variable {W : Setting} {s t : LoweringState} {span : Span} {options : CompilerOptions}

/-- A call finds the same function, unless its name is that of a constructor. -/
theorem Operand.uniform_call (hW : W.Sound) (options : CompilerOptions) {callee : Option String}
    (hcallee : ∀ owner, callee.getD anonymousCallee ≠ Callable.constructorName owner)
    (calleeSpan : Span) {args : List Operand} (hargs : ∀ arg ∈ args, arg.Uniform W) (span : Span) :
    (call options callee calleeSpan args span).Uniform W := by
  refine uniform_ofInference fun {s t} h ↦ .registry_bind ?_
  rw [h.functionNamed?_eq hcallee]
  split
  next => exact .throw h _
  next f hf =>
    obtain ⟨hid, -⟩ := h.symbols.lower.grown.indexed.functionNamed?_eq_some_iff.1 hf
    obtain ⟨hparams, hreturns⟩ := h.symbols.lower.grown.stable_signature hW h.declared hid
    split
    next => exact .throw h _
    next argc _ =>
      refine .bind (.lift (Lower.agree_bindArguments h options hparams hargs span))
        fun _ s₁ t₁ h₁ hext _ ↦ ?_
      exact .bind (.lift (.emit h₁ _)) fun _ s₂ t₂ h₂ hext' _ ↦
        .pure h₂ (hreturns.mono (hext.trans hext'))

/-! ### Constructions -/

/-- What a construction makes is known in every state: its types are written in the script, its class
is stable, and its instance is requested by the script. -/
structure Construction.Supported (W : Setting) (r : Registry) (shape : Construction) : Prop where
  types : ∀ a ∈ applicationsOfTypes shape.types, W.Writes a
  object : ∀ id, shape = .object id → W.Stable r id
  template : ∀ id typeArgs, shape = .template id typeArgs →
    ∃ t : TemplateEntry, t.id = id ∧
      ∀ ids, identities? W.base typeArgs = some ids → ⟨t, ids⟩ ∈ W.requests

/-- Fewer types apply fewer templates. -/
theorem applicationsOfTypes_subset {ws ws' : List TypeExpr} (h : ws ⊆ ws') :
    applicationsOfTypes ws ⊆ applicationsOfTypes ws' := by
  have hflat (ws : List TypeExpr) : applicationsOfTypes ws = ws.flatMap TypeExpr.applications := by
    induction ws with
    | nil => rfl
    | cons w ws ih => rw [applicationsOfTypes, ih, List.flatMap_cons]
  intro a ha
  rw [hflat, List.mem_flatMap] at ha ⊢
  obtain ⟨w, hw, ha⟩ := ha
  exact ⟨w, h hw, ha⟩

/-- What a construction makes is the same in both states. -/
theorem Construction.supported_classify (hW : W.Sound) (h : W.Related s t) {callee : Option String}
    {typeArgs : Option (List TypeExpr)} (hwrites : ∀ a ∈ applicationsOfNew callee typeArgs, W.Writes a)
    (args : Option (List Operand)) :
    classify t.symbols.registry t.frame callee typeArgs args =
        classify s.symbols.registry s.frame callee typeArgs args ∧
      (classify s.symbols.registry s.frame callee typeArgs args).Supported W s.symbols.registry := by
  have htypes : ∀ a ∈ applicationsOfTypes (classify s.symbols.registry s.frame callee typeArgs args).types,
      W.Writes a := fun a ha ↦
    hwrites a (List.mem_append_right _ (applicationsOfTypes_subset (types_classify_subset _ _ _ _ _) ha))
  rw [h.frame]
  cases callee with
  | none => exact ⟨rfl, htypes, nofun, nofun⟩
  | some name =>
    have hname := hwrites ⟨name, typeArgs.getD []⟩ (List.mem_append_left _ (by simp))
    revert htypes
    unfold classify
    dsimp only
    cases bufferShape? name typeArgs args with
    | some shape => exact fun htypes ↦ ⟨rfl, htypes, nofun, nofun⟩
    | none =>
      unfold Meaning.ofName
      cases s.frame.find? name with
      | some v => exact fun htypes ↦ ⟨rfl, htypes, nofun, nofun⟩
      | none =>
        rcases h.symbols.typeNamed?_eq hW hname.plain with
          ⟨-, hs, ht⟩ | ⟨e₀, e, e', hbase, hs, ht, hb, hb'⟩
        · rw [hs, ht]
          dsimp only
          -- a function cannot be constructed
          cases s.symbols.registry.functionNamed? name <;>
            cases t.symbols.registry.functionNamed? name <;>
              exact fun htypes ↦ ⟨rfl, htypes, nofun, nofun⟩
        · rw [hs, ht]
          cases e₀ with
          | primitive p =>
            cases hb
            cases hb'
            exact fun htypes ↦ ⟨rfl, htypes, nofun, nofun⟩
          | template template =>
            cases hb
            cases hb'
            refine fun htypes ↦ ⟨rfl, htypes, nofun, fun id typeArgs' heq ↦ ?_⟩
            obtain ⟨rfl, rfl⟩ := Construction.template.inj heq
            refine ⟨template, rfl, fun ids hids ↦ hname.mem _ ?_⟩
            simp only [Registry.request?, hbase, hids, Option.map_some]
          | object c =>
            obtain ⟨c₁, rfl, hid⟩ := hb.exists_object
            obtain ⟨c₂, rfl, hid'⟩ := hb'.exists_object
            have hreg : (s.symbols.registry.type? c₁.id).isSome := Option.isSome_of_mem
              (h.symbols.lower.grown.indexed.typeNamed?_eq_some_iff.1 hs).1
            simp only [TypeEntry.meaning, hid', ← hid]
            refine fun htypes ↦ ⟨trivial, htypes, fun id heq ↦ ?_, nofun⟩
            obtain rfl := Construction.object.inj heq
            exact .inl hreg

/-- A class is laid out in both states. -/
theorem Attempt.agree_layOutClass (hW : W.Sound) (h : W.Related s t) {id : Fingerprint}
    (hid : W.Stable s.symbols.registry id) (span : Span) :
    Attempt.Agree W s t (Attempt.layOutClass id span) (Attempt.layOutClass id span)
      fun _ _ ↦ True := by
  have hrun := Attempt.run_layOutClass id span s
  have hrun' := Attempt.run_layOutClass id span t
  have hlayout := h.symbols.lower.grown.layOutClass_eq h.symbols.upper.grown hW h.symbols.extend hid
  rcases hlayout with ⟨error, hs, ht⟩ | ⟨size, r₁, r₁', K, hs, ht, hadds, hadds', hr₁, hr₁'⟩
  · rw [hs] at hrun
    rw [ht] at hrun'
    exact .of_run hrun hrun' h (.refl h.symbols) fun _ _ ↦ trivial
  · rw [hs] at hrun
    rw [ht] at hrun'
    have hstep : W.InStep s.symbols t.symbols { s.symbols with registry := r₁ }
        { t.symbols with registry := r₁' } :=
      ⟨⟨⟨hr₁, h.symbols.lower.faithful.setRegistry fun _ ↦ hadds.extend.type?_isSome⟩,
        ⟨hr₁', h.symbols.upper.faithful.setRegistry fun _ ↦ hadds'.extend.type?_isSome⟩,
        hadds.mono h.symbols.extend hadds'⟩, K, hadds, hadds'⟩
    exact .of_run hrun hrun' (h.setSymbols hstep) hstep fun _ _ ↦ trivial

/-- The count of a planned buffer is that of the construction, and the constructor of a planned object
has parameters of stable types. -/
def ConstructionPlan.Supported (W : Setting) (shape : Construction) (plan : ConstructionPlan)
    (r : Registry) : Prop :=
  match plan with
  | .buffer _ count => ∃ element, shape = .buffer element count
  | .object _ constructor? => ∀ c, constructor? = some c → ∀ p ∈ c.params, W.Stable r p.type

namespace ConstructionPlan

/-- A construction of a stable class is planned in the same way. -/
theorem agree_ofClass (hW : W.Sound) (h : W.Related s t) {id : Fingerprint}
    (hid : W.Stable s.symbols.registry id) (span : Span) (shape : Construction) :
    Attempt.Agree W s t (ofClass id span) (ofClass id span) (Supported W shape) := by
  refine .bind (Attempt.agree_layOutClass hW h hid span) fun size s₁ t₁ h₁ hext _ ↦ ?_
  refine .registry_bind ?_
  rw [h₁.constructorOf?_eq hW (hid.mono hext)]
  split
  next => exact .pure h₁ nofun
  next c hc =>
    split
    next =>
      refine .pure h₁ fun c' hc' ↦ ?_
      obtain rfl := Option.some.inj hc'
      obtain ⟨k, -, hk⟩ := Option.bind_eq_some_iff.1 hc
      exact (h₁.symbols.lower.grown.stable_signature hW h₁.declared hk).1
    next => exact .throw h₁ _

/-- The elements of a buffer have the same size, since their type is resolved to the same. -/
theorem agree_elementSize (hW : W.Sound) (h : W.Related s t) {element : BufferElement}
    (hwrites : ∀ type, element = .declared type → ∀ a ∈ type.applications, W.Writes a) :
    Attempt.Agree W s t (elementSize element) (elementSize element) fun _ _ ↦ True := by
  cases element with
  | codeUnit => exact .pure h trivial
  | declared type =>
    have htype := type.agree_resolve hW (hwrites type rfl) h.symbols
    refine .bind (.resolve h htype) fun id s₁ t₁ h₁ _ hid ↦ .registry_bind ?_
    have hstable : W.Stable s₁.symbols.registry id := .inl hid.1
    rw [h₁.layout?_eq hstable, h₁.typeName_eq hstable]
    split
    · exact .pure h₁ trivial
    · exact .throw h₁ _

/-- A construction that is supported is planned in the same way in both states. -/
theorem agree_ofConstruction (hW : W.Sound) (h : W.Related s t) (span : Span) {shape : Construction}
    (hshape : shape.Supported W s.symbols.registry) :
    Attempt.Agree W s t (ofConstruction span shape) (ofConstruction span shape)
      (Supported W shape) := by
  cases shape with
  | buffer element count =>
    have helement (type : TypeExpr) (heq : element = .declared type) :
        ∀ a ∈ type.applications, W.Writes a := by
      subst heq
      exact fun a ha ↦ hshape.types a (List.mem_append_left _ ha)
    exact .bind (agree_elementSize hW h helement) fun size s₁ t₁ h₁ _ _ ↦ .pure h₁ ⟨element, rfl⟩
  | object id => exact agree_ofClass hW h (hshape.object id rfl) span _
  | template id typeArgs =>
    obtain ⟨template, rfl, hmem⟩ := hshape.template id typeArgs rfl
    have htypes := agree_resolveTypes hW typeArgs hshape.types h.symbols
    refine .bind (.resolve h htypes) fun ids s₁ t₁ h₁ _ hids ↦ ?_
    have hinstance := Resolution.Agree.instantiate h₁.symbols hW (hmem ids hids.2) hids.1 span
    refine .bind (.resolve h₁ hinstance) fun id s₂ t₂ h₂ _ hid ↦ ?_
    exact agree_ofClass hW h₂ (.inl hid.2) span _
  | unsupported => exact .throw h _

/-- The temporaries of a buffer have the same slots in both states. -/
theorem agree_lowerBuffer (hW : W.Sound) (h : W.Related s t) (options : CompilerOptions)
    (size : UInt32) {count : Operand} (hcount : count.Uniform W) :
    Lower.Agree W s t (lowerBuffer options size count) (lowerBuffer options size count)
      fun _ _ ↦ True := by
  have haddress (r : Registry) : W.Stable r addressType := hW.stable_primitive r .uintptr
  refine (Lower.Agree.width h).bind fun width s₁ t₁ h₁ _ _ ↦ ?_
  refine (Lower.Agree.temporary h₁ countTemporary (haddress _)).bind fun countSlot s₂ t₂ h₂ _ _ ↦ ?_
  refine (Lower.Agree.temporary h₂ addressTemporary (haddress _)).bind
    fun addressSlot s₃ t₃ h₃ _ _ ↦ ?_
  refine (Lower.Agree.emit h₃ _).bind fun _ s₄ t₄ h₄ _ _ ↦ ?_
  refine (Lower.Agree.emit h₄ _).bind fun _ s₅ t₅ h₅ _ _ ↦ ?_
  refine (hcount.checkOrTrap h₅ (haddress _)).discard.bind fun _ s₆ t₆ h₆ _ _ ↦ ?_
  refine (Lower.Agree.emitAll h₆ _).bind fun _ s₇ t₇ h₇ _ _ ↦ ?_
  exact (Lower.Agree.emitAll h₇ _).bind fun _ s₈ t₈ h₈ _ _ ↦ .emitAll h₈ _

/-- An object is filled by the same constructor in both states. -/
theorem agree_lowerObject (h : W.Related s t) (options : CompilerOptions) (size : UInt32)
    {constructor? : Option Callable} {args : List Operand} (hargs : ∀ arg ∈ args, arg.Uniform W)
    (hc : ∀ c, constructor? = some c → ∀ p ∈ c.params, W.Stable s.symbols.registry p.type)
    (span : Span) :
    Lower.Agree W s t (lowerObject options size constructor? args span)
      (lowerObject options size constructor? args span) fun _ _ ↦ True := by
  refine (Lower.Agree.width h).bind fun width s₁ t₁ h₁ hext₁ _ ↦ ?_
  refine (Lower.Agree.emit h₁ _).bind fun _ s₂ t₂ h₂ hext₂ _ ↦ ?_
  refine (Lower.Agree.emit h₂ _).bind fun _ s₃ t₃ h₃ hext₃ _ ↦ ?_
  cases constructor? with
  | none => exact .pure h₃ trivial
  | some c =>
    have hparams : ∀ p ∈ c.params, W.Stable s₃.symbols.registry p.type :=
      fun p hp ↦ (hc c rfl p hp).mono ((hext₁.trans hext₂).trans hext₃)
    exact (Lower.agree_bindArguments h₃ options hparams hargs span).bind fun _ _ _ h₄ _ _ ↦ .emit h₄ _

end ConstructionPlan

/-- A construction agrees if the script writes the types that it names. Its plan is the same, and what
is lowered after that follows the plan. -/
theorem Operand.uniform_construct (hW : W.Sound) (options : CompilerOptions) (node : NodeId)
    {callee : Option String} {typeArgs : Option (List TypeExpr)}
    (hwrites : ∀ a ∈ applicationsOfNew callee typeArgs, W.Writes a) {args : Option (List Operand)}
    (hargs : ∀ arg ∈ args.getD [], arg.Uniform W) (span : Span) :
    (construct options node callee typeArgs args span).Uniform W := by
  have haddress (r : Registry) : W.Stable r addressType := hW.stable_primitive r .uintptr
  refine uniform_ofInference fun {s t} h ↦ .bind (.lift (.annotate h _ _)) fun _ s₁ t₁ h₁ _ _ ↦ ?_
  refine .get_bind ?_
  obtain ⟨heq, hshape⟩ := Construction.supported_classify hW h₁ hwrites args
  rw [heq]
  generalize hclassify : Construction.classify s₁.symbols.registry s₁.frame callee typeArgs args = shape
    at hshape
  refine .bind (.lift (ConstructionPlan.agree_ofConstruction hW h₁ span hshape))
    fun plan s₂ t₂ h₂ _ hplan ↦ ?_
  cases plan with
  | error error => exact .bind (.lift (.trap h₂ error)) fun _ _ _ h₃ _ _ ↦ .pure h₃ (haddress _)
  | ok plan =>
    have hsupported := hplan plan rfl
    have hlower : Lower.Agree W s₂ t₂ (plan.lower options (args.getD []) span)
        (plan.lower options (args.getD []) span) fun _ _ ↦ True := by
      cases plan with
      | buffer size count =>
        obtain ⟨element, rfl⟩ := hsupported
        have hcount : count.Uniform W :=
          hargs count (by simp [Construction.classify_eq_buffer hclassify])
        exact ConstructionPlan.agree_lowerBuffer hW h₂ options size hcount
      | object size constructor? =>
        exact ConstructionPlan.agree_lowerObject h₂ options size hargs hsupported span
    exact .bind (.lift hlower) fun _ _ _ h₃ _ _ ↦ .pure h₃ (haddress _)

/-! ### Expressions -/

mutual

/-- An expression of the script agrees in every pair of states. -/
theorem Expr.uniform_operand (hW : W.Sound) : (e : Expr) → (∀ a ∈ e.applications, W.Writes a) →
    (∀ name, .call name ∈ e.uses → ∀ owner, name ≠ Callable.constructorName owner) →
      (e.operand options).Uniform W
  | .literal value span, _, _ => Operand.uniform_literal hW value span
  | .var name span, _, _ => Operand.uniform_var name.name span
  | .call callee args span, hwrites, hcalls =>
    Operand.uniform_call hW options (hcalls _ List.mem_cons_self) callee.span
      (uniform_operandsOfList hW args hwrites fun name hname ↦
        hcalls name (List.mem_cons_of_mem _ hname)) span
  | .construct node _ _ args span, hwrites, hcalls =>
    Operand.uniform_construct hW options node (fun a ha ↦ hwrites a (List.mem_append_left _ ha))
      (uniform_operandsOfArgs hW args (fun a ha ↦ hwrites a (List.mem_append_right _ ha)) hcalls) span
  | .paren inner span, hwrites, hcalls => (inner.uniform_operand hW hwrites hcalls).paren span
termination_by structural e => e

/-- Expressions in a list agree one by one. -/
theorem uniform_operandsOfList (hW : W.Sound) : (es : List Expr) →
    (∀ a ∈ applicationsOfList es, W.Writes a) →
    (∀ name, .call name ∈ usesOfList es → ∀ owner, name ≠ Callable.constructorName owner) →
      ∀ arg ∈ operandsOfList options es, arg.Uniform W
  | [], _, _ => by simp [operandsOfList]
  | e :: es, hwrites, hcalls => by
    rw [operandsOfList]
    intro arg harg
    rcases List.mem_cons.1 harg with rfl | harg
    · exact e.uniform_operand hW (fun a ha ↦ hwrites a (List.mem_append_left _ ha))
        fun name hname ↦ hcalls name (List.mem_append_left _ hname)
    · exact uniform_operandsOfList hW es (fun a ha ↦ hwrites a (List.mem_append_right _ ha))
        (fun name hname ↦ hcalls name (List.mem_append_right _ hname)) arg harg
termination_by structural es => es

/-- So do the arguments of a construction, if it has any. -/
theorem uniform_operandsOfArgs (hW : W.Sound) : (es : Option (List Expr)) →
    (∀ a ∈ applicationsOfArgs es, W.Writes a) →
    (∀ name, .call name ∈ usesOfArgs es → ∀ owner, name ≠ Callable.constructorName owner) →
      ∀ arg ∈ (operandsOfArgs options es).getD [], arg.Uniform W
  | none, _, _ => by simp [operandsOfArgs]
  | some es, hwrites, hcalls => by
    rw [operandsOfArgs, Option.getD_some]
    exact uniform_operandsOfList hW es hwrites hcalls
termination_by structural es => es

end

end StackLowering
