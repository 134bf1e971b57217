import StackLowering.Proofs.Lowering.Typing

/-!
# Types of written types

A written type stands for a type that can be stored, if `void` is not written in it
(`TypeExpr.Storable`). Instances are created on the way, and their constructors can be called: a
parameter of a constructor is one of the template, which an argument takes the place of, or it can be
stored as it is.

Only the arguments of a type matter for this (`TypeExpr.ArgsStorable`), since `void` by itself may be
written as the result of a function. It cannot be told from a name alone whether it means a type, so
that nothing is asked of names: one that means nothing is an error, and the resolution fails.

`Resolution.Keeps` is a judgement about resolutions with a condition, an invariant of the symbols and
what is known of the value, provided that the resolution stays below some final symbols. The typing of
code and the types of values use it with different invariants (`Symbols.Fits`, `Symbols.Within`), and
both get from it that an instance which was found is remembered in the end.
-/

namespace StackLowering

/-! ### Requests -/

namespace Symbols

variable {s : Symbols} {template : Fingerprint} {args : List Fingerprint} {span : Span}
  {out : Except CompileError Fingerprint × Symbols}

/-- The constructor of a new instance has parameters of the types that the constructor of the template
has, or of the types that its parameters stand for. -/
theorem params_newConstructor? {p : Fingerprint → Prop} {t : TemplateEntry}
    (ht : ∀ {params : List Param}, t.constructor? = some params →
      ∀ q ∈ params, p q.type ∨ ∃ param ∈ t.params, param.id = q.type)
    (hargs : args.length = t.arity) {f : Callable} (hf : s.newConstructor? t args = some f) :
    f.returns = addressType ∧ ∀ q ∈ f.params, p q.type ∨ q.type ∈ args := by
  obtain ⟨params, hparams, rfl⟩ := Option.map_eq_some_iff.1 hf
  refine ⟨rfl, fun q' hq' ↦ ?_⟩
  obtain ⟨q, hq, rfl⟩ := List.mem_map.1 hq'
  show p ((Substitution.bind t.params args).type q.type) ∨
    (Substitution.bind t.params args).type q.type ∈ args
  rcases ht hparams q hq with hq | ⟨param, hparam, heq⟩
  · rcases Substitution.type_bind_eq t.params args q.type with hmem | heq
    · exact .inr hmem
    · exact .inl (heq.symm ▸ hq)
  · rw [← heq]
    exact .inr (Substitution.type_bind_mem hargs hparam)

namespace Answer

/-- A request registers no template. -/
theorem template_before (h : s.Answer template args span out) {id : Fingerprint} {t : TemplateEntry}
    (ht : out.2.registry.types[id]? = some (.template t)) :
    s.registry.types[id]? = some (.template t) := by
  cases h with
  | remembered | adopted | unknown | refused | classRefused => exact ht
  | constructorRefused _ _ _ hclass => exact Registry.template_registerType hclass ht
  | created _ _ _ hclass hf =>
    rcases hf with ⟨-, rfl⟩ | ⟨f, -, hf⟩
    · exact Registry.template_registerType hclass ht
    · have ht : _ = some (TypeEntry.template t) := Registry.types_registerFunction hf ▸ ht
      exact Registry.template_registerType hclass ht

/-- A function was registered before a request, or it is the constructor of a new instance. -/
theorem function_before (h : s.Answer template args span out) {id : Fingerprint} {f : Callable}
    (hf : out.2.registry.functions[id]? = some f) :
    s.registry.functions[id]? = some f ∨ ∃ t, s.registry.type? template = some (.template t) ∧
      args.length = t.arity ∧ s.newConstructor? t args = some f := by
  cases h with
  | remembered | adopted | unknown | refused | classRefused => exact .inl hf
  | constructorRefused _ _ _ hclass => exact .inl (Registry.functions_registerType hclass ▸ hf)
  | created _ htemplate hargs hclass hnew =>
    rcases hnew with ⟨-, rfl⟩ | ⟨g, hg, hnew⟩
    · exact .inl (Registry.functions_registerType hclass ▸ hf)
    · rcases Registry.function_registerFunction hnew hf with rfl | hf
      · exact .inr ⟨_, htemplate, hargs, hg⟩
      · exact .inl (Registry.functions_registerType hclass ▸ hf)

end Answer

namespace Fits

variable {E : Ending}

/-- A new function that can be called keeps the symbols fit. -/
theorem registerFunction (hs : s.Fits E) {f : Callable} {r : Registry} (hf : E.Signed f)
    (h : s.registry.registerFunction f = .ok r)
    (hbefore : Symbols.Extends { s with registry := r } E.symbols) :
    Symbols.Fits { s with registry := r } E := by
  refine ⟨hs.built.step (.registerFunction h), hbefore, fun {id g} hg ↦ ?_, fun {id t params} ht ↦ ?_⟩
  · rcases Registry.function_registerFunction h hg with rfl | hg
    · exact hf
    · exact hs.functions hg
  · exact hs.templates (Registry.types_registerFunction h ▸ ht)

/-- A request for an instance at types that can be stored keeps the symbols fit. -/
theorem answer (hs : s.Fits E) (hE : E.Sound) (hsized : ∀ arg ∈ args, E.Sized arg)
    (h : s.Answer template args span out) (hbefore : out.2.Extends E.symbols) : out.2.Fits E := by
  refine ⟨h.built hs.built, hbefore, fun hf ↦ ?_, fun ht ↦ hs.templates (h.template_before ht)⟩
  rcases h.function_before hf with hf | ⟨t, htemplate, hargs, hnew⟩
  · exact hs.functions hf
  · -- the constructor of a new instance can be called, since the arguments can be stored
    obtain ⟨hreturns, hparams⟩ := params_newConstructor? (hs.templates htemplate) hargs hnew
    exact ⟨fun p hp ↦ (hparams p hp).elim id (hsized p.type), hreturns ▸ hE.sized_address.known⟩

end Fits

end Symbols

/-! ### Resolutions -/

/-- Under a condition, a resolution keeps what is true of the symbols, provided that it stays below the
symbols in the end, and something is known of its value. -/
structure Resolution.Keeps {α : Type} (I : Symbols → Prop) (final : Symbols) (P : Prop)
    (x : Resolution α) (post : α → Prop) : Prop where
  steps : x.Steps
  sound : P → ∀ s : Symbols, s.registry.Built → I s → (x.run.run s).2.Extends final →
    I (x.run.run s).2 ∧ ∀ a, (x.run.run s).1 = .ok a → post a

namespace Resolution.Keeps

variable {α β : Type} {I : Symbols → Prop} {final : Symbols} {P Q : Prop} {x : Resolution α}
  {post post' : α → Prop}

theorem mono (h : Keeps I final Q x post) (hP : P → Q) (hpost : P → ∀ a, post a → post' a) :
    Keeps I final P x post' := by
  refine ⟨h.steps, fun hp s hbuilt hs hbefore ↦ ?_⟩
  obtain ⟨hs', ha⟩ := h.sound (hP hp) s hbuilt hs hbefore
  exact ⟨hs', fun a heq ↦ hpost hp a (ha a heq)⟩

theorem of_imp (h : Keeps I final Q x post) (hP : P → Q) : Keeps I final P x post :=
  h.mono hP fun _ _ ha ↦ ha

theorem pure {a : α} (h : P → post a) : Keeps I final P (pure a) post :=
  ⟨.pure a, fun hp _ _ hs _ ↦ ⟨hs, fun a' heq ↦ by
    obtain rfl : a = a' := Except.ok.inj heq
    exact h hp⟩⟩

theorem throw (error : CompileError) : Keeps I final P (throw error) post :=
  ⟨.throw error, fun _ _ _ hs _ ↦ ⟨hs, fun _ heq ↦ by simp at heq⟩⟩

theorem get : Keeps I final P (MonadState.get : Resolution Symbols) I :=
  ⟨.get, fun _ s _ hs _ ↦ ⟨hs, fun a heq ↦ by
    obtain rfl : s = a := Except.ok.inj heq
    exact hs⟩⟩

theorem bind {f : α → Resolution β} {mid : α → Prop} {post : β → Prop} (hx : Keeps I final P x mid)
    (hf : ∀ a, Keeps I final (P ∧ mid a) (f a) post) : Keeps I final P (x >>= f) post := by
  refine ⟨.bind hx.steps fun a ↦ (hf a).steps, fun hp s hbuilt hs hbefore ↦ ?_⟩
  have hsteps := hx.steps s
  have hsound := hx.sound hp s hbuilt hs
  rw [run_bind] at hbefore ⊢
  generalize x.run.run s = out at hsteps hsound hbefore
  rcases out with ⟨error | a, s₁⟩
  · exact ⟨(hsound hbefore).1, fun _ heq ↦ by simp at heq⟩
  · -- the second resolution takes nothing away that the first one needs
    have hbuilt := Symbols.Steps.built hsteps hbuilt
    have hmid := (Symbols.Steps.extends ((hf a).steps s₁) hbuilt).trans hbefore
    obtain ⟨hs₁, ha⟩ := hsound hmid
    exact (hf a).sound ⟨hp, ha a rfl⟩ s₁ hbuilt hs₁ hbefore

/-- What is found as an instance is remembered in the end. -/
theorem instantiate (template : Fingerprint) (args : List Fingerprint) (span : Span)
    (h : P → ∀ s : Symbols, I s → ∀ out, s.Answer template args span out →
      out.2.Extends final → I out.2) :
    Keeps I final P (Resolution.instantiate template args span) fun id ↦
      final.instances.find? template args = some id := by
  refine ⟨.instantiate template args span, fun hp s hbuilt hs hbefore ↦ ?_⟩
  have hanswer := Symbols.answer_instantiate s template args span
  refine ⟨h hp s hs _ hanswer hbefore, fun id heq ↦ ?_⟩
  obtain ⟨s', hout⟩ : ∃ s', s.instantiate template args span = (.ok id, s') :=
    ⟨_, Prod.ext heq rfl⟩
  have hbefore : (s.instantiate template args span).2.Extends final := hbefore
  rw [hout] at hbefore hanswer
  exact hbefore.instances (Symbols.Answer.remembers hanswer hbuilt.indexed.keyed)

end Resolution.Keeps

/-- Under a condition, a resolution keeps the symbols fit, and something is known of its value. -/
abbrev Resolution.Typed {α : Type} (E : Ending) (P : Prop) (x : Resolution α) (post : α → Prop) :
    Prop :=
  x.Keeps (·.Fits E) E.symbols P post

/-- An instance at some types that can be stored is held by its address. -/
theorem Resolution.Typed.instantiate {E : Ending} (hE : E.Sound) {P : Prop} (template : Fingerprint)
    (args : List Fingerprint) (span : Span) (hsized : P → ∀ arg ∈ args, E.Sized arg) :
    Typed E P (Resolution.instantiate template args span) fun id ↦ args ≠ [] → E.Sized id :=
  (Keeps.instantiate template args span fun hp _ hs _ hanswer ↦ hs.answer hE (hsized hp) hanswer).mono
    (fun hp ↦ hp) fun _ _ hfind hne ↦ Ending.sized_object (hE.instances hfind hne)

/-! ### Written types -/

/-- A written type in which `void` is not written. -/
inductive TypeExpr.Storable : TypeExpr → Prop
  | apply {name : Ident} {args : List TypeExpr} {span : Span}
      (hname : name.name ≠ Primitive.void.name) (hargs : ∀ t ∈ args, Storable t) :
      Storable (.apply name args span)

/-- A written type in whose arguments `void` is not written. -/
def TypeExpr.ArgsStorable (t : TypeExpr) : Prop := ∀ arg ∈ t.args, arg.Storable

theorem TypeExpr.Storable.argsStorable {t : TypeExpr} (h : t.Storable) : t.ArgsStorable := by
  cases h with
  | apply _ hargs => exact hargs

/-- A type that is registered under a name and is no template can be stored, unless it is `void`. -/
theorem Ending.known_typeNamed? {E : Ending} (hE : E.symbols.registry.HasPrimitives) {r : Registry}
    (hr : r.Built) (hbefore : r.Extends E.symbols.registry) {name : String} {entry : TypeEntry}
    (h : r.typeNamed? name = some entry) (hentry : ∀ t, entry ≠ .template t) :
    E.Known entry.id ∧ (name ≠ Primitive.void.name → E.Sized entry.id) := by
  obtain ⟨hreg, hname⟩ := hr.indexed.typeNamed?_eq_some_iff.1 h
  cases entry with
  | template t => exact absurd rfl (hentry t)
  | object c =>
    have hclass : (E.symbols.registry.class? c.id).isSome :=
      hbefore.class?_isSome (Option.isSome_of_mem (Registry.class?_eq_some_iff.2 hreg))
    have hsized : E.Sized c.id := Ending.sized_object hclass
    exact ⟨hsized.known, fun _ ↦ hsized⟩
  | primitive p =>
    by_cases hp : p = .void
    · subst hp
      exact ⟨.inl rfl, fun hne ↦ (hne hname.symm).elim⟩
    · have hsized : E.Sized p.fingerprint := Ending.sized_of_hasPrimitives hE hp
      exact ⟨hsized.known, fun _ ↦ hsized⟩

mutual

theorem TypeExpr.typed_resolve {E : Ending} (hE : E.Sound) : (t : TypeExpr) → t.ArgsStorable →
    t.resolve.Typed E True fun id ↦
      E.Known id ∧ (t.ident.name ≠ Primitive.void.name → E.Sized id)
  | .apply name args span => by
    intro hargs
    rw [TypeExpr.resolve]
    refine .bind .get fun s ↦ ?_
    split
    · exact .throw _
    next t ht =>
      split
      · exact .throw _
      next hne =>
        refine .bind ((typed_resolveTypes hE args hargs).of_imp And.left) fun ids ↦ ?_
        refine (Resolution.Typed.instantiate hE t.id ids span fun hp ↦ hp.2.2).mono id ?_
        intro hp id hid
        -- a template without arguments was refused before
        have hids : ids ≠ [] := by
          rintro rfl
          have hlength : 0 = args.length := hp.2.1
          exact hne (List.isEmpty_iff.2 (List.length_eq_zero_iff.1 hlength.symm))
        exact ⟨(hid hids).known, fun _ ↦ hid hids⟩
    next entry hentry hfind =>
      split
      · exact .pure fun hp ↦
          Ending.known_typeNamed? hE.primitives hp.2.built hp.2.before.registry hfind hentry
      · exact .throw _
termination_by structural t => t

theorem typed_resolveTypes {E : Ending} (hE : E.Sound) : (ts : List TypeExpr) →
    (∀ t ∈ ts, t.Storable) →
      (resolveTypes ts).Typed E True fun ids ↦ ids.length = ts.length ∧ ∀ id ∈ ids, E.Sized id
  | [] => fun _ ↦ .pure fun _ ↦ ⟨rfl, by simp⟩
  | t :: ts => by
    intro hts
    have ht : t.Storable := hts t List.mem_cons_self
    have hname : t.ident.name ≠ Primitive.void.name := by
      cases ht with
      | apply hname _ => exact hname
    have hrest := typed_resolveTypes hE ts fun t' ht' ↦ hts t' (List.mem_cons_of_mem t ht')
    rw [resolveTypes]
    refine .bind (t.typed_resolve hE ht.argsStorable) fun id ↦ ?_
    refine .bind (hrest.of_imp And.left) fun ids ↦ .pure fun hp ↦ ?_
    obtain ⟨⟨-, -, hid⟩, hlength, hids⟩ := hp
    refine ⟨by rw [List.length_cons, hlength, List.length_cons], fun id' hid' ↦ ?_⟩
    rcases List.mem_cons.1 hid' with rfl | hid'
    · exact hid hname
    · exact hids id' hid'
termination_by structural ts => ts

end

namespace Attempt.Typed

variable {α : Type} {E : Ending} {P : Prop} {cells : List Category}

/-- Resolving types writes no code. -/
theorem resolve {x : Resolution α} {post : α → Prop} (h : x.Typed E P post) :
    Typed E P cells (Attempt.resolve x) fun a cells' ↦ cells' = cells ∧ post a := by
  refine ⟨Attempt.Steps.resolve h.steps, fun hp s hs hbefore ↦ ?_⟩
  obtain ⟨hfits, ha⟩ := h.sound hp s.symbols hs.symbols.built hs.symbols hbefore.symbols
  exact ⟨⟨hfits, hs.frame⟩, cells, fun a heq ↦ ⟨rfl, ha a heq⟩, .nil cells⟩

end Attempt.Typed

end StackLowering
