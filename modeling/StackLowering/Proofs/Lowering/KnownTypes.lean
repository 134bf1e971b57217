import StackLowering.Proofs.Lowering.Names

/-!
# Known types

A type that comes up while a script is lowered can be stored in the end, or it is `void`
(`Ending.Known`). `void` may be written as a type argument, so that it can also be the type of a
parameter of a constructor. But a variable is declared only if its type can be stored, and so all that
is needed of a frame is that it started with parameters that can be stored (`Frame.Within`).

Nothing is asked of the code here: `Lower.Within` says of a computation that it keeps the state within
what is known in the end, provided that lowering stays below the ending, and what is known of its
value. The condition of the judgement collects what is known of the values of earlier computations.

This is the smaller of two judgements about a single computation. The typing of code (`Lower.Typed`)
asks that every function can be called, which fails for a parameter of type `void`. Here such a
parameter is allowed, and what is shown is less: the types of values and variables only, and not that
the code goes with the stack. Types are compared with the registry in the end, since a class may be
laid out after its type came up.
-/

namespace StackLowering

/-! ### States -/

/-- What tells in the end which types can be stored: the primitive types are registered, and what is
remembered for a template at some arguments is a class. -/
structure Ending.Stocked (E : Ending) : Prop where
  primitives : E.symbols.registry.HasPrimitives
  instances : ∀ {template id : Fingerprint} {args : List Fingerprint},
    E.symbols.instances.find? template args = some id → args ≠ [] →
      (E.symbols.registry.class? id).isSome

/-- Addresses can be stored. -/
theorem Ending.Stocked.sized_address {E : Ending} (hE : E.Stocked) : E.Sized addressType :=
  Ending.sized_of_hasPrimitives hE.primitives (by decide)

/-- Symbols that lead to those of the ending, in which the types of all functions are known, and so are
those of the constructors of templates, parameters of the template apart. -/
structure Symbols.Within (s : Symbols) (E : Ending) : Prop where
  built : s.registry.Built
  before : s.Extends E.symbols
  params : ∀ {id : Fingerprint} {f : Callable}, s.registry.functions[id]? = some f →
    ∀ p ∈ f.params, E.Known p.type
  returns : ∀ {id : Fingerprint} {f : Callable}, s.registry.functions[id]? = some f →
    E.Known f.returns
  templates : ∀ {id : Fingerprint} {t : TemplateEntry}, s.registry.types[id]? = some (.template t) →
    ∀ {params : List Param}, t.constructor? = some params →
      ∀ p ∈ params, E.Known p.type ∨ ∃ q ∈ t.params, q.id = p.type

/-- A frame whose variables all have types that can be stored. -/
structure Frame.Within (f : Frame) (E : Ending) : Prop where
  slots : ∀ type ∈ f.slots, E.Sized type
  bindings : ∀ {name : String} {v : LocalVariable}, f.find? name = some v → E.Sized v.type

/-- A state in which all types are known in the end, and those of the variables can be stored. -/
structure LoweringState.Within (s : LoweringState) (E : Ending) : Prop where
  symbols : s.symbols.Within E
  frame : s.frame.Within E

variable {E : Ending}

namespace Frame

variable {f : Frame} {name : String} {type : Fingerprint} {span : Span}

/-- A frame without variables has none that cannot be stored. -/
theorem within_empty (E : Ending) : Frame.empty.Within E :=
  ⟨by simp [empty], by simp [find?, empty]⟩

/-- A new variable of a type that can be stored leaves all variables so. -/
theorem Within.allocate (hf : f.Within E) (h : E.Sized type) :
    (f.allocate name type span).2.Within E := by
  refine ⟨fun type' hmem ↦ ?_, fun {name' v} hv ↦ ?_⟩
  · rcases Array.mem_push.1 hmem with hmem | rfl
    · exact hf.slots type' hmem
    · exact h
  · rw [find?_allocate] at hv
    split at hv
    next =>
      obtain rfl := Option.some.inj hv
      exact h
    next => exact hf.bindings hv

/-- So does a declaration, whether the name is taken or not. -/
theorem Within.declare (hf : f.Within E) (h : E.Sized type) :
    (f.declare name type span).2.Within E := by
  unfold Frame.declare
  cases f.find? name with
  | some v => exact hf
  | none => exact hf.allocate h

/-- So does a temporary, whether it has its slot already or not. -/
theorem Within.temporary (hf : f.Within E) (h : E.Sized type) :
    (f.temporary name type).2.Within E := by
  unfold Frame.temporary
  cases f.find? name with
  | some v => exact hf
  | none => exact hf.allocate h

end Frame

/-! ### Requests -/

namespace Symbols.Within

variable {s : Symbols}

/-- A request at known types keeps the types of all functions known: those of a new constructor are
types of the constructor of the template, or arguments. -/
theorem answer (hs : s.Within E) (hE : E.Stocked) {template : Fingerprint} {args : List Fingerprint}
    {span : Span} (hargs : ∀ arg ∈ args, E.Known arg)
    {out : Except CompileError Fingerprint × Symbols} (h : s.Answer template args span out)
    (hbefore : out.2.Extends E.symbols) : out.2.Within E := by
  refine ⟨h.built hs.built, hbefore, fun hf p hp ↦ ?_, fun hf ↦ ?_,
    fun ht ↦ hs.templates (h.template_before ht)⟩
  · rcases h.function_before hf with hf | ⟨t, htemplate, hcount, hnew⟩
    · exact hs.params hf p hp
    · exact ((params_newConstructor? (hs.templates htemplate) hcount hnew).2 p hp).elim
        (fun h ↦ h) (hargs p.type)
  · rcases h.function_before hf with hf | ⟨t, htemplate, hcount, hnew⟩
    · exact hs.returns hf
    · rw [(params_newConstructor? (hs.templates htemplate) hcount hnew).1]
      exact hE.sized_address.known

/-- A function with known types may be registered. -/
theorem registerFunction (hs : s.Within E) {f : Callable} {r : Registry}
    (hparams : ∀ p ∈ f.params, E.Known p.type) (hreturns : E.Known f.returns)
    (h : s.registry.registerFunction f = .ok r)
    (hbefore : Symbols.Extends { s with registry := r } E.symbols) :
    Symbols.Within { s with registry := r } E := by
  refine ⟨hs.built.step (.registerFunction h), hbefore, fun {id g} hg ↦ ?_, fun {id g} hg ↦ ?_,
    fun {id t} ht ↦ hs.templates (Registry.types_registerFunction h ▸ ht)⟩
  · rcases Registry.function_registerFunction h hg with rfl | hg
    · exact hparams
    · exact hs.params hg
  · rcases Registry.function_registerFunction h hg with rfl | hg
    · exact hreturns
    · exact hs.returns hg

/-- Laying out a class changes no function and no template. -/
theorem layOut (hs : s.Within E) {id : Fingerprint} {size : UInt32} {r : Registry}
    (h : s.registry.layOutClass id = .ok (size, r))
    (hbefore : Symbols.Extends { s with registry := r } E.symbols) :
    Symbols.Within { s with registry := r } E := by
  refine ⟨hs.built.step (.layOutClass h), hbefore, fun {id f} hf ↦ ?_, fun {id f} hf ↦ ?_,
    fun {id t} ht ↦ hs.templates (Registry.template_layOutClass h ht)⟩
  · exact hs.params (Registry.functions_layOutClass h ▸ hf)
  · exact hs.returns (Registry.functions_layOutClass h ▸ hf)

end Symbols.Within

/-! ### Written types -/

/-- Under a condition, a resolution keeps the symbols within what is known in the end, and something is
known of its value. -/
abbrev Resolution.Within {α : Type} (E : Ending) (P : Prop) (x : Resolution α) (post : α → Prop) :
    Prop :=
  x.Keeps (·.Within E) E.symbols P post

/-- An instance at some types is a class in the end. -/
theorem Resolution.Within.instantiate (hE : E.Stocked) {P : Prop} (template : Fingerprint)
    (args : List Fingerprint) (span : Span) (hargs : P → ∀ arg ∈ args, E.Known arg) :
    Within E P (Resolution.instantiate template args span) fun id ↦ args ≠ [] → E.Known id :=
  (Keeps.instantiate template args span fun hp _ hs _ hanswer ↦ hs.answer hE (hargs hp) hanswer).mono
    (fun hp ↦ hp) fun _ _ hfind hne ↦ (Ending.sized_object (hE.instances hfind hne)).known

mutual

/-- A written type stands for a known type, whatever its arguments are. -/
theorem TypeExpr.within_resolve (hE : E.Stocked) : (t : TypeExpr) →
    t.resolve.Within E True E.Known
  | .apply name args span => by
    rw [TypeExpr.resolve]
    refine .bind .get fun s ↦ ?_
    split
    · exact .throw _
    next t ht =>
      split
      · exact .throw _
      next hne =>
        refine .bind ((within_resolveTypes hE args).of_imp fun _ ↦ trivial) fun ids ↦ ?_
        refine (Resolution.Within.instantiate hE t.id ids span fun hp ↦ hp.2.2).mono id ?_
        intro hp id hid
        -- a template without arguments was refused before
        refine hid ?_
        rintro rfl
        exact hne (List.isEmpty_iff.2 (List.length_eq_zero_iff.1 hp.2.1.symm))
    next entry hentry hfind =>
      split
      · refine .pure fun hp ↦ ?_
        exact (Ending.known_typeNamed? hE.primitives hp.2.built hp.2.before.registry hfind hentry).1
      · exact .throw _
termination_by structural t => t

/-- Written types in a list stand for as many known types. -/
theorem within_resolveTypes (hE : E.Stocked) : (ts : List TypeExpr) →
    (resolveTypes ts).Within E True fun ids ↦ ids.length = ts.length ∧ ∀ id ∈ ids, E.Known id
  | [] => .pure fun _ ↦ ⟨rfl, by simp⟩
  | t :: ts => by
    rw [resolveTypes]
    refine .bind (t.within_resolve hE) fun id ↦ ?_
    refine .bind ((within_resolveTypes hE ts).of_imp fun _ ↦ trivial) fun ids ↦ .pure fun hp ↦ ?_
    obtain ⟨⟨-, hid⟩, hlength, hids⟩ := hp
    exact ⟨by rw [List.length_cons, hlength, List.length_cons], List.forall_mem_cons.2 ⟨hid, hids⟩⟩
termination_by structural ts => ts

end

/-! ### The judgement -/

/-- Under a condition, a computation keeps the state within what is known in the end, and something is
known of its value. -/
structure Lower.Within {α : Type} (E : Ending) (P : Prop) (x : Lower α) (post : α → Prop) :
    Prop where
  steps : x.Steps
  sound : P → ∀ s : LoweringState, s.Within E → (x.run s).state.symbols.Extends E.symbols →
    (x.run s).state.Within E ∧ post (x.run s).value

namespace Lower.Within

variable {α β : Type} {P Q : Prop} {x : Lower α} {post post' : α → Prop}

/-- The condition may be strengthened, and what is known of the value may be weakened. -/
theorem mono (h : Within E Q x post) (hP : P → Q) (hpost : P → ∀ a, post a → post' a) :
    Within E P x post' := by
  refine ⟨h.steps, fun hp s hs hbefore ↦ ?_⟩
  obtain ⟨hs', ha⟩ := h.sound (hP hp) s hs hbefore
  exact ⟨hs', hpost hp _ ha⟩

/-- The condition may be strengthened. -/
theorem of_imp (h : Within E Q x post) (hP : P → Q) : Within E P x post :=
  h.mono hP fun _ _ ha ↦ ha

/-- Of a value that is returned the condition tells what is known. -/
theorem pure {a : α} (h : P → post a) : Within E P (pure a) post :=
  ⟨.pure a, fun hp _ hs _ ↦ ⟨hs, h hp⟩⟩

/-- The second computation knows what is known of the value of the first one. Only values that the
first computation can have need to be looked at. -/
theorem bind_value {f : α → Lower β} {mid : α → Prop} {post : β → Prop} (hx : Within E P x mid)
    (hf : ∀ s, Within E (P ∧ mid (x.run s).value) (f (x.run s).value) post) :
    Within E P (x >>= f) post := by
  have hsteps (s : LoweringState) : (f (x.run s).value).Steps := (hf s).steps
  refine ⟨fun s ↦ (hx.steps s).trans (hsteps s _), fun hp s hs hbefore ↦ ?_⟩
  -- nothing that the second computation needs of the first one is taken away by it
  have hbuilt := (hx.steps s).built hs.symbols.built
  have hmid := ((hsteps s _).extends hbuilt).symbols.trans hbefore
  obtain ⟨hs₁, ha⟩ := hx.sound hp s hs hmid
  exact (hf s).sound ⟨hp, ha⟩ _ hs₁ hbefore

/-- The second computation knows what is known of the value of the first one. -/
theorem bind {f : α → Lower β} {mid : α → Prop} {post : β → Prop} (hx : Within E P x mid)
    (hf : ∀ a, Within E (P ∧ mid a) (f a) post) : Within E P (x >>= f) post :=
  hx.bind_value fun _ ↦ hf _

/-- Nothing is known after a computation that was not known before. -/
theorem seq {f : α → Lower β} {mid : α → Prop} {post : β → Prop} (hx : Within E P x mid)
    (hf : ∀ a, Within E P (f a) post) : Within E P (x >>= f) post :=
  hx.bind fun a ↦ (hf a).of_imp And.left

/-- Nothing needs to be known of a value that is thrown away. -/
theorem discard (h : Within E P x post) : Within E P (discard x) fun _ ↦ True := by
  show Within E P (x >>= fun _ ↦ Pure.pure ()) _
  exact h.seq fun _ ↦ pure fun _ ↦ trivial

/-- A loop keeps the state within what is known if its body does at every element. -/
theorem forM {l : List α} {f : α → Lower Unit} (h : ∀ a ∈ l, Within E P (f a) fun _ ↦ True) :
    Within E P (l.forM f) fun _ ↦ True := by
  induction l with
  | nil => exact pure fun _ ↦ trivial
  | cons a l ih =>
    show Within E P (f a >>= fun _ ↦ l.forM f) _
    exact (h a List.mem_cons_self).seq fun _ ↦ ih fun b hb ↦ h b (List.mem_cons_of_mem a hb)

/-! #### State -/

/-- The state that is looked at is one within what is known. -/
theorem get : Within E P Lower.get fun s ↦ s.Within E :=
  ⟨.get, fun _ _ hs _ ↦ ⟨hs, hs⟩⟩

/-- The registry that is looked at is that of symbols within what is known. -/
theorem registry : Within E P Lower.registry fun r ↦ ∃ s : Symbols, s.Within E ∧ s.registry = r :=
  ⟨.registry, fun _ s hs _ ↦ ⟨hs, s.symbols, hs.symbols, rfl⟩⟩

theorem width : Within E P Lower.width fun _ ↦ True :=
  ⟨.width, fun _ _ hs _ ↦ ⟨hs, trivial⟩⟩

theorem setLine (line : UInt32) : Within E P (Lower.setLine line) fun _ ↦ True :=
  ⟨.setLine line, fun _ _ hs _ ↦ ⟨⟨hs.symbols, hs.frame⟩, trivial⟩⟩

/-- A temporary holds an address, which can be stored. -/
theorem temporary (hE : E.Stocked) {name : String} (hname : IsTemporary name) :
    Within E P (Lower.temporary name addressType) fun _ ↦ True :=
  ⟨.temporary hname, fun _ _ hs _ ↦ ⟨⟨hs.symbols, hs.frame.temporary hE.sized_address⟩, trivial⟩⟩

/-- A variable is declared with a type that can be stored. -/
theorem declare {name : String} {type : Fingerprint} {span : Span} (h : P → E.Sized type) :
    Within E P (Attempt.declare name type span).run fun _ ↦ True :=
  ⟨Attempt.Steps.declare name type span,
    fun hp _ hs _ ↦ ⟨⟨hs.symbols, hs.frame.declare (h hp)⟩, trivial⟩⟩

/-! #### Output -/

theorem emit (i : SymbolicInstruction) : Within E P (Lower.emit i) fun _ ↦ True :=
  ⟨.emit i, fun _ _ hs _ ↦ ⟨hs, trivial⟩⟩

theorem emitAll (is : List SymbolicInstruction) : Within E P (Lower.emitAll is) fun _ ↦ True :=
  ⟨.emitAll is, fun _ _ hs _ ↦ ⟨hs, trivial⟩⟩

theorem report (error : CompileError) : Within E P (Lower.report error) fun _ ↦ True :=
  ⟨.report error, fun _ _ hs _ ↦ ⟨hs, trivial⟩⟩

theorem annotate (node : NodeId) (type : Fingerprint) :
    Within E P (Lower.annotate node type) fun _ ↦ True :=
  ⟨.annotate node type, fun _ _ hs _ ↦ ⟨hs, trivial⟩⟩

theorem trap (error : CompileError) : Within E P (Lower.trap error) fun _ ↦ True :=
  (report error).seq fun _ ↦ emit .trap

end Lower.Within

/-! ### Computations that may fail -/

/-- Under a condition, a computation keeps the state within what is known in the end, and something is
known of its value if it succeeds. -/
def Attempt.Within {α : Type} (E : Ending) (P : Prop) (x : Attempt α) (post : α → Prop) : Prop :=
  Lower.Within E P x.run fun r ↦ ∀ a, r = .ok a → post a

namespace Attempt.Within

variable {α β : Type} {P Q : Prop} {x : Attempt α} {post : α → Prop}

theorem of_imp (h : Within E Q x post) (hP : P → Q) : Within E P x post :=
  Lower.Within.of_imp h hP

theorem pure {a : α} (h : P → post a) : Within E P (pure a) post :=
  Lower.Within.pure fun hp a' heq ↦ by
    obtain rfl : a = a' := Except.ok.inj heq
    exact h hp

/-- Nothing needs to be known of a value that there is not. -/
theorem throw (error : CompileError) : Within E P (throw error) post :=
  Lower.Within.pure fun _ _ heq ↦ by simp at heq

/-- A computation that cannot fail may stand where others might. -/
theorem lift {x : Lower α} (h : Lower.Within E P x post) :
    Within E P (liftM x : Attempt α) post := by
  show Lower.Within E P (x >>= fun a ↦ Pure.pure (Except.ok a)) _
  refine h.bind fun a ↦ .pure fun ⟨_, ha⟩ a' heq ↦ ?_
  obtain rfl : a = a' := Except.ok.inj heq
  exact ha

/-- The second attempt knows what is known of the value of the first one. After a failure nothing is
left to be done. -/
theorem bind {f : α → Attempt β} {mid : α → Prop} {post : β → Prop} (hx : Within E P x mid)
    (hf : ∀ a, Within E (P ∧ mid a) (f a) post) : Within E P (x >>= f) post := by
  refine Lower.Within.bind hx fun r ↦ ?_
  cases r with
  | ok a => exact (hf a).of_imp fun ⟨hp, ha⟩ ↦ ⟨hp, ha a rfl⟩
  | error error => exact .pure fun _ _ heq ↦ by simp at heq

/-- Nothing is known after a computation that was not known before. -/
theorem seq {x : Lower α} {f : α → Attempt β} {mid : α → Prop} {post : β → Prop}
    (hx : Lower.Within E P x mid) (hf : ∀ a, Within E P (f a) post) :
    Within E P (liftM x >>= f) post :=
  (lift hx).bind fun a ↦ (hf a).of_imp And.left

/-- After a computation that cannot fail, only the values that it can have need to be looked at. -/
theorem lift_bind {x : Lower α} {f : α → Attempt β} {mid : α → Prop} {post : β → Prop}
    (hx : Lower.Within E P x mid) (hf : ∀ s, Within E P (f (x.run s).value) post) :
    Within E P (liftM x >>= f) post :=
  Lower.Within.bind_value (lift hx) fun s ↦ (hf s).of_imp And.left

/-- A class is laid out without any condition on its fields. -/
theorem layOutClass (id : Fingerprint) (span : Span) :
    Within E P (Attempt.layOutClass id span) fun _ ↦ True := by
  refine ⟨Attempt.Steps.layOutClass id span, fun _ s hs hbefore ↦ ?_⟩
  rw [Attempt.run_layOutClass] at hbefore ⊢
  cases hlay : s.symbols.registry.layOutClass id with
  | error error => exact ⟨hs, fun _ _ ↦ trivial⟩
  | ok out =>
    rw [hlay] at hbefore
    exact ⟨⟨hs.symbols.layOut hlay hbefore, hs.frame⟩, fun _ _ ↦ trivial⟩

/-- What a resolution does to the symbols it does to those of the state. -/
theorem resolve {x : Resolution α} (h : x.Within E P post) :
    Within E P (Attempt.resolve x) post := by
  refine ⟨Attempt.Steps.resolve h.steps, fun hp s hs hbefore ↦ ?_⟩
  obtain ⟨hsymbols, ha⟩ := h.sound hp s.symbols hs.symbols.built hs.symbols hbefore
  exact ⟨⟨hsymbols, hs.frame⟩, ha⟩

end Attempt.Within

end StackLowering
