import StackLowering.Proofs.Lowering.Script
import StackLowering.Proofs.Lowering.ValueTypes

/-!
# Types that values are bound to

A script is compiled with sizes (`Script.Sized`) if every slot of its functions, every parameter of its
functions and every parameter of the constructors of instances that its code calls is of a type that can
be stored. Variables and temporaries always are, and the types of parameters are known. So the only
exception is `void` as the type of a parameter: of a function of the script, or of a constructor, if
`void` is a type argument of the instance (`Script.sized_iff`).

Nothing is reported of these exceptions. A call of such a function pushes no value for the parameter,
though the call counts it.

## Where types are asked for a layout

A resolved type is either `void` or one that can be stored, given that every instance is a class
(`FunctionDecl.within_types`). A variable has the type of a value, and a value of type `void` is
refused where it would be stored. The type of a parameter is resolved, and nothing more is asked of it.
The lemmas about bodies therefore take the types of the parameters as given (`Callable.within_lower`),
and the theorem about scripts finds out which of them are exceptions.
-/

namespace StackLowering

variable {E : Ending}

/-! ### Functions -/

/-- The slots of a function whose parameters can be stored can be stored. -/
theorem Callable.within_lower (hE : E.Stocked) (options : CompilerOptions) {f : Callable}
    (hparams : ∀ p ∈ f.params, E.Sized p.type) (body : List Stmt) (span : Span) {s : LoweringState}
    (hs : s.symbols.Within E)
    (hbefore : (f.lower options body span s).2.symbols.Extends E.symbols) :
    (f.lower options body span s).2.symbols.Within E ∧
      ∀ type ∈ (f.lower options body span s).1.locals, E.Sized type := by
  have hwithin : (f.lowerStatements options body span).Within E True fun _ ↦ True :=
    .seq (.forM fun p hp ↦ Lower.within_declareParam span p (hparams p hp)) fun _ ↦
      .forM fun stmt _ ↦ stmt.within_lower hE options f.returns
  have hstate : (f.lower options body span s).2 =
      ((f.lowerStatements options body span).run (bodyStart s)).state := f.snd_lower options body span s
  rw [hstate] at hbefore
  obtain ⟨hend, -⟩ := hwithin.sound trivial (bodyStart s) ⟨hs, Frame.within_empty E⟩ hbefore
  rw [← hstate] at hend
  exact ⟨hend.symbols, hend.frame.slots⟩

/-- The slots of all functions can be stored if their parameters can be. -/
theorem within_lowerFunctions (hE : E.Stocked) (options : CompilerOptions)
    {fs : List (FunctionDecl × Callable)} (hparams : ∀ q ∈ fs, ∀ p ∈ q.2.params, E.Sized p.type)
    {s : LoweringState} (hs : s.symbols.Within E)
    (hbefore : (lowerFunctions options fs s).2.symbols.Extends E.symbols) :
    (lowerFunctions options fs s).2.symbols.Within E ∧
      ∀ g ∈ (lowerFunctions options fs s).1, ∀ type ∈ g.locals, E.Sized type := by
  induction fs generalizing s with
  | nil => exact ⟨hs, nofun⟩
  | cons q fs ih =>
    -- the functions behind the first one take nothing away that it needs
    have hbuilt := (Symbols.Grows.lower options q.2 q.1.body q.1.span s).built hs.built
    have hrest := (Symbols.Grows.lowerFunctions options fs
      (q.2.lower options q.1.body q.1.span s).2).extend hbuilt
    obtain ⟨hfirst, hslots⟩ := q.2.within_lower hE options (hparams q List.mem_cons_self) q.1.body
      q.1.span hs (hrest.trans hbefore)
    obtain ⟨hlast, hothers⟩ := ih (fun q' hq' ↦ hparams q' (List.mem_cons_of_mem q hq')) hfirst hbefore
    exact ⟨hlast, List.forall_mem_cons.2 ⟨hslots, hothers⟩⟩

/-! ### Signatures -/

namespace FunctionDecl

variable {d : FunctionDecl}

/-- The types of a signature are known. -/
theorem within_types (hE : E.Stocked) (d : FunctionDecl) :
    d.types.Within E True fun types ↦ (∀ id ∈ types.1, E.Known id) ∧ E.Known types.2 := by
  refine .bind (within_resolveTypes hE _) fun ids ↦ ?_
  cases d.returns with
  | none => exact .pure fun ⟨_, _, hids⟩ ↦ ⟨hids, .inl rfl⟩
  | some written =>
    refine .bind ((written.within_resolve hE).of_imp fun _ ↦ trivial) fun type ↦ ?_
    exact .pure fun ⟨⟨_, _, hids⟩, htype⟩ ↦ ⟨hids, htype⟩

/-- The types of the parameters of a registered function are known. -/
theorem within_signature (hE : E.Stocked) (d : FunctionDecl) {s : Symbols} (hs : s.Within E)
    (hbefore : (d.signature.run.run s).2.Extends E.symbols) :
    (d.signature.run.run s).2.Within E ∧
      ∀ f, (d.signature.run.run s).1 = .ok f → ∀ p ∈ f.params, E.Known p.type := by
  have htypes := (d.within_types hE).sound trivial s hs.built hs
  rcases d.signature_cases s with ⟨error, hrun⟩ | ⟨types, r, hok, hr, hrun⟩
  · rw [hrun] at hbefore ⊢
    exact ⟨(htypes hbefore).1, nofun⟩
  · rw [hrun] at hbefore ⊢
    have hext : (d.types.run.run s).2.Extends { (d.types.run.run s).2 with registry := r } :=
      ⟨.of_registerFunction hr, fun h ↦ h⟩
    obtain ⟨hs₁, hknown⟩ := htypes (hext.trans hbefore)
    have hparams : ∀ p ∈ (d.callable types.1 types.2).params, E.Known p.type := by
      intro p hp
      obtain ⟨⟨q, type⟩, hmem, rfl⟩ := List.mem_map.1 hp
      exact (hknown types hok).1 type (List.of_mem_zip hmem).2
    refine ⟨hs₁.registerFunction hparams (hknown types hok).2 hr hbefore, fun f heq ↦ ?_⟩
    obtain rfl := Except.ok.inj heq
    exact hparams

end FunctionDecl

/-- Symbols that fit an ending are within what is known in it. -/
theorem Symbols.Fits.within {s : Symbols} (hs : s.Fits E) : s.Within E :=
  ⟨hs.built, hs.before, fun hf p hp ↦ ((hs.functions hf).params p hp).known,
    fun hf ↦ (hs.functions hf).returns,
    fun ht _ hparams p hp ↦ (hs.templates ht hparams p hp).imp (·.known) id⟩

/-! ### Scripts -/

namespace Script

variable {options : CompilerOptions} {registry : Registry} {script : Script}

/-- A constructor of an instance of a template that the code of a script calls. -/
structure CallsInstance (options : CompilerOptions) (registry : Registry) (script : Script)
    (f : Callable) : Prop where
  constructor : ∃ id c, (script.compile options registry).registry.class? id = some c ∧
    c.isInstance = true ∧ (script.compile options registry).registry.constructorOf? id = some f
  called : ∃ g ∈ (script.lowered options registry).1, ∃ argc,
    .call f.name argc ∈ g.output.instructions

/-- All types that values are bound to have a layout after a compilation: those of the slots, of the
parameters of the declared functions, and of the parameters of the called constructors of instances. -/
structure Sized (options : CompilerOptions) (registry : Registry) (script : Script) : Prop where
  locals : ∀ f ∈ (script.compile options registry).functions, ∀ type ∈ f.locals,
    ((script.compile options registry).registry.layout? type).isSome
  params : ∀ q ∈ (declareFunctions script { registry }).1.1, ∀ p ∈ q.2.params,
    ((script.compile options registry).registry.layout? p.type).isSome
  constructors : ∀ f, script.CallsInstance options registry f → ∀ p ∈ f.params,
    ((script.compile options registry).registry.layout? p.type).isSome

/-- After a compilation against a usable registry, all types that values are bound to have a layout
exactly if `void` is neither the type of a parameter of a declared function nor that of a parameter of a
called constructor of an instance. Every instance with type arguments has to be a class. -/
theorem sized_iff (options : CompilerOptions) (registry : Registry) (script : Script)
    (hr : registry.Usable)
    (hinstances : ∀ {template id : Fingerprint} {args : List Fingerprint},
      (script.lowered options registry).2.symbols.instances.find? template args = some id →
        args ≠ [] → ((script.compile options registry).registry.class? id).isSome) :
    script.Sized options registry ↔
      (∀ q ∈ (declareFunctions script { registry }).1.1, ∀ p ∈ q.2.params, p.type ≠ voidType) ∧
        ∀ f, script.CallsInstance options registry f → ∀ p ∈ f.params, p.type ≠ voidType := by
  have hprimitives : (script.compile options registry).registry.HasPrimitives :=
    hr.primitives.extends ((script.grows options registry).extend hr.built).registry
  have hE : (script.ending options registry).Stocked := ⟨hprimitives, hinstances⟩
  constructor
  · -- `void` has no layout
    intro h
    have hvoid : (script.compile options registry).registry.layout? voidType = none :=
      hprimitives.layout? .void
    refine ⟨fun q hq p hp heq ↦ ?_, fun f hf p hp heq ↦ ?_⟩
    · simpa [heq, hvoid] using h.params q hq p hp
    · simpa [heq, hvoid] using h.constructors f hf p hp
  · rintro ⟨hdeclared, hcalled⟩
    have hstart : Symbols.Within { registry } (script.ending options registry) := (fits hr).within
    obtain ⟨hs, hknown⟩ := keeps_declareFunctions
      (fun d _ _ _ hs hbefore ↦ d.within_signature hE hs hbefore) hr.built hstart
      (extends_declareFunctions options script hr.built)
    have hparams : ∀ q ∈ (declareFunctions script { registry }).1.1, ∀ p ∈ q.2.params,
        (script.ending options registry).Sized p.type :=
      fun q hq p hp ↦ ((hknown q hq).2 p hp).resolve_left (hdeclared q hq p hp)
    obtain ⟨hend, hlocals⟩ := within_lowerFunctions hE options hparams hs (.refl _)
    refine ⟨fun f hf type htype ↦ ?_, hparams, fun f hf p hp ↦ ?_⟩
    · obtain ⟨g, hg, hassembled⟩ := assembledTo_assembleFunctions f hf
      exact hlocals g hg type (hassembled.locals ▸ htype)
    · obtain ⟨id, c, -, -, hconstructor⟩ := hf.constructor
      obtain ⟨k, -, hk⟩ := Option.bind_eq_some_iff.1 hconstructor
      exact (hend.params hk p hp).resolve_left (hcalled f hf p hp)

end Script

/-! ### A script that binds `void` -/

/-- A function without parameters and without a result. -/
def nothing : Callable := .function "nothing" [] voidType

/-- A template whose instances are constructed from a value of the type argument, but do not hold it. -/
def tagTemplate : TemplateEntry :=
  .named "Tag" ["T"] [] (some [⟨"value", (TemplateEntry.parameter (.ofTypeName "Tag") "T").id, none⟩])

/-- The primitive types, the template and the function. -/
def tagRegistry : Registry :=
  ((Registry.withPrimitives .w32).putType (.template tagTemplate)).putFunction nothing

/-- A script that passes the call of the function to a function and to a constructor. -/
def voidScript : Script :=
  [.plain "take" [("x", .plain "void" [])] none [],
   .plain "main" [] none
    [.expr (.plainCall "take" [.plainCall "nothing" []]) .nowhere,
     .expr (.plainNew 0 "Tag" [.plain "void" []] [.plainCall "nothing" []]) .nowhere]]

theorem usable_tagRegistry : tagRegistry.Usable := by
  have htag : (Registry.withPrimitives .w32).registerType (.template tagTemplate) =
      .ok ((Registry.withPrimitives .w32).putType (.template tagTemplate)) :=
    Registry.registerType_eq_ok_iff.2 ⟨by decide +kernel, by decide +kernel, rfl⟩
  have hnothing : ((Registry.withPrimitives .w32).putType
      (.template tagTemplate)).registerFunction nothing = .ok tagRegistry :=
    Registry.registerFunction_eq_ok_iff.2 ⟨by decide +kernel, by decide +kernel, rfl⟩
  have hext := (Registry.Extends.of_registerType htag).trans (.of_registerFunction hnothing)
  exact .of_toList
    (((Registry.Built.withPrimitives .w32).step (.registerType htag)).step
      (.registerFunction hnothing))
    ((Registry.hasPrimitives_withPrimitives .w32).extends hext) (by decide +kernel) (by decide +kernel)
    (by decide +kernel)

/-- The script is accepted, though the function and the constructor bind `void`. -/
theorem Script.sized_iff_void :
    tagRegistry.Usable ∧
      (∀ {template id : Fingerprint} {args : List Fingerprint},
        (voidScript.lowered {} tagRegistry).2.symbols.instances.find? template args = some id →
          args ≠ [] → ((voidScript.compile {} tagRegistry).registry.class? id).isSome) ∧
      (voidScript.compile {} tagRegistry).errors = [] ∧ ¬ voidScript.Sized {} tagRegistry := by
  have hinstances : ∀ q ∈ (voidScript.lowered {} tagRegistry).2.symbols.instances.table.toList,
      q.1.tail ≠ [] → ((voidScript.compile {} tagRegistry).registry.class? q.2).isSome := by
    decide +kernel
  have hvoid : ¬ ∀ q ∈ (declareFunctions voidScript { registry := tagRegistry }).1.1,
      ∀ p ∈ q.2.params, p.type ≠ voidType := by
    decide +kernel
  refine ⟨usable_tagRegistry, fun hfind ↦ forall_getElem? hinstances hfind, by decide +kernel,
    fun hsized ↦ hvoid ?_⟩
  exact ((sized_iff {} tagRegistry voidScript usable_tagRegistry
    fun hfind ↦ forall_getElem? hinstances hfind).1 hsized).1

end StackLowering
