import StackLowering.Proofs.Lowering.Compilation

/-!
# Compiled scripts use the stack as they should

Every function that a script is compiled to can be decoded and verified (`Script.verify`), from every
registry in which functions can be called, and whatever the options are.

Some things are asked for besides. A script may not call a constructor by its name, which would leave
out the object, and it may not declare a variable with the name of a temporary. The primitive types
have to be registered. The constructor of a class and the instance of a template are found by their
hashes, so nothing else may be found there. The places of constants and variables have to fit into 16
bits.

## What the proof rests on

* The code of every function leads from an empty stack to an empty stack. Both the registry and the
  slots that this is said of are those at the end, since types and functions are never taken away
  (`Script.grows`).
* The bytes are decoded to that code with its places cut to 16 bits, and the check passes for the one
  as it passes for the other (`CodeContext.check?_indexed`).

What is asked of the registry at the start and of that at the end is decided from the entries of their
maps (`Registry.Usable.of_toList`, `Script.EndsWell.of_toList`). `Script.verify_eq_false` has functions
that are not verified: for want of a primitive type, because a constructor is called by its name,
because a variable has the name of a temporary, and because something else has the hash of a
constructor or of an instance.
-/

namespace StackLowering

/-- A registry that a host can build, with the primitive types, in which every function and every
constructor of a template can be called. -/
structure Registry.Usable (r : Registry) : Prop where
  built : r.Built
  primitives : r.HasPrimitives
  params : ∀ {id : Fingerprint} {f : Callable}, r.functions[id]? = some f →
    ∀ p ∈ f.params, (r.layout? p.type).isSome
  returns : ∀ {id : Fingerprint} {f : Callable}, r.functions[id]? = some f →
    f.returns = voidType ∨ (r.layout? f.returns).isSome
  templates : ∀ {id : Fingerprint} {t : TemplateEntry} {params : List Param},
    r.types[id]? = some (.template t) → t.constructor? = some params →
      ∀ p ∈ params, (r.layout? p.type).isSome ∨ ∃ q ∈ t.params, q.id = p.type

namespace Script

/-- The lowered functions of a script and the state after the last one. -/
def lowered (options : CompilerOptions) (registry : Registry) (script : Script) :
    List LoweredFunction × LoweringState :=
  lowerFunctions options (declareFunctions script { registry }).1.1
    { symbols := (declareFunctions script { registry }).2 }

/-- What has to be true of the registry after a compilation. The constructor of every class is built
as one, the symbol of the allocator is free, and every instance with type arguments is a class. The
pool and the frames fit into the 16 bits that an instruction has for a place. -/
structure EndsWell (options : CompilerOptions) (registry : Registry) (script : Script) : Prop where
  constructors : ∀ {id : Fingerprint} {f : Callable},
    (script.compile options registry).registry.constructorOf? id = some f →
      f.isConstructor ∧ f.returns = addressType
  allocator : (script.compile options registry).registry.functionNamed? options.allocator = none
  instances : ∀ {template id : Fingerprint} {args : List Fingerprint},
    (script.lowered options registry).2.symbols.instances.find? template args = some id →
      args ≠ [] → ((script.compile options registry).registry.class? id).isSome
  pool : (script.compile options registry).pool.size ≤ 65536
  locals : ∀ f ∈ (script.compile options registry).functions, f.locals.size ≤ 65536

/-- Whether all functions that a script is compiled to can be decoded and verified. -/
def verify (options : CompilerOptions) (registry : Registry) (script : Script) : Bool :=
  let c := script.compile options registry
  c.functions.all (·.verify options.allocator c.registry c.pool)

/-- The names that no constructor has after a compilation. -/
def Callee (options : CompilerOptions) (registry : Registry) (script : Script) (name : String) :
    Prop :=
  ∀ f, (script.compile options registry).registry.functionNamed? name = some f →
    f.isConstructor = false

variable {options : CompilerOptions} {registry : Registry} {script : Script}

/-- What the code of the functions is checked against. -/
def ending (options : CompilerOptions) (registry : Registry) (script : Script) : Ending :=
  ⟨options.allocator, (script.lowered options registry).2.symbols, #[], voidType⟩

/-- Compilation makes the symbols grow. -/
theorem grows (options : CompilerOptions) (registry : Registry) (script : Script) :
    Symbols.Grows { registry } (script.ending options registry).symbols :=
  .of_changes (script.changes_compile options registry)

theorem EndsWell.sound (h : script.EndsWell options registry) (hr : registry.Usable) :
    (script.ending options registry).Sound := by
  have hgrows := script.grows options registry
  exact ⟨hgrows.built hr.built, hr.primitives.extends (hgrows.extend hr.built).registry,
    h.constructors, h.allocator, h.instances, Nat.zero_le _⟩

/-- A usable registry fits what compilation leads to. -/
theorem fits (hr : registry.Usable) :
    Symbols.Fits { registry } (script.ending options registry) := by
  have hext : Symbols.Extends { registry } (script.ending options registry).symbols :=
    (script.grows options registry).extend hr.built
  have hsized {type : Fingerprint} (h : (registry.layout? type).isSome) :
      (script.ending options registry).Sized type :=
    hext.registry.layout?_isSome h
  refine ⟨hr.built, hext, fun hf ↦ ⟨fun p hp ↦ hsized (hr.params hf p hp), ?_⟩, ?_⟩
  · exact (hr.returns hf).imp id hsized
  · exact fun ht hparams p hp ↦ (hr.templates ht hparams p hp).imp hsized id

/-- The symbols after the declarations of the functions are before those at the end. -/
theorem extends_declareFunctions (options : CompilerOptions) (script : Script)
    (hr : registry.Built) :
    (declareFunctions script { registry }).2.Extends (script.ending options registry).symbols :=
  (Symbols.Grows.lowerFunctions options (declareFunctions script { registry }).1.1
    { symbols := (declareFunctions script { registry }).2 }).extend
      ((Symbols.Grows.declareFunctions script { registry }).built hr)

/-- Every function that a script is compiled to can be decoded and verified, provided that it calls no
constructor by its name and declares no variable with the name of a temporary. -/
theorem verify_eq_true (options : CompilerOptions) (registry : Registry) (script : Script)
    (hr : registry.Usable) (hscript : ∀ d ∈ script, d.Admissible (script.Callee options registry))
    (h : script.EndsWell options registry) : script.verify options registry = true := by
  have hE := h.sound hr
  obtain ⟨hs, hdeclared⟩ :=
    fits_declareFunctions hE hscript (fits hr) (extends_declareFunctions options script hr.built)
  have hslots : ∀ g ∈ (script.lowered options registry).1, g.locals.size ≤ 65536 := by
    intro g hg
    have hmem : g.locals ∈ (script.compile options registry).functions.map (·.locals) := by
      rw [show (script.compile options registry).functions.map (·.locals) =
        (script.lowered options registry).1.map (·.locals) from map_locals_assembleFunctions _ _]
      exact List.mem_map_of_mem hg
    obtain ⟨f, hf, heq⟩ := List.mem_map.1 hmem
    exact heq ▸ h.locals f hf
  -- the symbolic code of every function runs from an empty stack to an empty stack
  have hlowered := sound_lowerFunctions hE options rfl
    (fun q hq ↦ ⟨hscript q.1 (hdeclared q hq).1, (hdeclared q hq).2⟩) hs (.refl _) hslots
  refine List.all_eq_true.2 fun c hc ↦ ?_
  obtain ⟨g, hg, hname, hlocals, hconstants, hcode⟩ := assembledTo_assembleFunctions c hc
  obtain ⟨q, hq, hgname, hruns⟩ := hlowered g hg
  have hnamed := (hdeclared q hq).2.named
  -- so does what the bytes are decoded to, with the places of the pool in the end
  have hpool : (script.compile options registry).pool.Indexed :=
    indexed_assembleFunctions ConstantPool.indexed_empty (Nat.le_trans h.pool (by decide))
  have hcheck := CodeContext.check?_indexed hpool h.pool (hslots g hg) hconstants hruns.check?
  have hdecode : decode c.chunk.code = .ok (g.output.instructions.map fun i ↦
      (i.indexed (script.compile options registry).pool).truncated) := by
    rw [hcode, decode_encodeAll, List.map_map]
    rfl
  have hcallee : (script.compile options registry).registry.functionNamed? c.name = some q.2 := by
    rw [hname, hgname]
    exact hnamed
  rw [CompiledFunction.verify, hdecode, hcallee, hlocals]
  exact hcheck

instance (name : String) : Decidable (script.Callee options registry name) :=
  decidable_of_iff
    (((script.compile options registry).registry.functionNamed? name).all (!·.isConstructor) = true)
    (by simp [Callee, Option.all_eq_true])

end Script

/-! ### Entries of a map -/

/-- What holds of all entries of a map holds of everything that is found in it. -/
theorem forall_getElem? {α β : Type} [Ord α] [Std.TransOrd α] [Std.LawfulEqOrd α]
    {m : Std.ExtTreeMap α β} {p : α × β → Prop} (h : ∀ q ∈ m.toList, p q) {a : α} {b : β}
    (hb : m[a]? = some b) : p (a, b) :=
  h _ (Std.ExtTreeMap.mem_toList_iff_getElem?_eq_some.2 hb)

/-- Whether a registry can be used can be found out from the entries of its maps. -/
theorem Registry.Usable.of_toList {r : Registry} (hbuilt : r.Built) (hprimitives : r.HasPrimitives)
    (hparams : ∀ q ∈ r.functions.toList, ∀ p ∈ q.2.params, (r.layout? p.type).isSome)
    (hreturns : ∀ q ∈ r.functions.toList, q.2.returns = voidType ∨ (r.layout? q.2.returns).isSome)
    (htemplates : ∀ q ∈ r.types.toList, ∀ t ∈ q.2.template?, ∀ params ∈ t.constructor?, ∀ p ∈ params,
      (r.layout? p.type).isSome ∨ ∃ q ∈ t.params, q.id = p.type) :
    r.Usable :=
  ⟨hbuilt, hprimitives, fun hf ↦ forall_getElem? hparams hf, fun hf ↦ forall_getElem? hreturns hf,
    fun ht hconstructor ↦ forall_getElem? htemplates ht _ rfl _ hconstructor⟩

/-- Whether a compilation ends well can be found out from the entries of its maps. -/
theorem Script.EndsWell.of_toList {options : CompilerOptions} {registry : Registry} {script : Script}
    (hconstructors : ∀ q ∈ (script.compile options registry).registry.types.toList,
      ∀ f ∈ (q.2.class?.bind (·.constructor?)).bind
        (script.compile options registry).registry.function?, f.isConstructor ∧ f.returns = addressType)
    (hallocator : (script.compile options registry).registry.functionNamed? options.allocator = none)
    (hinstances : ∀ q ∈ (script.lowered options registry).2.symbols.instances.table.toList,
      q.1.tail ≠ [] → ((script.compile options registry).registry.class? q.2).isSome)
    (hpool : (script.compile options registry).pool.size ≤ 65536)
    (hlocals : ∀ f ∈ (script.compile options registry).functions, f.locals.size ≤ 65536) :
    script.EndsWell options registry := by
  refine ⟨fun {id f} hf ↦ ?_, hallocator, fun hfind ↦ forall_getElem? hinstances hfind, hpool, hlocals⟩
  obtain ⟨k, hk, hf⟩ := Option.bind_eq_some_iff.1 hf
  obtain ⟨c, hc, hk⟩ := Option.bind_eq_some_iff.1 hk
  obtain ⟨e, he, hc⟩ := Option.bind_eq_some_iff.1 hc
  exact forall_getElem? hconstructors he f (by simp [hc, hk, hf])

/-! ### Scripts at no place -/

/-- A name at no place. -/
def Ident.plain (name : String) : Ident := ⟨name, .nowhere⟩

/-- A type at no place. -/
def TypeExpr.plain (name : String) (args : List TypeExpr) : TypeExpr := .apply (.plain name) args .nowhere

namespace Expr

/-- A variable at no place. -/
def plainVar (name : String) : Expr := .var (.plain name) .nowhere

/-- A call at no place. -/
def plainCall (callee : String) (args : List Expr) : Expr := .call (plainVar callee) args .nowhere

/-- A construction at no place. -/
def plainNew (node : NodeId) (callee : String) (typeArgs : List TypeExpr) (args : List Expr) : Expr :=
  .construct node (some (plainVar callee)) (some typeArgs) (some args) .nowhere

/-- The integer one. -/
def one : Expr := .literal (.int 1) .nowhere

end Expr

/-- A function at no place. -/
def FunctionDecl.plain (name : String) (params : List (String × TypeExpr))
    (returns : Option TypeExpr) (body : List Stmt) : FunctionDecl :=
  ⟨.plain name, params.map fun (p, type) ↦ ⟨.plain p, type, .nowhere⟩, returns, body, .nowhere⟩

/-! ### A class and a script -/

/-- A constructor with one parameter. -/
def pointConstructor : Callable :=
  .constructor "Point" (.ofTypeName "Point") [⟨"x", Primitive.int32.fingerprint, none⟩]

/-- A class with this constructor. -/
def pointClass : ClassEntry := .named "Point" [] (some pointConstructor.id)

/-- The primitive types and the class. -/
def pointRegistry : Registry :=
  ((Registry.withPrimitives .w32).putType (.object pointClass)).putFunction pointConstructor

/-- A script that calls a function, and constructs an object and an array. -/
def pointScript : Script :=
  [.plain "same" [("x", .plain "int" [])] (some (.plain "int" [])) [.ret (some (.plainVar "x")) .nowhere],
   .plain "main" [] none
    [.declare (.plain "p") none (.plainNew 0 "Point" [] [.plainCall "same" [.one]]) .nowhere,
     .expr (.plainNew 1 "Array" [.plain "double" []] [.one]) .nowhere]]

theorem usable_pointRegistry : pointRegistry.Usable := by
  have hclass : (Registry.withPrimitives .w32).registerType (.object pointClass) =
      .ok ((Registry.withPrimitives .w32).putType (.object pointClass)) :=
    Registry.registerType_eq_ok_iff.2 ⟨by decide +kernel, by decide +kernel, rfl⟩
  have hconstructor : ((Registry.withPrimitives .w32).putType
      (.object pointClass)).registerFunction pointConstructor = .ok pointRegistry :=
    Registry.registerFunction_eq_ok_iff.2 ⟨by decide +kernel, by decide +kernel, rfl⟩
  have hext := (Registry.Extends.of_registerType hclass).trans (.of_registerFunction hconstructor)
  exact .of_toList
    (((Registry.Built.withPrimitives .w32).step (.registerType hclass)).step
      (.registerFunction hconstructor))
    ((Registry.hasPrimitives_withPrimitives .w32).extends hext) (by decide +kernel) (by decide +kernel)
    (by decide +kernel)

theorem endsWell_pointScript : pointScript.EndsWell {} pointRegistry :=
  .of_toList (by decide +kernel) (by decide +kernel) (by decide +kernel) (by decide +kernel)
    (by decide +kernel)

theorem admissible_pointScript :
    ∀ d ∈ pointScript, d.Admissible (pointScript.Callee {} pointRegistry) := by
  have hint : (TypeExpr.plain "int" []).Storable := .apply (by decide) (by simp)
  have hdouble : (TypeExpr.plain "double" []).Storable := .apply (by decide) (by simp)
  have hsame : Expr.Admissible (pointScript.Callee {} pointRegistry) (.plainCall "same" [.one]) :=
    .call (by decide +kernel) (by simpa using .literal _ _)
  intro d hd
  simp only [pointScript, List.mem_cons, List.not_mem_nil, or_false] at hd
  rcases hd with rfl | rfl
  · refine ⟨?_, ?_, ?_, ?_⟩
    · simp [FunctionDecl.plain, Ident.plain, IsTemporary, countTemporary, addressTemporary]
    · simpa [FunctionDecl.plain] using hint
    · simpa [FunctionDecl.plain] using hint.argsStorable
    · simpa [FunctionDecl.plain, Stmt.Admissible] using .var _ _
  · refine ⟨by simp [FunctionDecl.plain], by simp [FunctionDecl.plain], by simp [FunctionDecl.plain],
      ?_⟩
    have hpoint : Expr.Admissible (pointScript.Callee {} pointRegistry)
        (.plainNew 0 "Point" [] [.plainCall "same" [.one]]) :=
      .construct (by simp) (by simpa using hsame)
    have harray : Expr.Admissible (pointScript.Callee {} pointRegistry)
        (.plainNew 1 "Array" [.plain "double" []] [.one]) :=
      .construct (by simpa using hdouble) (by simpa using .literal _ _)
    simp [FunctionDecl.plain, Stmt.Admissible, hpoint, harray, Ident.plain, IsTemporary,
      countTemporary, addressTemporary]

/-- The functions of the script are verified. -/
theorem Script.verify_eq_true_point :
    pointRegistry.Usable ∧ pointScript.EndsWell {} pointRegistry ∧
      (∀ d ∈ pointScript, d.Admissible (pointScript.Callee {} pointRegistry)) ∧
      pointScript.verify {} pointRegistry = true :=
  ⟨usable_pointRegistry, endsWell_pointScript, admissible_pointScript,
    verify_eq_true {} pointRegistry pointScript usable_pointRegistry admissible_pointScript
      endsWell_pointScript⟩

/-! ### Scripts whose functions are not verified -/

/-- A script that calls the constructor by its name. -/
def directScript : Script := [.plain "main" [] none [.expr (.plainCall "Point#ctor" [.one]) .nowhere]]

/-- A script that declares a variable with the name of a temporary and then constructs an array. -/
def shadowScript : Script :=
  [.plain "main" [] none
    [.declare (.plain countTemporary) none (.literal (.double 0) .nowhere) .nowhere,
     .expr (.plainNew 0 "Array" [.plain "int" []] [.one]) .nowhere]]

/-- A script that declares a variable. -/
def variableScript : Script := [.plain "main" [] none [.declare (.plain "x") none .one .nowhere]]

/-- A script that declares a function, and constructs an object of a class. -/
def makeScript : Script :=
  [.plain "make" [("x", .plain "int" [])] none [],
   .plain "main" [] none [.expr (.plainNew 0 "Point" [] [.one]) .nowhere]]

/-- A registry with a class whose constructor has the hash of the function. -/
def makeRegistry : Registry :=
  let make := Callable.function "make" [⟨"x", Primitive.int32.fingerprint, none⟩] voidType
  (Registry.withPrimitives .w32).putType (.object (.named "Point" [] (some make.id)))

/-- A script that declares a function with an instance as a parameter, and calls it. -/
def instanceScript : Script :=
  [.plain "take" [("x", .plain "Box" [.plain "int" []])] none [],
   .plain "main" [] none [.expr (.plainCall "take" [.one]) .nowhere]]

/-- A registry with a template that has the hash of the instance. -/
def instanceRegistry : Registry :=
  let id := Fingerprint.ofInstance Symbols.boxTemplate.id [Primitive.int32.fingerprint]
  Symbols.boxRegistry.putType (.template { Symbols.boxTemplate with name := "Crate", id })

theorem endsWell_directScript : directScript.EndsWell {} pointRegistry :=
  .of_toList (by decide +kernel) (by decide +kernel) (by decide +kernel) (by decide +kernel)
    (by decide +kernel)

/-- Code that calls a constructor without an object is not verified, though nothing else is wrong with
the script and the registry. Neither is code that keeps a count in a slot for another type, that keeps
a value in a slot for an unknown type, that calls a function in the place of a constructor, or that
calls a function with a template in the place of an instance. -/
theorem Script.verify_eq_false :
    (pointRegistry.Usable ∧ directScript.EndsWell {} pointRegistry ∧
      (∀ d ∈ directScript, d.Admissible fun _ ↦ True) ∧
      directScript.verify {} pointRegistry = false) ∧
    shadowScript.verify {} pointRegistry = false ∧
    variableScript.verify {} (.empty .w32) = false ∧
    makeScript.verify {} makeRegistry = false ∧
    instanceScript.verify {} instanceRegistry = false := by
  have hcall : Expr.Admissible (fun _ ↦ True) (.plainCall "Point#ctor" [.one]) :=
    .call trivial (by simpa using .literal _ _)
  have hdirect : ∀ d ∈ directScript, d.Admissible fun _ ↦ True := by
    intro d hd
    obtain rfl := List.mem_singleton.1 hd
    refine ⟨by simp [FunctionDecl.plain], by simp [FunctionDecl.plain], by simp [FunctionDecl.plain],
      ?_⟩
    simpa [FunctionDecl.plain, Stmt.Admissible] using hcall
  refine ⟨⟨usable_pointRegistry, endsWell_directScript, hdirect, by decide +kernel⟩, ?_, ?_, ?_, ?_⟩
  · decide +kernel
  · decide +kernel
  · decide +kernel
  · decide +kernel

end StackLowering
