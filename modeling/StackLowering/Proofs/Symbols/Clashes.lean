import StackLowering.Proofs.Symbols.ClosedTypes
import StackLowering.Proofs.Symbols.Transparency

/-!
# Clashes of instances

If a host gives simple names to all types that it registers, and instances are requested of registered
arguments only (`Symbols.Orderly`), the registry is legible whatever happens
(`Registry.Legible.performAll`). So different instances have different names, and the symbols of their
constructors are different (`Symbols.instances_apart`).

A request may fail all the same. A constructor is registered under its identity as well, and that is a
fingerprint of 64 bits, which the constructors of two instances may share. Two names of eight letters,
found by search, show that this can happen to instances that nothing else has in common
(`Symbols.instantiate_clashingBoxes`). So the theorem names the three things that a request can meet:
the instance is there, it is created, or its constructor has the identity of another one.

The condition on the operations is about each operation in the state in which it is performed, so that
an instance may be the argument of a later request, and it is a recursion along the operations.
-/

namespace StackLowering

/-! ### Orderly histories -/

/-- Whether the host gives a simple name to what it registers, and a request is made for registered
arguments. Primitive types are registered at the start only. -/
def SymbolsOperation.Orderly (r : Registry) : SymbolsOperation → Prop
  | .host .registerPrimitives => False
  | .host (.registerType entry) => SimpleName entry.name
  | .host (.registerFunction _) => True
  | .host (.layOutClass _) => True
  | .host (.pushField _ _) => True
  | .request _ args _ => ∀ arg ∈ args, (r.type? arg).isSome

instance (r : Registry) : (operation : SymbolsOperation) → Decidable (operation.Orderly r)
  | .host .registerPrimitives => inferInstanceAs (Decidable False)
  | .host (.registerType entry) => inferInstanceAs (Decidable (SimpleName entry.name))
  | .host (.registerFunction _) => inferInstanceAs (Decidable True)
  | .host (.layOutClass _) => inferInstanceAs (Decidable True)
  | .host (.pushField _ _) => inferInstanceAs (Decidable True)
  | .request _ args _ => inferInstanceAs (Decidable (∀ arg ∈ args, (r.type? arg).isSome))

/-- Whether some operations in a row are orderly where each of them happens. -/
def Symbols.Orderly (s : Symbols) : List SymbolsOperation → Prop
  | [] => True
  | operation :: operations =>
    operation.Orderly s.registry ∧ (s.perform operation).Orderly operations

instance Symbols.decidableOrderly (s : Symbols) :
    (operations : List SymbolsOperation) → Decidable (s.Orderly operations)
  | [] => inferInstanceAs (Decidable True)
  | operation :: operations =>
    have := decidableOrderly (s.perform operation) operations
    inferInstanceAs (Decidable (operation.Orderly s.registry ∧ _))

namespace Registry.Legible

variable {r : Registry} {s : Symbols} {template : Fingerprint} {t : TemplateEntry}
  {args : List Fingerprint} {span : Span} {H : Callable → Prop}

/-- A host starts with a legible registry. -/
theorem start (h : r.Start) : r.Legible H := by
  have hempty (width : Width) : (Registry.empty width).Legible H :=
    of_simple (.empty width) (by simp [Registry.empty]) (by simp [Registry.empty])
  cases h with
  | empty width => exact hempty width
  | withPrimitives width =>
    have hsimple (p : Primitive) : SimpleName p.name := by
      cases p <;> decide
    -- names stay simple and no function appears while the primitive types are entered
    have hall : (∀ {id : Fingerprint} {e : TypeEntry},
        (Registry.withPrimitives width).types[id]? = some e → SimpleName e.name) ∧
        (Registry.withPrimitives width).functions = ∅ := by
      refine putPrimitives_induction (P := fun r ↦ (∀ {id : Fingerprint} {e : TypeEntry},
        r.types[id]? = some e → SimpleName e.name) ∧ r.functions = ∅) (fun r p hr ↦ ?_)
        ⟨by simp [Registry.empty], rfl⟩
      refine ⟨fun he ↦ ?_, hr.2⟩
      rw [types_putType] at he
      split at he
      · exact Option.some.inj he ▸ hsimple p
      · exact hr.1 he
    exact of_simple (indexed_withPrimitives width) hall.1 (by simp [hall.2])

/-- The operations of a host keep the registry legible. -/
theorem perform (h : r.Legible H) {operation : HostOperation}
    (horderly : SymbolsOperation.Orderly r (.host operation))
    (hH : ∀ f, operation = .registerFunction f → H f) : (r.perform operation).Legible H := by
  cases operation with
  | registerPrimitives => exact horderly.elim
  | registerType entry =>
    rw [Registry.perform]
    cases hr : r.registerType entry with
    | error error => exact h
    | ok r' => exact h.registerType_of_simple horderly hr
  | registerFunction f =>
    rw [Registry.perform]
    cases hr : r.registerFunction f with
    | error error => exact h
    | ok r' => exact h.registerFunction hr (.inl (hH f rfl))
  | layOutClass id =>
    rw [Registry.perform]
    cases hr : r.layOutClass id with
    | error error => exact h
    | ok out =>
      obtain ⟨size, r'⟩ := out
      rcases layOutClass_eq_ok hr with ⟨c, hc, rfl | ⟨-, layouts, -, rfl⟩⟩
      · exact h
      · exact h.setClass hc rfl rfl
  | pushField id field =>
    rw [Registry.perform]
    cases hr : r.pushField? id field with
    | none => exact h
    | some r' =>
      obtain ⟨c, hc, rfl⟩ := Option.map_eq_some_iff.1 hr
      exact h.setClass (class?_eq_some_iff.1 hc) rfl rfl

/-- A request for registered arguments keeps the registry legible. -/
theorem instantiate (h : s.registry.Legible H) (hargs : ∀ arg ∈ args, (s.registry.type? arg).isSome)
    (template : Fingerprint) (span : Span) :
    (s.instantiate template args span).2.registry.Legible H := by
  have hanswer := Symbols.answer_instantiate s template args span
  generalize s.instantiate template args span = out at hanswer
  cases hanswer with
  | remembered => exact h
  | adopted => exact h
  | unknown => exact h
  | refused => exact h
  | classRefused => exact h
  | constructorRefused _ htemplate _ hclass =>
    obtain rfl := h.indexed.type_id htemplate
    exact h.registerInstance htemplate hargs rfl rfl hclass
  | @created t r r' _ htemplate _ hclass hf =>
    obtain rfl := h.indexed.type_id htemplate
    have hr : r.Legible H := h.registerInstance htemplate hargs rfl rfl hclass
    rcases hf with ⟨-, rfl⟩ | ⟨f, hnew, hf⟩
    · exact hr
    · have hc : r.types[(s.newClass t args).id]? = some (.object (s.newClass t args)) :=
        Symbols.type?_of_registerType hclass
      refine hr.registerFunction hf (.inr ⟨_, Option.isSome_of_mem hc, ?_⟩)
      rw [typeName_of_types hc]
      exact Request.name_constructor (q := ⟨t, args⟩) hnew

/-- Orderly operations keep the registry legible. -/
theorem performAll {operations : List SymbolsOperation} (h : s.registry.Legible H)
    (horderly : s.Orderly operations)
    (hH : ∀ f, .host (.registerFunction f) ∈ operations → H f) :
    (s.performAll operations).registry.Legible H := by
  induction operations generalizing s with
  | nil => exact h
  | cons operation operations ih =>
    obtain ⟨hfirst, hrest⟩ := horderly
    refine ih ?_ hrest fun f hf ↦ hH f (List.mem_cons_of_mem operation hf)
    cases operation with
    | host operation =>
      refine h.perform hfirst ?_
      rintro f rfl
      exact hH f List.mem_cons_self
    | request template args span => exact h.instantiate hfirst template span

/-! ### Requests in legible registries -/

/-- What stands in the way of the constructor of an instance that is not registered is a function in `H`
with its symbol, or a function with its identity. -/
theorem constructor_taken (h : s.registry.Legible H)
    (htemplate : s.registry.type? t.id = some (.template t))
    (hargs : ∀ arg ∈ args, (s.registry.type? arg).isSome)
    (hreg : s.registry.type? (.ofInstance t.id args) = none) {f : Callable} {r : Registry}
    {error : RegistrationError} (hnew : s.newConstructor? t args = some f)
    (hclass : s.registry.registerType (.object (s.newClass t args)) = .ok r)
    (hf : r.registerFunction f = .error error) :
    (∃ g, H g ∧ s.registry.function? g.id = some g ∧ g.name = f.name) ∨
      (s.registry.function? f.id).isSome := by
  have hname : f.name = Callable.constructorName (s.registry.instanceName t.name args) :=
    Request.name_constructor (q := ⟨t, args⟩) hnew
  obtain ⟨-, -, rfl⟩ := registerType_eq_ok_iff.1 hclass
  cases hid : s.registry.functions[f.id]? with
  | some g => exact .inr (Option.isSome_of_mem hid)
  | none =>
    cases hsymbol : s.registry.functionNames[f.name]? with
    | some k =>
      obtain ⟨g, hg, hgname⟩ := h.indexed.functionNames_iff.1 hsymbol
      have hgid := h.indexed.function_id hg
      exact .inl ⟨g, h.symbol_taken htemplate hargs hreg hg (hgname.trans hname), hgid ▸ hg, hgname⟩
    | none =>
      have hok : (s.registry.putType (.object (s.newClass t args))).registerFunction f = .ok _ :=
        registerFunction_eq_ok_iff.2 ⟨hid, hsymbol, rfl⟩
      simp [hok] at hf

/-- A request with as many registered arguments as the template has parameters is answered with the
instance, unless the constructor of the instance is refused. -/
theorem instantiate_eq_ok_or (h : s.registry.Legible H) (hs : s.Faithful)
    (htemplate : s.registry.type? t.id = some (.template t)) (hlength : args.length = t.arity)
    (hargs : ∀ arg ∈ args, (s.registry.type? arg).isSome) (span : Span) :
    (s.instantiate t.id args span).1 = .ok (.ofInstance t.id args) ∨
      ∃ f, s.newConstructor? t args = some f ∧
        (s.instantiate t.id args span).1 = .error (.registration (.duplicateFunction f.name) span) ∧
        ((∃ g, H g ∧ s.registry.function? g.id = some g ∧ g.name = f.name) ∨
          (s.registry.function? f.id).isSome) := by
  cases hreg : s.registry.type? (.ofInstance t.id args) with
  | some e =>
    refine .inl ?_
    cases hfind : s.instances.find? t.id args with
    | some id => rw [Symbols.instantiate_of_find? hfind, hs.id_eq hfind]
    | none => rw [Symbols.instantiate_of_type? hfind (Option.isSome_of_mem hreg)]
  | none =>
    have hsame {t' : TemplateEntry} (ht : s.registry.type? t.id = some (.template t')) : t = t' :=
      TypeEntry.template.inj (Option.some.inj (htemplate.symm.trans ht))
    have hanswer := Symbols.answer_instantiate s t.id args span
    generalize s.instantiate t.id args span = out at hanswer ⊢
    cases hanswer with
    | remembered hfind => simp [hs.find?_eq_none hreg] at hfind
    | adopted => exact .inl rfl
    | unknown _ _ hnone => simp [hnone] at htemplate
    | refused _ _ hentry herror =>
      obtain rfl := Option.some.inj (hentry.symm.trans htemplate)
      exact absurd herror (by simp [TypeEntry.refusal?, hlength])
    | classRefused _ ht _ hclass =>
      -- neither the identity nor the name of the class is taken
      obtain rfl := hsame ht
      have hok : s.registry.registerType (.object (s.newClass t args)) = .ok _ :=
        registerType_eq_ok_iff.2 ⟨hreg, h.typeNames_eq_none htemplate hargs hreg, rfl⟩
      simp [hok] at hclass
    | constructorRefused _ ht _ hclass hnew hf =>
      obtain rfl := hsame ht
      obtain rfl := registerFunction_eq_error hf
      exact .inr ⟨_, hnew, rfl, h.constructor_taken htemplate hargs hreg hnew hclass hf⟩
    | created _ ht =>
      obtain rfl := hsame ht
      exact .inl rfl

end Registry.Legible

/-! ### Different instances -/

/-- A request that can be made of a registry: for a registered template at registered arguments. -/
structure Request.Possible (q : Request) (r : Registry) : Prop where
  template : r.type? q.template.id = some (.template q.template)
  args : ∀ arg ∈ q.args, (r.type? arg).isSome

/-- Requests with the same name are for the same template at the same arguments. -/
theorem Registry.Legible.request_ext {r : Registry} {H : Callable → Prop} (h : r.Legible H)
    {q q' : Request} (hq : q.Possible r) (hq' : q'.Possible r) (hnil : q.args = [] ↔ q'.args = [])
    (heq : q.name r = q'.name r) : q = q' := by
  have hbase : r.typeName q.template.id = q.template.name := typeName_of_types hq.template
  have hbase' : r.typeName q'.template.id = q'.template.name := typeName_of_types hq'.template
  have hsimple := h.simple_of_template hq.template
  have hsimple' := h.simple_of_template hq'.template
  rw [← hbase] at hsimple
  rw [← hbase'] at hsimple'
  rw [Request.name, Request.name, ← hbase, ← hbase'] at heq
  obtain ⟨hid, hargs⟩ := h.instanceName_inj (Option.isSome_of_mem hq.template)
    (Option.isSome_of_mem hq'.template) hsimple hsimple' hq.args hq'.args hnil heq
  have htemplate := hq'.template
  rw [← hid, hq.template] at htemplate
  exact congrArg₂ Request.mk (TypeEntry.template.inj (Option.some.inj htemplate)) hargs

namespace Symbols

/-- Closed types are told apart by their names, and the names of instances are such names. So after
orderly operations every registered type is named like one closed type only, and instances of different
templates or at different arguments differ in their names and in the symbols of their constructors. A
request that can be made is answered with the instance, unless the constructor is refused; and then the
host has registered a function with the symbol of the constructor, or some function has its identity. -/
theorem instances_apart {start : Registry} (hstart : start.Start)
    {operations : List SymbolsOperation}
    (horderly : ({ registry := start } : Symbols).Orderly operations) :
    let s := ({ registry := start } : Symbols).performAll operations
    Function.Injective ClosedType.display ∧
      (∀ (r : Registry) (args : List Fingerprint) (first : ClosedType) (rest : List ClosedType),
        args.map r.typeName = (first :: rest).map ClosedType.display →
          ∀ (template : String) (simple : SimpleName template),
            r.instanceName template args = (ClosedType.apply template simple first rest).display) ∧
      (∀ id, (s.registry.type? id).isSome →
        ∃! a : ClosedType, a.display = s.registry.typeName id) ∧
      (∀ q q' : Request, q.Possible s.registry → q'.Possible s.registry → q.args ≠ [] →
        q'.args ≠ [] → q ≠ q' →
          q.name s.registry ≠ q'.name s.registry ∧
            Callable.constructorName (q.name s.registry) ≠
              Callable.constructorName (q'.name s.registry)) ∧
      ∀ (q : Request) (span : Span), q.Possible s.registry → q.args.length = q.template.arity →
        (s.instantiate q.template.id q.args span).1 = .ok q.id ∨
          ∃ f, q.constructor? s.registry = some f ∧
            (s.instantiate q.template.id q.args span).1 =
              .error (.registration (.duplicateFunction f.name) span) ∧
            ((∃ g, .host (.registerFunction g) ∈ operations ∧
                s.registry.function? g.id = some g ∧ g.name = f.name) ∨
              (s.registry.function? f.id).isSome) := by
  intro s
  have hlegible : s.registry.Legible fun f ↦ .host (.registerFunction f) ∈ operations :=
    (Registry.Legible.start hstart).performAll horderly fun _ ↦ id
  have hfaithful : s.Faithful :=
    ((Reliable.forget hstart.built.indexed.keyed).performAll operations).faithful
  refine ⟨ClosedType.display_injective, fun r args first rest hnames template simple ↦
    ClosedType.instanceName_eq_display hnames simple, fun id hid ↦ ?_,
    fun q q' hq hq' hargs hargs' hne ↦ ?_, fun q span hq hlength ↦
    hlegible.instantiate_eq_ok_or hfaithful hq.template hlength hq.args span⟩
  · obtain ⟨a, ha⟩ := hlegible.types hid
    exact ⟨a, ha.typeName_eq.symm, fun b hb ↦ ClosedType.display_inj (hb.trans ha.typeName_eq)⟩
  · have hnames : q.name s.registry ≠ q'.name s.registry := fun heq ↦
      hne (hlegible.request_ext hq hq' (by simp [hargs, hargs']) heq)
    exact ⟨hnames, fun heq ↦ hnames (constructorName_injective heq)⟩

/-- A template is registered, and requested at `int` and at the instance that this gives. -/
def nestedBoxes : List SymbolsOperation :=
  let int := Primitive.int32.fingerprint
  [.host (.registerType (.template boxTemplate)), .request boxTemplate.id [int] .nowhere,
    .request boxTemplate.id [.ofInstance boxTemplate.id [int]] .nowhere]

/-- The template at `int` and at the instance that this gives are told apart by their names. -/
theorem instances_apart_nestedBoxes :
    let start : Symbols := { registry := .withPrimitives .w32 }
    let s := start.performAll nestedBoxes
    let box : Request := ⟨boxTemplate, [Primitive.int32.fingerprint]⟩
    let nested : Request := ⟨boxTemplate, [box.id]⟩
    start.Orderly nestedBoxes ∧ s.registry.typeName nested.id = "Box<Box<int>>" ∧
      (∃! a : ClosedType, a.display = "Box<Box<int>>") ∧
      Callable.constructorName (box.name s.registry) ≠
        Callable.constructorName (nested.name s.registry) := by
  intro start s box nested
  have horderly : start.Orderly nestedBoxes := by decide +kernel
  have hname : s.registry.typeName nested.id = "Box<Box<int>>" := by decide +kernel
  have hbox : box.Possible s.registry := ⟨by decide +kernel, by decide +kernel⟩
  have hnested : nested.Possible s.registry := ⟨by decide +kernel, by decide +kernel⟩
  obtain ⟨-, -, hunique, hapart, -⟩ := instances_apart (.withPrimitives .w32) horderly
  refine ⟨horderly, hname, hname ▸ hunique nested.id (by decide +kernel), ?_⟩
  exact (hapart box nested hbox hnested (by decide) (by decide) (by decide +kernel)).2

/-- Two classes are registered, and a template is requested at the first one. The fingerprints of the
two names differ in one bit only, the first one. -/
def clashingBoxes : List SymbolsOperation :=
  [.host (.registerType (.object (.named "Werknerm" [] none))),
    .host (.registerType (.object (.named "Sycocowj" [] none))),
    .host (.registerType (.template boxTemplate)),
    .request boxTemplate.id [.ofTypeName "Werknerm"] .nowhere]

/-- The constructors of two instances with different names have the same identity. So the request for
the second instance is refused, and it would have been answered without the first. -/
theorem instantiate_clashingBoxes :
    let start : Symbols := { registry := .withPrimitives .w32 }
    let s := start.performAll clashingBoxes
    let first : Request := ⟨boxTemplate, [.ofTypeName "Werknerm"]⟩
    let second : Request := ⟨boxTemplate, [.ofTypeName "Sycocowj"]⟩
    start.Orderly clashingBoxes ∧ (∀ f, .host (.registerFunction f) ∉ clashingBoxes) ∧
      s.registry.typeName first.id = "Box<Werknerm>" ∧ second.Possible s.registry ∧
      second.name s.registry = "Box<Sycocowj>" ∧ first.constructorId? = second.constructorId? ∧
      (s.instantiate second.template.id second.args .nowhere).1 =
        .error (.registration (.duplicateFunction "Box<Sycocowj>#ctor") .nowhere) ∧
      ((start.performAll clashingBoxes.dropLast).instantiate second.template.id second.args
        .nowhere).1 = .ok second.id := by
  intro start s first second
  have horderly : start.Orderly clashingBoxes := by decide +kernel
  exact ⟨horderly, by simp [clashingBoxes], by decide +kernel,
    ⟨by decide +kernel, by decide +kernel⟩, by decide +kernel, by decide +kernel, by decide +kernel,
    by decide +kernel⟩

end Symbols

end StackLowering
