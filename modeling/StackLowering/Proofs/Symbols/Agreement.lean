import StackLowering.Proofs.Symbols.Expansion

/-!
# Registries that agree

Of two registries that have grown from the same start, one of which extends the other, the larger one
knows more instances, and more classes are laid out in it. What the smaller one answers is the same in
the larger one, for names that are plain and for types that are stable: they are registered in the
smaller one already, or they will never be. Requests for instances and layouts of classes keep it that
way (`Setting.InStep`).

The larger registry plays the part of the end of a compilation, which every intermediate registry is
compared with. A request that is made in the smaller one is made in the larger one too, where it has
been answered before, and changes nothing there. So instead of comparing two orders of requests with
each other, each is compared with the registry in which all requests have been answered.

What an answer rests on is spelled out case by case: names of types, layouts, classes, constructors and
the layouts of fields. The only answer that may differ is whether a class is laid out, which nothing
that is written into code depends on.
-/

namespace StackLowering

open Std

namespace Setting

variable {W : Setting} {r r' : Registry} {q : Request} {type : Fingerprint} {f : Callable}
  {name : String}

/-- The functions of the script are registered, with types that are stable. -/
def Declared (W : Setting) (r : Registry) : Prop :=
  ∀ f ∈ W.functions, r.functions[f.id]? = some f ∧ (∀ p ∈ f.params, W.Stable r p.type) ∧
    W.Stable r f.returns

/-- A type that is stable stays stable while the registry grows. -/
theorem Stable.mono (h : W.Stable r type) (hr : r.Extends r') : W.Stable r' type :=
  h.imp_left hr.type?_isSome

/-- Declared functions stay declared. -/
theorem Declared.mono (h : W.Declared r) (hr : r.Extends r') : W.Declared r' := by
  intro f hf
  obtain ⟨hid, hparams, hreturns⟩ := h f hf
  exact ⟨hr.functions hid, fun p hp ↦ (hparams p hp).mono hr, hreturns.mono hr⟩

/-- Primitive types are registered from the start, and so they are stable. -/
theorem Sound.stable_primitive (hW : W.Sound) (r : Registry) (p : Primitive) :
    W.Stable r p.fingerprint :=
  .inr (hW.primitives p)

namespace Grown

/-! ### What is stable -/

/-- The fields of a class that is not laid out have stable types. -/
theorem stable_field (hr : W.Grown r) (hW : W.Sound) {id : Fingerprint} {c : ClassEntry}
    (hc : r.types[id]? = some (.object c)) (hextent : c.extent? = none) :
    ∀ field ∈ c.fields, W.Stable r field.type := by
  obtain ⟨e₀, horigin, hmatures⟩ := hr.types hc
  cases hmatures with
  | placed => simp [ClassEntry.placed] at hextent
  | same =>
    generalize he : TypeEntry.object c = e at horigin
    cases horigin with
    | base h =>
      subst he
      exact fun field hfield ↦ .inr (hW.fields h hextent field hfield)
    | @request q hq hargs =>
      obtain rfl := TypeEntry.object.inj he
      intro field hfield
      rcases Request.type_field hfield with harg | ⟨field₀, hfield₀, heq⟩
      · exact .inl (hargs _ harg)
      · rw [heq]
        exact .inr (hW.templateFields q hq field₀ hfield₀)

/-- The types in the signature of a registered function are stable. -/
theorem stable_signature (hr : W.Grown r) (hW : W.Sound) (hdeclared : W.Declared r)
    {id : Fingerprint} (hf : r.functions[id]? = some f) :
    (∀ p ∈ f.params, W.Stable r p.type) ∧ W.Stable r f.returns := by
  rcases hr.functions hf with h | h | ⟨q, hq, hreg, h⟩
  · obtain ⟨hparams, hreturns⟩ := hW.signatures h
    exact ⟨fun p hp ↦ .inr (hparams p hp), .inr hreturns⟩
  · exact (hdeclared f h).2
  · obtain ⟨hparams, hreturns⟩ := Request.type_constructor h
    refine ⟨fun p hp ↦ ?_, hreturns ▸ hW.stable_primitive r .uintptr⟩
    rcases hparams p hp with harg | ⟨params, hc, p₀, hp₀, heq⟩
    · exact .inl (hr.args hW hq hreg _ harg)
    · rw [heq]
      exact .inr (hW.templateParams q hq params hc p₀ hp₀)

/-! ### Names -/

/-- A plain name is that of a type at the start, or of no type. -/
theorem typeNamed?_eq (hr : W.Grown r) (hW : W.Sound) (hname : PlainName name) :
    W.base.typeNamed? name = none ∧ r.typeNamed? name = none ∨
      ∃ e₀ e, W.base.typeNamed? name = some e₀ ∧ r.typeNamed? name = some e ∧ e₀.Becomes e := by
  cases hbase : W.base.typeNamed? name with
  | some e₀ =>
    obtain ⟨id, hid, he₀⟩ := Option.bind_eq_some_iff.1 hbase
    obtain ⟨e, he, hb⟩ := hr.extend.types he₀
    exact .inr ⟨e₀, e, rfl, Option.bind_eq_some_iff.2 ⟨id, hr.extend.typeNames hid, he⟩, hb⟩
  | none =>
    refine .inl ⟨rfl, ?_⟩
    refine Option.eq_none_iff_forall_ne_some.2 fun e he ↦ ?_
    obtain ⟨hreg, rfl⟩ := hr.indexed.typeNamed?_eq_some_iff.1 he
    obtain ⟨e₀, horigin, hmatures⟩ := hr.types hreg
    have hname₀ : e₀.name = e.name := by
      cases hmatures <;> rfl
    generalize e.id = id at horigin
    cases horigin with
    | base h =>
      have hid := hW.indexed.type_id h
      have hnamed := hW.indexed.typeNamed?_eq_some_iff.2 ⟨hid ▸ h, hname₀⟩
      simp [hbase] at hnamed
    | @request q hq hargs =>
      rw [← hname₀] at hname
      exact not_simple_appliedName _ _ hname.simple

/-- A name that is no symbol of a constructor is that of the same function in a larger registry. -/
theorem functionNamed?_eq (hr : W.Grown r) (hr' : W.Grown r') (hext : r.Extends r')
    (hdeclared : W.Declared r) (hname : ∀ owner, name ≠ Callable.constructorName owner) :
    r'.functionNamed? name = r.functionNamed? name := by
  cases h : r.functionNamed? name with
  | some f => exact hext.functionNamed? h
  | none =>
    refine Option.eq_none_iff_forall_ne_some.2 fun f hf ↦ ?_
    obtain ⟨hid, rfl⟩ := hr'.indexed.functionNamed?_eq_some_iff.1 hf
    have hnot (hid : r.functions[f.id]? = some f) : False := by
      rw [hr.indexed.functionNamed?_eq_some_iff.2 ⟨hid, rfl⟩] at h
      simp at h
    rcases hr'.functions hid with h | h | ⟨q, hq, hreg, h⟩
    · exact hnot (hr.extend.functions h)
    · exact hnot (hdeclared f h).1
    · exact hname _ (Request.name_constructor h)

/-! ### Stable types -/

/-- A stable type is registered in a larger registry exactly if it is registered. -/
theorem type?_eq (hr : W.Grown r) (hr' : W.Grown r') (hext : r.Extends r')
    (htype : W.Stable r type) :
    r.type? type = none ∧ r'.type? type = none ∨
      ∃ e e', r.type? type = some e ∧ r'.type? type = some e' ∧ e.Becomes e' := by
  cases he : r.type? type with
  | some e =>
    obtain ⟨e', he', hb⟩ := hext.types he
    exact .inr ⟨e, e', rfl, he', hb⟩
  | none =>
    refine .inl ⟨rfl, ?_⟩
    refine Option.eq_none_iff_forall_ne_some.2 fun e' he' ↦ ?_
    obtain ⟨e₀, horigin, -⟩ := hr'.types he'
    have hsettled : W.Settled type := htype.resolve_left (by simp [he])
    cases horigin with
    | base h =>
      have hreg := hr.extend.type?_isSome (Option.isSome_of_mem h)
      simp [he] at hreg
    | request hq => exact hsettled _ hq rfl

variable (hr : W.Grown r) (hr' : W.Grown r') (hext : r.Extends r') (htype : W.Stable r type)

include hr hr' hext htype

/-- A stable type has the same name in both registries. -/
theorem typeName_eq : r'.typeName type = r.typeName type := by
  unfold Registry.typeName
  rcases hr.type?_eq hr' hext htype with ⟨h, h'⟩ | ⟨e, e', h, h', hb⟩
  · rw [h, h']
  · rw [h, h']
    cases hb <;> rfl

/-- A stable type has the same layout in both registries. A value of class type is held as an address,
so that it does not matter whether the class is laid out. -/
theorem layout?_eq : r'.layout? type = r.layout? type := by
  unfold Registry.layout?
  rcases hr.type?_eq hr' hext htype with ⟨h, h'⟩ | ⟨e, e', h, h', hb⟩
  · rw [h, h']
  · rw [h, h', hext.width_eq]
    cases hb <;> rfl

/-- A stable type is a class in both registries or in none. -/
theorem isSome_class?_eq : (r'.class? type).isSome = (r.class? type).isSome := by
  unfold Registry.class?
  rcases hr.type?_eq hr' hext htype with ⟨h, h'⟩ | ⟨e, e', h, h', hb⟩
  · rw [h, h']
  · rw [h, h']
    cases hb <;> rfl

/-- The constructor of a stable class is registered in a larger registry exactly if it is
registered. -/
theorem constructorOf?_eq (hW : W.Sound) (hdeclared : W.Declared r) :
    r'.constructorOf? type = r.constructorOf? type := by
  cases h : r.constructorOf? type with
  | some f => exact hext.constructorOf? h
  | none =>
    refine Option.eq_none_iff_forall_ne_some.2 fun f hf ↦ ?_
    obtain ⟨k, hk, hfk⟩ := Option.bind_eq_some_iff.1 hf
    obtain ⟨c', hc', hk⟩ := Option.bind_eq_some_iff.1 hk
    -- the class was there before, with the same constructor, which was not
    have hclass : (r.class? type).isSome := by
      rw [← hr.isSome_class?_eq hr' hext htype]
      exact Option.isSome_of_mem hc'
    obtain ⟨c, hc⟩ := Option.isSome_iff_exists.1 hclass
    have hck : c.constructor? = some k := by
      obtain ⟨e', he', hb⟩ := hext.types (Registry.class?_eq_some_iff.1 hc)
      obtain rfl := Option.some.inj (he'.symm.trans (Registry.class?_eq_some_iff.1 hc'))
      exact hb.constructor?_eq.symm.trans hk
    have hnot : r.functions[k]? = none := by
      simpa [Registry.constructorOf?, hc, hck, Registry.function?] using h
    have hid := hr'.indexed.function_id hfk
    rcases hr'.functions hfk with h | h | ⟨q, hq, hreg, h⟩
    · simp [hr.extend.functions h] at hnot
    · simp [← hid, (hdeclared f h).1] at hnot
    · have hqk : q.constructorId? = some k := hid ▸ Request.constructorId?_eq h
      obtain ⟨e₀, horigin, hmatures⟩ := hr.types (Registry.class?_eq_some_iff.1 hc)
      have hkey := hmatures.becomes.constructor?_eq
      simp only [TypeEntry.class?, Option.bind_some, hck] at hkey
      cases horigin with
      | @base _ e₀ h₀ =>
        cases e₀ with
        | object c₀ => exact hW.classConstructors h₀ hkey.symm q hq hqk
        | primitive p => simp at hkey
        | template t => simp at hkey
      | @request q' hq' hargs =>
        -- the constructor of a registered instance is registered
        rw [Option.bind_some, Request.constructor?_object] at hkey
        obtain ⟨g, hg, hgk⟩ := Option.map_eq_some_iff.1 hkey.symm
        have hgid := hr.constructors hq' (Option.isSome_of_mem (Registry.class?_eq_some_iff.1 hc)) hg
        rw [hgk, hnot] at hgid
        simp at hgid

end Grown

/-! ### Layouts -/

namespace Grown

/-- The layouts of fields of stable types are the same in a larger registry. -/
theorem fieldLayouts_eq (hr : W.Grown r) (hr' : W.Grown r') (hext : r.Extends r') (owner : String)
    {fields : List Field} (h : ∀ field ∈ fields, W.Stable r field.type) :
    r'.fieldLayouts owner fields = r.fieldLayouts owner fields := by
  induction fields with
  | nil => rfl
  | cons field fields ih =>
    rw [Registry.fieldLayouts, Registry.fieldLayouts,
      hr.layout?_eq hr' hext (h field List.mem_cons_self),
      ih fun field' hfield' ↦ h field' (List.mem_cons_of_mem field hfield')]

/-- Laying out a class keeps a registry among those that have grown from the start. -/
theorem setClass (hr : W.Grown r) (hW : W.Sound) {id : Fingerprint} {c : ClassEntry}
    {layouts : List Layout} (hc : r.types[id]? = some (.object c)) (hextent : c.extent? = none)
    (hlayouts : r.fieldLayouts c.name c.fields = .ok layouts) :
    W.Grown (r.setClass id (c.placed (.ofFields layouts))) := by
  have hext := (Registry.adds_setClass hc hextent (.ofFields layouts)).extend
  have hreg {type : Fingerprint}
      (h : ((r.setClass id (c.placed (.ofFields layouts))).type? type).isSome) :
      (r.type? type).isSome := by
    rw [Registry.type?, Registry.types_setClass] at h
    split at h
    next heq =>
      subst heq
      exact Option.isSome_of_mem hc
    next => exact h
  refine ⟨hr.indexed.setClass hc rfl rfl, hr.extend.trans hext, fun {id' e} he ↦ ?_,
    fun {id' e} he ↦ ?_, fun hf ↦ ?_, fun hq h hf ↦ ?_⟩
  · rw [Registry.types_setClass] at he
    split at he
    next heq =>
      subst heq
      obtain rfl := Option.some.inj he
      obtain ⟨e₀, horigin, hmatures⟩ := hr.types hc
      -- the class is what it was when it was registered, since it is not laid out
      cases hmatures with
      | placed => simp [ClassEntry.placed] at hextent
      | same => exact ⟨_, horigin.extends hext, .placed hextent (hext.fieldLayouts hlayouts)⟩
    next =>
      obtain ⟨e₀, horigin, hmatures⟩ := hr.types he
      exact ⟨e₀, horigin.extends hext, hmatures.extend hext⟩
  · rw [Registry.types_setClass] at he
    split at he
    next =>
      obtain rfl := Option.some.inj he
      exact (hr.names hc : Balanced c.name.toList)
    next => exact hr.names he
  · refine (hr.functions hf).imp_right (Or.imp_right ?_)
    rintro ⟨q, hq, h, hf'⟩
    refine ⟨q, hq, hext.type?_isSome h, ?_⟩
    rwa [Request.constructor?_eq hext (hr.args hW hq h)]
  · rw [Request.constructor?_eq hext (hr.args hW hq (hreg h))] at hf
    exact hr.constructors hq (hreg h) hf

/-- A class that is laid out in a larger registry only has the packing that its fields have there. -/
theorem exists_layouts (hr : W.Grown r) (hr' : W.Grown r') (hW : W.Sound) (hext : r.Extends r')
    {id : Fingerprint} {c : ClassEntry} {packing : Packing}
    (hreg : r.types[id]? = some (.object c)) (hextent : c.extent? = none)
    (hreg' : r'.types[id]? = some (.object (c.placed packing))) :
    ∃ layouts, r'.fieldLayouts c.name c.fields = .ok layouts ∧
      c.placed packing = c.placed (.ofFields layouts) := by
  obtain ⟨e₀, horigin, hmatures⟩ := hr.types hreg
  obtain ⟨e₀', horigin', hmatures'⟩ := hr'.types hreg'
  obtain rfl := (horigin.extends hext).eq hW horigin'
  cases hmatures with
  | placed => simp [ClassEntry.placed] at hextent
  | same =>
    generalize he : TypeEntry.object (c.placed packing) = e at hmatures'
    cases hmatures' with
    | same =>
      have hplaced := congrArg ClassEntry.extent? (TypeEntry.object.inj he)
      simp [ClassEntry.placed, hextent] at hplaced
    | placed _ h => exact ⟨_, h, TypeEntry.object.inj he⟩

/-- A class is laid out in the same way in a larger registry, whether it is laid out there already or
not, or it cannot be laid out for the same reason. -/
theorem layOutClass_eq (hr : W.Grown r) (hr' : W.Grown r') (hW : W.Sound) (hext : r.Extends r')
    {id : Fingerprint} (hid : W.Stable r id) :
    (∃ error, r.layOutClass id = .error error ∧ r'.layOutClass id = .error error) ∨
      ∃ size r₁ r₁' K, r.layOutClass id = .ok (size, r₁) ∧ r'.layOutClass id = .ok (size, r₁') ∧
        r.Adds K r₁ ∧ r'.Adds K r₁' ∧ W.Grown r₁ ∧ W.Grown r₁' := by
  have hclass := hr.isSome_class?_eq hr' hext hid
  unfold Registry.layOutClass
  cases hc : r.class? id with
  | none =>
    rw [hc, Option.isSome_none, Option.isSome_eq_false_iff, Option.isNone_iff_eq_none] at hclass
    rw [hclass]
    exact .inl ⟨_, rfl, rfl⟩
  | some c =>
    have hreg := Registry.class?_eq_some_iff.1 hc
    obtain ⟨e', hreg', hb⟩ := hext.types hreg
    cases hextent : c.extent? with
    | some extent =>
      -- a class that is laid out is the same in both
      obtain rfl : e' = .object c := by
        cases hb with
        | same => rfl
        | placed hnone => simp [hextent] at hnone
      rw [Registry.class?_eq_some_iff.2 hreg']
      simp only [hextent]
      exact .inr ⟨_, _, _, _, rfl, rfl, .refl r, .refl r', hr, hr'⟩
    | none =>
      have hfields := hr.stable_field hW hreg hextent
      have hlayouts := hr.fieldLayouts_eq hr' hext c.name hfields
      cases hb with
      | same =>
        rw [Registry.class?_eq_some_iff.2 hreg']
        simp only [hextent, hlayouts]
        cases h : r.fieldLayouts c.name c.fields with
        | error error => exact .inl ⟨error, rfl, rfl⟩
        | ok layouts =>
          exact .inr ⟨_, _, _, _, rfl, rfl, Registry.adds_setClass hreg hextent _,
            Registry.adds_setClass hreg' hextent _, hr.setClass hW hreg hextent h,
            hr'.setClass hW hreg' hextent (hlayouts.trans h)⟩
      | placed _ packing =>
        -- the larger registry has laid it out with the packing that the smaller one will find
        obtain ⟨layouts, h, hplaced⟩ := hr.exists_layouts hr' hW hext hreg hextent hreg'
        rw [hplaced] at hreg'
        rw [Registry.class?_eq_some_iff.2 hreg']
        rw [hlayouts] at h
        simp only [hextent, h]
        refine .inr ⟨_, _, _, _, rfl, rfl, Registry.adds_setClass hreg hextent _,
          .of_forall fun d hd ↦ ?_, hr.setClass hW hreg hextent h, hr'⟩
        obtain ⟨e, he, hb⟩ := hd.types hreg'
        rwa [hb.eq_of_placed] at he

end Grown

/-! ### Steps that are taken together -/

variable {s s' s'' t t' t'' : Symbols} {span : Span}

/-- The registry has grown from the start, and what is remembered is what is registered. -/
structure Admits (W : Setting) (s : Symbols) : Prop where
  grown : W.Grown s.registry
  faithful : s.Faithful

/-- Two states that a compilation can be in, the second of which knows all that the first one knows. -/
structure Below (W : Setting) (s t : Symbols) : Prop where
  lower : W.Admits s
  upper : W.Admits t
  extend : s.registry.Extends t.registry

/-- A plain name is that of the same type of the start in both states, but for its layout. -/
theorem Below.typeNamed?_eq (h : W.Below s t) (hW : W.Sound) (hname : PlainName name) :
    W.base.typeNamed? name = none ∧ s.registry.typeNamed? name = none ∧
        t.registry.typeNamed? name = none ∨
      ∃ e₀ e e', W.base.typeNamed? name = some e₀ ∧ s.registry.typeNamed? name = some e ∧
        t.registry.typeNamed? name = some e' ∧ e₀.Becomes e ∧ e₀.Becomes e' := by
  rcases h.lower.grown.typeNamed?_eq hW hname with ⟨hbase, hs⟩ | ⟨e₀, e, hbase, hs, hb⟩
  · rcases h.upper.grown.typeNamed?_eq hW hname with ⟨-, ht⟩ | ⟨_, _, hbase', -⟩
    · exact .inl ⟨hbase, hs, ht⟩
    · exact nomatch hbase.symm.trans hbase'
  · rcases h.upper.grown.typeNamed?_eq hW hname with ⟨hbase', -⟩ | ⟨_, e', hbase', ht, hb'⟩
    · exact nomatch hbase.symm.trans hbase'
    · obtain rfl := Option.some.inj (hbase.symm.trans hbase')
      exact .inr ⟨e₀, e, e', hbase, hs, ht, hb, hb'⟩

/-- Two states that went on in step: the same was added to both. -/
structure InStep (W : Setting) (s t s' t' : Symbols) : Prop where
  below : W.Below s' t'
  adds : ∃ K, s.registry.Adds K s'.registry ∧ t.registry.Adds K t'.registry

namespace InStep

/-- Where nothing is done, the two stay in step. -/
theorem refl (h : W.Below s t) : W.InStep s t s t :=
  ⟨h, _, .refl _, .refl _⟩

/-- Two developments in a row are in step if each of them is. -/
theorem trans (h : W.InStep s t s' t') (h' : W.InStep s' t' s'' t'') : W.InStep s t s'' t'' := by
  obtain ⟨K, hs, ht⟩ := h.adds
  obtain ⟨K', hs', ht'⟩ := h'.adds
  exact ⟨h'.below, _, hs.trans hs', ht.trans ht'⟩

/-- A development in step takes nothing away from the smaller registry. -/
theorem extend (h : W.InStep s t s' t') : s.registry.Extends s'.registry := by
  obtain ⟨K, hs, -⟩ := h.adds
  exact hs.extend

end InStep

/-! ### Requests -/

/-- What a request of the script leads to: an instance that is registered already, a new one, or a
refusal because of the number of arguments. -/
inductive Served (W : Setting) (s : Symbols) (q : Request) (span : Span) :
    Except CompileError Fingerprint × Symbols → Prop
  | registered {s' : Symbols} (h : (s.registry.type? q.id).isSome)
      (hs' : s'.registry = s.registry) (hadmits : W.Admits s') : Served W s q span (.ok q.id, s')
  | created {s' : Symbols} (hnone : s.registry.types[q.id]? = none) (hq : W.IsNew q)
      (hadds : s.registry.Adds (Grown.Known q s.registry) s'.registry) (hadmits : W.Admits s') :
      Served W s q span (.ok q.id, s')
  | refused (hnone : s.registry.types[q.id]? = none) (hlength : q.args.length ≠ q.template.arity) :
      Served W s q span
        (.error (.templateArgumentCount q.template.name q.template.arity q.args.length span), s)

/-- A request is answered with what is registered, with a new instance, or with a refusal. -/
theorem Admits.served (hs : W.Admits s) (hW : W.Sound) (hq : q ∈ W.requests)
    (hargs : ∀ arg ∈ q.args, (s.registry.type? arg).isSome) (span : Span) :
    W.Served s q span (s.instantiate q.template.id q.args span) := by
  have hanswer := Symbols.answer_instantiate s q.template.id q.args span
  have hfaithful := hanswer.faithful hs.faithful
  have htemplate : s.registry.type? q.template.id = some (.template q.template) := by
    obtain ⟨e, he, hb⟩ := hs.grown.extend.types (hW.templates q hq)
    cases hb
    exact he
  cases hnone : s.registry.types[q.id]? with
  | some e =>
    -- what is registered is remembered, or taken for the instance
    have hreg : (s.registry.type? q.id).isSome := Option.isSome_of_mem hnone
    cases hfind : s.instances.find? q.template.id q.args with
    | some id =>
      rw [Symbols.instantiate_of_find? hfind, hs.faithful.id_eq hfind]
      exact .registered hreg rfl hs
    | none =>
      rw [Symbols.instantiate_of_type? hfind hreg] at hfaithful ⊢
      exact .registered hreg rfl ⟨hs.grown, hfaithful⟩
  | none =>
    have hfind : s.instances.find? q.template.id q.args = none := hs.faithful.find?_eq_none hnone
    by_cases hlength : q.args.length = q.template.arity
    · have hnew : W.IsNew q := hs.grown.isNew hq hlength hnone
      obtain ⟨r₁, r₂, hclass, hf, hadds, hgrown⟩ :=
        hs.grown.exists_created hW hnew hargs hnone
      have hinstantiate : s.instantiate q.template.id q.args span =
          (.ok q.id, { s with registry := r₂ }.remember q.template.id q.args q.id) :=
        (Request.instantiate_eq htemplate hlength hfind hnone span).trans
          (Request.createInstance_eq hclass hf span)
      rw [hinstantiate] at hfaithful ⊢
      exact .created hnone hnew hadds ⟨hgrown, hfaithful⟩
    · have hrefused : (TypeEntry.template q.template).refusal? q.args span =
          some (.templateArgumentCount q.template.name q.template.arity q.args.length span) := by
        simp [TypeEntry.refusal?, hlength]
      rw [Symbols.instantiate_of_refusal htemplate hrefused hfind hnone]
      exact .refused hnone hlength

/-- What a request is answered with is the identity of the instance, which is then registered. -/
theorem Served.isSome_type? {out : Except CompileError Fingerprint × Symbols} {id : Fingerprint}
    (h : W.Served s q span out) (hid : out.1 = .ok id) :
    id = q.id ∧ (out.2.registry.type? id).isSome := by
  cases h with
  | registered hreg hs' =>
    obtain rfl := Except.ok.inj hid
    rw [← hs'] at hreg
    exact ⟨rfl, hreg⟩
  | created _ _ hadds =>
    obtain rfl := Except.ok.inj hid
    obtain ⟨⟨⟨e, he, -⟩, -⟩, -⟩ := hadds.meets
    exact ⟨rfl, Option.isSome_of_mem he⟩
  | refused => exact nomatch hid

/-- What a request of the script leads to is the same in both states. -/
theorem Below.served (h : W.Below s t) (hW : W.Sound) (hq : q ∈ W.requests)
    (hargs : ∀ arg ∈ q.args, (s.registry.type? arg).isSome)
    {out out' : Except CompileError Fingerprint × Symbols} (hout : W.Served s q span out)
    (hout' : W.Served t q span out') : out'.1 = out.1 ∧ W.InStep s t out.2 out'.2 := by
  have hregistered (hreg : (s.registry.type? q.id).isSome) : t.registry.types[q.id]? ≠ none :=
    Option.isSome_iff_ne_none.1 (h.extend.type?_isSome hreg)
  have hnew (hnone : s.registry.types[q.id]? = none) (hreg : (t.registry.type? q.id).isSome) :
      W.IsNew q := by
    -- what is registered later is what a request created
    by_contra hnot
    rcases h.lower.grown.type?_eq h.upper.grown h.extend
      (.inr fun q' hq' heq ↦ hnot (hW.ids _ hq'.mem _ hq heq ▸ hq')) with ⟨-, h'⟩ | ⟨e, -, he, -⟩
    · simp [h'] at hreg
    · exact nomatch hnone.symm.trans he
  have hknown : Grown.Known q t.registry = Grown.Known q s.registry := by
    unfold Grown.Known
    rw [Request.object_eq h.extend hargs, Request.constructor?_eq h.extend hargs]
  cases hout with
  | registered hreg hs' hadmits =>
    cases hout' with
    | registered _ ht' hadmits' =>
      refine ⟨rfl, ⟨⟨hadmits, hadmits', ?_⟩, fun _ ↦ True, ?_, ?_⟩⟩
      · rw [hs', ht']
        exact h.extend
      · rw [hs']
        exact .refl _
      · rw [ht']
        exact .refl _
    | created hnone => exact absurd hnone (hregistered hreg)
    | refused hnone => exact absurd hnone (hregistered hreg)
  | created hnone hq' hadds hadmits =>
    cases hout' with
    | @registered t' hreg ht' hadmits' =>
      have hadds' : t.registry.Adds (Grown.Known q s.registry) t'.registry := by
        rw [ht', ← hknown]
        exact .of_forall fun d hd ↦ h.upper.grown.known hW hq' hreg hd
      exact ⟨rfl, ⟨hadmits, hadmits', hadds.mono h.extend hadds'⟩, _, hadds, hadds'⟩
    | created _ _ hadds' hadmits' =>
      rw [hknown] at hadds'
      exact ⟨rfl, ⟨hadmits, hadmits', hadds.mono h.extend hadds'⟩, _, hadds, hadds'⟩
    | refused _ hlength => exact absurd hq'.args hlength
  | refused hnone hlength =>
    cases hout' with
    | registered hreg => exact absurd (hnew hnone hreg).args hlength
    | created _ hq' => exact absurd hq'.args hlength
    | refused => exact ⟨rfl, .refl h⟩

end Setting

end StackLowering
