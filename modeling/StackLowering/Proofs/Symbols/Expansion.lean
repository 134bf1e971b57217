import StackLowering.Proofs.Symbols.Additions
import StackLowering.Proofs.Symbols.InstanceNames
import StackLowering.Proofs.Symbols.Instances

/-!
# Registries that requests lead to

A compilation starts with a registry, and can make a number of requests for instances of templates
(`Setting`). Whatever it has done so far, the registry has grown in a known way (`Setting.Grown`): new
types are instances of these requests, a class that was laid out has the packing of its fields, and new
functions are constructors of new instances or functions of the script.

If no identities collide, all names are plain and the registry refers to no instance that is still to
be created (`Setting.Sound`), then what a request or a layout does is the same in all these registries:
it succeeds or fails in the same way, and it adds the same to each of them.

The conditions on fields and signatures are the least obvious: a registered class may have a field of a
type that is not registered, such as an instance that somebody requests later, and whether it can be
laid out then depends on who comes first.

An entry that has grown is told by where it comes from (`Setting.Origin`), that is, the entry as it was
before it was laid out, and by how it has matured since (`TypeEntry.Matures`).
-/

namespace StackLowering

open Std

/-! ### Requests -/

/-- A request for the instance of a template at some type arguments. -/
structure Request where
  /-- The template. -/
  template : TemplateEntry
  /-- The type arguments. -/
  args : List Fingerprint
deriving DecidableEq, Repr

namespace Request

/-- The identity of the instance. -/
def id (q : Request) : Fingerprint := .ofInstance q.template.id q.args

/-- What the parameters of the template stand for in the instance. -/
def substitution (q : Request) : Substitution := .bind q.template.params q.args

/-- The name of the instance. -/
def name (q : Request) (r : Registry) : String := r.instanceName q.template.name q.args

/-- The class of the instance, not laid out. -/
def object (q : Request) (r : Registry) : ClassEntry :=
  q.template.instanceClass (q.name r) q.args q.substitution

/-- The constructor of the instance, if the template declares one. -/
def constructor? (q : Request) (r : Registry) : Option Callable :=
  q.template.instanceConstructor? (q.name r) q.id q.substitution

/-- The identity of the constructor of the instance. -/
def constructorId? (q : Request) : Option Fingerprint :=
  q.template.constructor?.map fun params ↦
    .ofConstructor q.id (params.map fun p ↦ q.substitution.type p.type)

variable {q : Request} {r r' : Registry} {f : Callable}

/-- The identity of the constructor of an instance does not depend on the names of types. -/
theorem constructorId?_eq (h : q.constructor? r = some f) : q.constructorId? = some f.id := by
  obtain ⟨params, hparams, rfl⟩ := Option.map_eq_some_iff.1 h
  simp [constructorId?, hparams, Callable.constructor, Substitution.param, Function.comp_def]

/-- The constructor of an instance has the symbol that belongs to the name of the instance. -/
theorem name_constructor (h : q.constructor? r = some f) :
    f.name = Callable.constructorName (q.name r) := by
  obtain ⟨params, -, rfl⟩ := Option.map_eq_some_iff.1 h
  rfl

/-- The class of an instance names its constructor. -/
theorem constructor?_object (q : Request) (r : Registry) :
    (q.object r).constructor? = (q.constructor? r).map (·.id) := rfl

/-- A type of the constructor of an instance is an argument or a type of the template, or that of
addresses. -/
theorem type_constructor (h : q.constructor? r = some f) :
    (∀ p ∈ f.params, p.type ∈ q.args ∨
      ∃ params, q.template.constructor? = some params ∧ ∃ p₀ ∈ params, p.type = p₀.type) ∧
    f.returns = Primitive.uintptr.fingerprint := by
  obtain ⟨params, hparams, rfl⟩ := Option.map_eq_some_iff.1 h
  refine ⟨fun p hp ↦ ?_, rfl⟩
  obtain ⟨p₀, hp₀, rfl⟩ := List.mem_map.1 hp
  exact (Substitution.type_bind_eq q.template.params q.args p₀.type).imp_right
    fun heq ↦ ⟨params, hparams, p₀, hp₀, heq⟩

/-- The type of a field of an instance is an argument or a type of the template. -/
theorem type_field {field : Field} (h : field ∈ (q.object r).fields) :
    field.type ∈ q.args ∨ ∃ field₀ ∈ q.template.fields, field.type = field₀.2 := by
  obtain ⟨field₀, hfield₀, rfl⟩ := List.mem_map.1 h
  exact (Substitution.type_bind_eq q.template.params q.args field₀.2).imp_right
    fun heq ↦ ⟨field₀, hfield₀, heq⟩

/-- An instance whose class and constructor can be registered is created. -/
theorem createInstance_eq {s : Symbols} {r₁ r₂ : Registry}
    (hclass : s.registry.registerType (.object (q.object s.registry)) = .ok r₁)
    (hconstructor : q.constructor? s.registry = none ∧ r₂ = r₁ ∨
      ∃ f, q.constructor? s.registry = some f ∧ r₁.registerFunction f = .ok r₂) (span : Span) :
    s.createInstance q.template q.args q.substitution span =
      (.ok q.id, { s with registry := r₂ }.remember q.template.id q.args q.id) := by
  unfold object name at hclass
  unfold constructor? name id at hconstructor
  unfold Symbols.createInstance
  rcases hconstructor with ⟨hnone, rfl⟩ | ⟨f, hsome, hf⟩
  · simp only [hclass, hnone]
    rfl
  · simp only [hclass, hsome, hf]
    rfl

/-- A request with the right number of arguments creates the instance, if it is neither remembered nor
registered. -/
theorem instantiate_eq {s : Symbols}
    (htemplate : s.registry.type? q.template.id = some (.template q.template))
    (hargs : q.args.length = q.template.arity)
    (hfind : s.instances.find? q.template.id q.args = none)
    (hreg : s.registry.type? q.id = none) (span : Span) :
    s.instantiate q.template.id q.args span =
      s.createInstance q.template q.args q.substitution span := by
  simp only [Symbols.instantiate, hfind]
  rw [if_neg (by simpa [Registry.containsType, Registry.type?, id] using hreg)]
  simp only [htemplate, TemplateEntry.substitution, if_pos hargs]
  rfl

end Request

/-! ### Registered types in larger registries -/

namespace Registry

variable {r r' : Registry} {id : Fingerprint}

/-- A registered type keeps its name. -/
theorem Extends.typeName (hr : r.Extends r') (h : (r.type? id).isSome) :
    r'.typeName id = r.typeName id := by
  obtain ⟨e, he⟩ := Option.isSome_iff_exists.1 h
  obtain ⟨e', he', hb⟩ := hr.types he
  rw [Registry.typeName, Registry.typeName, he, Registry.type?, he']
  cases hb <;> rfl

/-- The fields of a class that have layouts keep them. -/
theorem Extends.fieldLayouts (hr : r.Extends r') {owner : String} {fields : List Field}
    {layouts : List Layout} (h : r.fieldLayouts owner fields = .ok layouts) :
    r'.fieldLayouts owner fields = .ok layouts := by
  induction fields generalizing layouts with
  | nil => exact h
  | cons field fields ih =>
    rw [Registry.fieldLayouts] at h ⊢
    cases hlayout : r.layout? field.type with
    | none => simp [hlayout] at h
    | some layout =>
      rw [hlayout] at h
      rw [hr.layout? hlayout]
      dsimp only at h ⊢
      cases hrest : r.fieldLayouts owner fields with
      | error e => simp [hrest, Except.map] at h
      | ok rest =>
        rw [ih hrest]
        rwa [hrest] at h

/-- Registered types with the same name are the same. -/
theorem Indexed.typeName_inj (h : r.Indexed) {id' : Fingerprint} (hid : (r.type? id).isSome)
    (hid' : (r.type? id').isSome) (heq : r.typeName id = r.typeName id') : id = id' := by
  obtain ⟨e, he⟩ := Option.isSome_iff_exists.1 hid
  obtain ⟨e', he'⟩ := Option.isSome_iff_exists.1 hid'
  rw [typeName, typeName, he, he'] at heq
  have hname : r.typeNames[e.name]? = some id := h.typeNames_iff.2 ⟨e, he, rfl⟩
  have hname' : r.typeNames[e.name]? = some id' := h.typeNames_iff.2 ⟨e', he', heq.symm⟩
  exact Option.some.inj (hname.symm.trans hname')

/-- Lists of registered types are told apart by the names of their members. -/
theorem Indexed.map_typeName_inj (h : r.Indexed) {ids ids' : List Fingerprint}
    (hids : ∀ id ∈ ids, (r.type? id).isSome) (hids' : ∀ id ∈ ids', (r.type? id).isSome)
    (heq : ids.map r.typeName = ids'.map r.typeName) : ids = ids' := by
  induction ids generalizing ids' with
  | nil => exact (List.map_eq_nil_iff.1 heq.symm).symm
  | cons id ids ih =>
    obtain ⟨id', ids', rfl, hid, hrest⟩ := List.map_eq_cons_iff.1 heq.symm
    rw [h.typeName_inj (hids id List.mem_cons_self) (hids' id' List.mem_cons_self) hid.symm,
      ih (fun i hi ↦ hids i (List.mem_cons_of_mem _ hi))
        (fun i hi ↦ hids' i (List.mem_cons_of_mem _ hi)) hrest.symm]

end Registry

namespace Request

variable {q : Request} {r r' : Registry}

/-- An instance has the same name in a larger registry, if its arguments are registered. -/
theorem name_eq (hr : r.Extends r') (hargs : ∀ arg ∈ q.args, (r.type? arg).isSome) :
    q.name r' = q.name r :=
  Registry.instanceName_congr fun arg harg ↦ hr.typeName (hargs arg harg)

/-- The class of an instance is the same in every later registry, since the names of its arguments are.
-/
theorem object_eq (hr : r.Extends r') (hargs : ∀ arg ∈ q.args, (r.type? arg).isSome) :
    q.object r' = q.object r := by
  rw [object, name_eq hr hargs]
  rfl

/-- The constructor of an instance is the same in every later registry. -/
theorem constructor?_eq (hr : r.Extends r') (hargs : ∀ arg ∈ q.args, (r.type? arg).isSome) :
    q.constructor? r' = q.constructor? r := by
  rw [constructor?, name_eq hr hargs]
  rfl

end Request

/-! ### What a compilation starts with -/

/-- What a compilation starts with and what its script adds to it. -/
structure Setting where
  /-- The registry at the start. -/
  base : Registry
  /-- The requests that the script can make. -/
  requests : List Request
  /-- The functions of the script. -/
  functions : List Callable

namespace Setting

/-- A request that creates a class when it is made for the first time. -/
structure IsNew (W : Setting) (q : Request) : Prop where
  mem : q ∈ W.requests
  args : q.args.length = q.template.arity
  new : W.base.types[q.id]? = none

/-- A type that no request creates. -/
def Settled (W : Setting) (type : Fingerprint) : Prop := ∀ q, W.IsNew q → q.id ≠ type

/-- Different things have different identities, names are plain, and the registry at the start refers
to no instance that is still to be created. -/
structure Sound (W : Setting) : Prop where
  indexed : W.base.Indexed
  templates : ∀ q ∈ W.requests, W.base.types[q.template.id]? = some (.template q.template)
  ids : ∀ q ∈ W.requests, ∀ q' ∈ W.requests, q.id = q'.id → q = q'
  constructorIds : ∀ {q q' : Request} {k : Fingerprint}, W.IsNew q → W.IsNew q' →
    q.constructorId? = some k → q'.constructorId? = some k → q = q'
  constructors : ∀ {q : Request} {k : Fingerprint}, W.IsNew q → q.constructorId? = some k →
    W.base.functions[k]? = none ∧ ∀ f ∈ W.functions, f.id ≠ k
  primitives : ∀ p : Primitive, W.Settled p.fingerprint
  typeNames : ∀ {id : Fingerprint} {e : TypeEntry}, W.base.types[id]? = some e → PlainName e.name
  functionNames : ∀ {id : Fingerprint} {f : Callable}, W.base.functions[id]? = some f →
    PlainName f.name ∨ ∃ owner, PlainName owner ∧ f.name = Callable.constructorName owner
  declaredNames : ∀ f ∈ W.functions, PlainName f.name
  fields : ∀ {id : Fingerprint} {c : ClassEntry}, W.base.types[id]? = some (.object c) →
    c.extent? = none → ∀ field ∈ c.fields, W.Settled field.type
  classConstructors : ∀ {id k : Fingerprint} {c : ClassEntry},
    W.base.types[id]? = some (.object c) → c.constructor? = some k →
      ∀ q, W.IsNew q → q.constructorId? ≠ some k
  templateFields : ∀ q, W.IsNew q → ∀ field ∈ q.template.fields, W.Settled field.2
  templateParams : ∀ q, W.IsNew q → ∀ params, q.template.constructor? = some params →
    ∀ p ∈ params, W.Settled p.type
  signatures : ∀ {id : Fingerprint} {f : Callable}, W.base.functions[id]? = some f →
    (∀ p ∈ f.params, W.Settled p.type) ∧ W.Settled f.returns

/-- A type that is registered, or will never be. -/
def Stable (W : Setting) (r : Registry) (type : Fingerprint) : Prop :=
  (r.type? type).isSome ∨ W.Settled type

/-! ### Registries in between -/

/-- What a registered type was when it was registered: a type of the start, or a new instance, the
arguments of which were registered before. -/
inductive Origin (W : Setting) (r : Registry) : Fingerprint → TypeEntry → Prop
  | base {id : Fingerprint} {e : TypeEntry} (h : W.base.types[id]? = some e) : Origin W r id e
  | request {q : Request} (hq : W.IsNew q) (hargs : ∀ arg ∈ q.args, (r.type? arg).isSome) :
      Origin W r q.id (.object (q.object r))

end Setting

/-- What has happened to a type since it was registered: nothing, or its class was laid out. -/
inductive TypeEntry.Matures (r : Registry) : TypeEntry → TypeEntry → Prop
  | same (e : TypeEntry) : Matures r e e
  | placed {c : ClassEntry} {layouts : List Layout} (h : c.extent? = none)
      (hlayouts : r.fieldLayouts c.name c.fields = .ok layouts) :
      Matures r (.object c) (.object (c.placed (.ofFields layouts)))

namespace TypeEntry.Matures

variable {r r' : Registry} {e₀ e : TypeEntry}

/-- An entry that has matured in one registry has matured in every later one. -/
theorem extend (h : e₀.Matures r e) (hr : r.Extends r') : e₀.Matures r' e := by
  cases h with
  | same => exact .same _
  | placed h hlayouts => exact .placed h (hr.fieldLayouts hlayouts)

/-- Maturing is being laid out, or staying the same. -/
theorem becomes (h : e₀.Matures r e) : e₀.Becomes e := by
  cases h with
  | same => exact .same _
  | placed h => exact .placed h _

end TypeEntry.Matures

namespace Setting

variable {W : Setting} {r r' : Registry} {q : Request} {id type : Fingerprint}
  {e e₀ e₀' : TypeEntry} {f : Callable}

/-- A registry that has grown from the one at the start. -/
structure Grown (W : Setting) (r : Registry) : Prop where
  indexed : r.Indexed
  extend : W.base.Extends r
  types : ∀ {id : Fingerprint} {e : TypeEntry}, r.types[id]? = some e →
    ∃ e₀, W.Origin r id e₀ ∧ e₀.Matures r e
  names : ∀ {id : Fingerprint} {e : TypeEntry}, r.types[id]? = some e → Balanced e.name.toList
  functions : ∀ {id : Fingerprint} {f : Callable}, r.functions[id]? = some f →
    W.base.functions[id]? = some f ∨ f ∈ W.functions ∨
      ∃ q, W.IsNew q ∧ (r.type? q.id).isSome ∧ q.constructor? r = some f
  constructors : ∀ {q : Request} {f : Callable}, W.IsNew q → (r.type? q.id).isSome →
    q.constructor? r = some f → r.functions[f.id]? = some f

/-- An entry comes from where it came from when the registry was smaller. -/
theorem Origin.extends (h : W.Origin r id e₀) (hr : r.Extends r') : W.Origin r' id e₀ := by
  cases h with
  | base h => exact .base h
  | request hq hargs =>
    rw [← Request.object_eq hr hargs]
    exact .request hq fun arg harg ↦ hr.type?_isSome (hargs arg harg)

/-- What a type was when it was registered is determined by its identity. -/
theorem Origin.eq (hW : W.Sound) (h : W.Origin r id e₀) (h' : W.Origin r id e₀') : e₀ = e₀' := by
  generalize hid : id = id' at h'
  cases h with
  | base h =>
    cases h' with
    | base h' =>
      subst hid
      exact Option.some.inj (h.symm.trans h')
    | request hq =>
      subst hid
      simp [hq.new] at h
  | request hq hargs =>
    cases h' with
    | base h' =>
      subst hid
      simp [hq.new] at h'
    | request hq' =>
      obtain rfl := hW.ids _ hq.mem _ hq'.mem hid
      rfl

namespace Grown

/-- A request with the right number of arguments is new if its instance is not registered. -/
theorem isNew (hr : W.Grown r) (hq : q ∈ W.requests) (hargs : q.args.length = q.template.arity)
    (hnone : r.types[q.id]? = none) : W.IsNew q := by
  refine ⟨hq, hargs, Option.eq_none_iff_forall_ne_some.2 fun e he ↦ ?_⟩
  obtain ⟨e', he', -⟩ := hr.extend.types he
  exact nomatch hnone.symm.trans he'

/-- The arguments of a registered new instance are registered. -/
theorem args (hr : W.Grown r) (hW : W.Sound) (hq : W.IsNew q) (h : (r.type? q.id).isSome) :
    ∀ arg ∈ q.args, (r.type? arg).isSome := by
  obtain ⟨e, he⟩ := Option.isSome_iff_exists.1 h
  obtain ⟨e₀, horigin, -⟩ := hr.types he
  generalize hid : q.id = id at horigin
  cases horigin with
  | base h =>
    subst hid
    simp [hq.new] at h
  | request hq' hargs =>
    obtain rfl := hW.ids _ hq.mem _ hq'.mem hid
    exact hargs

/-- A registered new instance is what the request creates, perhaps laid out in the meantime. -/
theorem knowsType (hr : W.Grown r) (hW : W.Sound) (hq : W.IsNew q) (h : (r.type? q.id).isSome) :
    Registry.KnowsType (.object (q.object r)) r := by
  obtain ⟨e, he⟩ := Option.isSome_iff_exists.1 h
  obtain ⟨e₀, horigin, hmatures⟩ := hr.types he
  obtain rfl := horigin.eq hW (.request hq (hr.args hW hq h))
  refine ⟨⟨e, he, hmatures.becomes⟩, hr.indexed.typeNames_iff.2 ⟨e, he, ?_⟩⟩
  cases hmatures <;> rfl

/-- If a new instance is registered, so is its constructor. -/
theorem knowsFunction (hr : W.Grown r) (hq : W.IsNew q) (h : (r.type? q.id).isSome)
    (hf : q.constructor? r = some f) : Registry.KnowsFunction f r :=
  have hid := hr.constructors hq h hf
  ⟨hid, hr.indexed.functionNames_iff.2 ⟨f, hid, rfl⟩⟩

/-- The registry at the start has grown by nothing. -/
theorem base (hW : W.Sound) : W.Grown W.base where
  indexed := hW.indexed
  extend := .refl _
  types he := ⟨_, .base he, .same _⟩
  names he := .of_simple (hW.typeNames he).simple
  functions hf := .inl hf
  constructors hq h := by
    rw [Registry.type?, hq.new] at h
    simp at h

/-! ### New instances -/

/-- The name of a new instance is free. -/
theorem typeNames_eq_none (hr : W.Grown r) (hW : W.Sound) (hq : W.IsNew q)
    (hargs : ∀ arg ∈ q.args, (r.type? arg).isSome) (hnone : r.types[q.id]? = none) :
    r.typeNames[q.name r]? = none := by
  refine Option.eq_none_iff_forall_ne_some.2 fun id hid ↦ ?_
  obtain ⟨e, he, hname⟩ := hr.indexed.typeNames_iff.1 hid
  have hsimple {q : Request} (hq : W.IsNew q) : SimpleName q.template.name :=
    (hW.typeNames (hW.templates q hq.mem)).simple
  have hbalanced {args : List Fingerprint} (hargs : ∀ arg ∈ args, (r.type? arg).isSome) :
      ∀ arg ∈ args, Balanced (r.typeName arg).toList := by
    intro arg harg
    obtain ⟨e, he⟩ := Option.isSome_iff_exists.1 (hargs arg harg)
    rw [Registry.typeName, he]
    exact hr.names he
  obtain ⟨e₀, horigin, hmatures⟩ := hr.types he
  have hname₀ : e₀.name = q.name r := by
    rw [← hname]
    cases hmatures <;> rfl
  cases horigin with
  | base h =>
    -- the names at the start are plain
    exact not_simple_appliedName _ _ (hname₀ ▸ (hW.typeNames h).simple)
  | @request q' hq' hargs' =>
    obtain ⟨htemplate, hnames⟩ := Registry.instanceName_injective (hsimple hq') (hsimple hq) hname₀
    have hentry : TypeEntry.template q'.template = .template q.template := by
      have h := hW.indexed.typeNames_iff.2 ⟨_, hW.templates q hq.mem, rfl⟩
      have h' := hW.indexed.typeNames_iff.2 ⟨_, hW.templates q' hq'.mem, htemplate⟩
      have hids := Option.some.inj (h'.symm.trans h)
      have heq := hW.templates q' hq'.mem
      rw [hids, hW.templates q hq.mem] at heq
      exact (Option.some.inj heq).symm
    have hlength : q'.args.length = q.args.length := by
      rw [hq'.args, hq.args, TypeEntry.template.inj hentry]
    have hnil : q'.args = [] ↔ q.args = [] := by
      rw [← List.length_eq_zero_iff, hlength, List.length_eq_zero_iff]
    have hids := hr.indexed.map_typeName_inj hargs' hargs
      (hnames hnil (hbalanced hargs') (hbalanced hargs))
    have heq : q'.id = q.id := by
      rw [Request.id, Request.id, TypeEntry.template.inj hentry, hids]
    rw [heq, hnone] at he
    simp at he

/-- The identity and the name of the constructor of a new instance are free. -/
theorem functions_eq_none (hr : W.Grown r) (hW : W.Sound) (hq : W.IsNew q)
    (hargs : ∀ arg ∈ q.args, (r.type? arg).isSome) (hnone : r.types[q.id]? = none)
    (hf : q.constructor? r = some f) :
    r.functions[f.id]? = none ∧ r.functionNames[f.name]? = none := by
  have hid := Request.constructorId?_eq hf
  have hname := Request.name_constructor hf
  constructor
  · refine Option.eq_none_iff_forall_ne_some.2 fun g hg ↦ ?_
    have hgid := hr.indexed.function_id hg
    rcases hr.functions hg with h | h | ⟨q', hq', hreg, h⟩
    · simp [(hW.constructors hq hid).1] at h
    · exact (hW.constructors hq hid).2 g h hgid
    · obtain rfl := hW.constructorIds hq' hq (hgid ▸ Request.constructorId?_eq h) hid
      rw [Registry.type?, hnone] at hreg
      simp at hreg
  · refine Option.eq_none_iff_forall_ne_some.2 fun k hk ↦ ?_
    obtain ⟨g, hg, hgname⟩ := hr.indexed.functionNames_iff.1 hk
    rw [hname] at hgname
    rcases hr.functions hg with h | h | ⟨q', hq', hreg, h⟩
    · rcases hW.functionNames h with hplain | ⟨owner, hplain, heq⟩
      · exact hplain.ne_constructorName _ hgname
      · rw [heq] at hgname
        exact not_simple_appliedName _ _ (constructorName_injective hgname ▸ hplain.simple)
    · exact (hW.declaredNames g h).ne_constructorName _ hgname
    · rw [Request.name_constructor h] at hgname
      obtain ⟨-, hknown⟩ := hr.knowsType hW hq' hreg
      have hfree := hr.typeNames_eq_none hW hq hargs hnone
      rw [← constructorName_injective hgname] at hfree
      exact absurd (hknown.symm.trans hfree) (by simp)

/-- What a request for a new instance demands: its class and its constructor are known. -/
def Known (q : Request) (r d : Registry) : Prop :=
  Registry.KnowsType (.object (q.object r)) d ∧
    ∀ f, q.constructor? r = some f → Registry.KnowsFunction f d

/-- What a request for a new instance demands is met for good once the instance is registered. -/
theorem known (hr : W.Grown r) (hW : W.Sound) (hq : W.IsNew q) (h : (r.type? q.id).isSome)
    {d : Registry} (hd : r.Extends d) : Known q r d :=
  ⟨(hr.knowsType hW hq h).extends hd, fun _ hf ↦ (hr.knowsFunction hq h hf).extends hd⟩

/-- What grows from a registry has grown from the start, if what is new in it is the instance of a
request or its constructor. -/
theorem of_extends (hr : W.Grown r) (hW : W.Sound) (hext : r.Extends r') (hindexed : r'.Indexed)
    (hq : W.IsNew q) (hargs : ∀ arg ∈ q.args, (r.type? arg).isSome)
    (htypes : ∀ {id : Fingerprint} {e : TypeEntry}, r'.types[id]? = some e →
      id = q.id ∧ e = .object (q.object r) ∨ r.types[id]? = some e)
    (hfunctions : ∀ {id : Fingerprint} {f : Callable}, r'.functions[id]? = some f →
      q.constructor? r = some f ∨ r.functions[id]? = some f)
    (hknown : Known q r r') : W.Grown r' := by
  have hreg : (r'.type? q.id).isSome := by
    obtain ⟨⟨⟨e, he, -⟩, -⟩, -⟩ := hknown
    exact Option.isSome_of_mem he
  refine ⟨hindexed, hr.extend.trans hext, fun he ↦ ?_, fun he ↦ ?_, fun hf ↦ ?_, fun hq' h hf ↦ ?_⟩
  · rcases htypes he with ⟨rfl, rfl⟩ | he
    · exact ⟨_, Origin.extends (.request hq hargs) hext, .same _⟩
    · obtain ⟨e₀, horigin, hmatures⟩ := hr.types he
      exact ⟨e₀, horigin.extends hext, hmatures.extend hext⟩
  · rcases htypes he with ⟨rfl, rfl⟩ | he
    · have hsimple := (hW.typeNames (hW.templates q hq.mem)).simple
      refine Registry.balanced_instanceName hsimple fun arg harg ↦ ?_
      obtain ⟨e, he⟩ := Option.isSome_iff_exists.1 (hargs arg harg)
      rw [Registry.typeName, he]
      exact hr.names he
    · exact hr.names he
  · rcases hfunctions hf with hnew | hf
    · exact .inr (.inr ⟨q, hq, hreg, by rwa [Request.constructor?_eq hext hargs]⟩)
    · refine (hr.functions hf).imp_right (Or.imp_right ?_)
      rintro ⟨q', hq', h, hf'⟩
      refine ⟨q', hq', hext.type?_isSome h, ?_⟩
      rwa [Request.constructor?_eq hext (hr.args hW hq' h)]
  · obtain ⟨e, he⟩ := Option.isSome_iff_exists.1 h
    rcases htypes he with ⟨hid, -⟩ | he
    · obtain rfl := hW.ids _ hq'.mem _ hq.mem hid
      rw [Request.constructor?_eq hext hargs] at hf
      exact (hknown.2 _ hf).1
    · have hreg' : (r.type? _).isSome := Option.isSome_of_mem he
      rw [Request.constructor?_eq hext (hr.args hW hq' hreg')] at hf
      exact hext.functions (hr.constructors hq' hreg' hf)

/-- A request for a new instance registers its class and its constructor. -/
theorem exists_created (hr : W.Grown r) (hW : W.Sound) (hq : W.IsNew q)
    (hargs : ∀ arg ∈ q.args, (r.type? arg).isSome) (hnone : r.types[q.id]? = none) :
    ∃ r₁ r₂, r.registerType (.object (q.object r)) = .ok r₁ ∧
      (q.constructor? r = none ∧ r₂ = r₁ ∨
        ∃ f, q.constructor? r = some f ∧ r₁.registerFunction f = .ok r₂) ∧
      r.Adds (Known q r) r₂ ∧ W.Grown r₂ := by
  have hname := hr.typeNames_eq_none hW hq hargs hnone
  have hregister : r.registerType (.object (q.object r)) = .ok (r.putType (.object (q.object r))) :=
    Registry.registerType_eq_ok_iff.2 ⟨hnone, hname, rfl⟩
  have hadds := Registry.adds_putType (e := .object (q.object r)) hnone hname
  have htypes {id : Fingerprint} {e : TypeEntry}
      (he : (r.putType (.object (q.object r))).types[id]? = some e) :
      id = q.id ∧ e = .object (q.object r) ∨ r.types[id]? = some e := by
    rw [Registry.types_putType] at he
    split at he
    next heq => exact .inl ⟨heq.symm, (Option.some.inj he).symm⟩
    next => exact .inr he
  cases hc : q.constructor? r with
  | none =>
    have hknown : r.Adds (Known q r) (r.putType (.object (q.object r))) :=
      hadds.congr fun d _ ↦ by simp [Known, hc]
    refine ⟨_, _, hregister, .inl ⟨rfl, rfl⟩, hknown, ?_⟩
    exact hr.of_extends hW hknown.extend (hr.indexed.registerType hregister) hq hargs htypes .inr
      hknown.meets
  | some f =>
    obtain ⟨hid, hfname⟩ := hr.functions_eq_none hW hq hargs hnone hc
    have hfunction : (r.putType (.object (q.object r))).registerFunction f =
        .ok ((r.putType (.object (q.object r))).putFunction f) :=
      Registry.registerFunction_eq_ok_iff.2 ⟨hid, hfname, rfl⟩
    have hknown : r.Adds (Known q r) ((r.putType (.object (q.object r))).putFunction f) :=
      (hadds.trans (Registry.adds_putFunction hid hfname)).congr fun d _ ↦ by simp [Known, hc]
    refine ⟨_, _, hregister, .inr ⟨f, rfl, hfunction⟩, hknown, ?_⟩
    refine hr.of_extends hW hknown.extend
      ((hr.indexed.registerType hregister).registerFunction hfunction) hq hargs htypes (fun hg ↦ ?_)
      hknown.meets
    rw [Registry.functions_putFunction] at hg
    split at hg
    · exact .inl (hc.trans hg)
    · exact .inr hg

end Grown

end Setting

end StackLowering
