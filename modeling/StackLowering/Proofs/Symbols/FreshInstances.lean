import Mathlib.Data.List.Forall2
import StackLowering.Proofs.Symbols.Instances

/-!
# Fresh instances

An instance that a request creates is the template with its parameters replaced. The identity of the
instance is computed before its class is put together, and its constructor is registered by itself and
linked to the class by its identity alone; so what the registry then finds under that identity
(`Registry.GainsInstance`) rests on all of these being in step.

Replacing is simultaneous (`TemplateEntry.Turns`): an argument that is itself a placeholder of the
template is not replaced again. So a placeholder of the template can be left in an instance, but only
where an argument brings it in.

What an instance is to be is stated of the template and the arguments alone, as a relation
(`TemplateEntry.IsInstance`, `TemplateEntry.IsConstructor`), and not as what the request computes. The
relation says of each field what its type has turned into. That the computed class is related relies on
the placeholders of one template being different: otherwise the last of two would win.

The rest of the registry stays as it was, told key by key: another identity and another name lead to
what they led to before.
-/

namespace StackLowering

open Std

/-! ### Parameters of a template -/

/-- What a type of a template turns into at some arguments: the placeholder of a parameter into the
argument at its position, and every other type into itself. -/
inductive TemplateEntry.Turns (t : TemplateEntry) (args : List Fingerprint) :
    Fingerprint → Fingerprint → Prop
  | param {i : Nat} {param : TemplateParam} {arg : Fingerprint} (hparam : t.params[i]? = some param)
      (harg : args[i]? = some arg) : Turns t args param.id arg
  | other {type : Fingerprint} (h : ∀ param ∈ t.params, param.id ≠ type) : Turns t args type type

namespace Substitution

variable {params : List TemplateParam} {args : List Fingerprint} {type : Fingerprint}

/-- What is bound in a row leaves other types alone. -/
private theorem getElem?_foldl_insert_of_ne {pairs : List (TemplateParam × Fingerprint)}
    (h : ∀ pair ∈ pairs, pair.1.id ≠ type) (s : Substitution) :
    (pairs.foldl (fun s (param, arg) ↦ s.insert param.id arg) s)[type]? = s[type]? := by
  induction pairs generalizing s with
  | nil => rfl
  | cons pair pairs ih =>
    have hne : pair.1.id ≠ type := h pair List.mem_cons_self
    rw [List.foldl_cons, ih fun pair' hpair' ↦ h pair' (List.mem_cons_of_mem pair hpair'),
      ExtTreeMap.getElem?_insert, if_neg (by simpa using hne)]

/-- What is no parameter is left as it is. -/
theorem type_bind_of_ne (h : ∀ param ∈ params, param.id ≠ type) :
    (bind params args).type type = type := by
  have hfree : (bind params args)[type]? = none :=
    (getElem?_foldl_insert_of_ne (fun pair hpair ↦ h _ (List.of_mem_zip hpair).1) ∅).trans (by simp)
  rw [Substitution.type, hfree, Option.getD_none]

/-- If no placeholder is bound twice, each is bound to the argument that stands with it. -/
private theorem getElem?_foldl_insert_of_mem {pairs : List (TemplateParam × Fingerprint)}
    (hnodup : (pairs.map (·.1.id)).Nodup) {pair : TemplateParam × Fingerprint} (h : pair ∈ pairs)
    (s : Substitution) :
    (pairs.foldl (fun s (param, arg) ↦ s.insert param.id arg) s)[pair.1.id]? = some pair.2 := by
  induction pairs generalizing s with
  | nil => exact nomatch h
  | cons first pairs ih =>
    obtain ⟨hfirst, hrest⟩ := List.nodup_cons.1 hnodup
    rcases List.mem_cons.1 h with rfl | hmem
    · have hne : ∀ pair' ∈ pairs, pair'.1.id ≠ pair.1.id := fun pair' hpair' heq ↦
        hfirst (List.mem_map.2 ⟨pair', hpair', heq⟩)
      rw [List.foldl_cons, getElem?_foldl_insert_of_ne hne, ExtTreeMap.getElem?_insert,
        if_pos (by simp)]
    · exact ih hrest hmem _

/-- A template with different parameters and an argument for each replaces them all at once. -/
theorem turns_type_bind {t : TemplateEntry} (hnodup : (t.params.map (·.id)).Nodup)
    (hlength : args.length = t.arity) (type : Fingerprint) :
    t.Turns args type ((bind t.params args).type type) := by
  by_cases hparam : ∃ param ∈ t.params, param.id = type
  · obtain ⟨param, hmem, rfl⟩ := hparam
    obtain ⟨i, hi⟩ := List.mem_iff_getElem?.1 hmem
    have hlt : i < args.length := hlength ▸ (List.getElem?_eq_some_iff.1 hi).1
    have harg : args[i]? = some args[i] := List.getElem?_eq_getElem hlt
    have hpair : (param, args[i]) ∈ t.params.zip args :=
      List.mem_iff_getElem?.2 ⟨i, List.getElem?_zip_eq_some.2 ⟨hi, harg⟩⟩
    have hids : ((t.params.zip args).map (·.1.id)).Nodup := by
      have hfst : (t.params.zip args).map Prod.fst = t.params := List.map_fst_zip (Nat.le_of_eq hlength.symm)
      rwa [← hfst, List.map_map] at hnodup
    have hbound : (bind t.params args)[param.id]? = some args[i] :=
      getElem?_foldl_insert_of_mem hids hpair ∅
    rw [Substitution.type, hbound, Option.getD_some]
    exact .param hi harg
  · have hne : ∀ param ∈ t.params, param.id ≠ type := fun param hmem heq ↦
      hparam ⟨param, hmem, heq⟩
    rw [type_bind_of_ne hne]
    exact .other hne

end Substitution

/-- A placeholder of the template is left only where an argument brings it in. -/
theorem TemplateEntry.Turns.ne_param {t : TemplateEntry} {args : List Fingerprint}
    {type type' : Fingerprint} (h : t.Turns args type type') {param : TemplateParam}
    (hparam : param ∈ t.params) (hargs : param.id ∉ args) : type' ≠ param.id := by
  rintro rfl
  cases h with
  | param _ harg => exact hargs (List.mem_of_getElem? harg)
  | other hother => exact hother param hparam rfl

/-! ### The class and the constructor of an instance -/

namespace TemplateEntry

/-- A class that is not laid out and is the instance of a template at some arguments. -/
structure IsInstance (t : TemplateEntry) (args : List Fingerprint) (name : String) (c : ClassEntry) :
    Prop where
  id_eq : c.id = .ofInstance t.id args
  name_eq : c.name = name
  extent?_eq : c.extent? = none
  origin?_eq : c.origin? = some ⟨t.id, args⟩
  /-- The fields are those of the template in order. None is placed. -/
  fields : List.Forall₂ (fun declared field ↦
    field.name = declared.1 ∧ t.Turns args declared.2 field.type ∧ field.offset? = none) t.fields
      c.fields

/-- The constructor of the instance of a template at some arguments, from the parameters that the
template declares. -/
structure IsConstructor (t : TemplateEntry) (args : List Fingerprint) (name : String)
    (declared : List Param) (f : Callable) : Prop where
  id_eq : f.id = .ofConstructor (.ofInstance t.id args) (f.params.map (·.type))
  name_eq : f.name = name ++ "#ctor"
  isConstructor : f.isConstructor = true
  returns_eq : f.returns = Primitive.uintptr.fingerprint
  params : List.Forall₂ (fun declared param ↦ param.name = declared.name ∧
    param.default? = declared.default? ∧ t.Turns args declared.type param.type) declared f.params

variable {t : TemplateEntry} {args : List Fingerprint} {name : String} {param : TemplateParam}

/-- No field of an instance has a placeholder of the template for its type, unless an argument is that
placeholder. -/
theorem IsInstance.type_ne_param {c : ClassEntry} (h : t.IsInstance args name c)
    (hparam : param ∈ t.params) (hargs : param.id ∉ args) {field : Field} (hfield : field ∈ c.fields) :
    field.type ≠ param.id := by
  obtain ⟨i, hi, rfl⟩ := List.getElem_of_mem hfield
  obtain ⟨-, hturns, -⟩ := h.fields.get (h.fields.length_eq ▸ hi) hi
  exact hturns.ne_param hparam hargs

/-- No parameter of the constructor of an instance has a placeholder of the template for its type,
unless an argument is that placeholder. -/
theorem IsConstructor.type_ne_param {declared : List Param} {f : Callable}
    (h : t.IsConstructor args name declared f) (hparam : param ∈ t.params) (hargs : param.id ∉ args)
    {p : Param} (hp : p ∈ f.params) : p.type ≠ param.id := by
  obtain ⟨i, hi, rfl⟩ := List.getElem_of_mem hp
  obtain ⟨-, -, hturns⟩ := h.params.get (h.params.length_eq ▸ hi) hi
  exact hturns.ne_param hparam hargs

/-- The class that a request puts together is the instance of the template. -/
theorem isInstance_instanceClass (hnodup : (t.params.map (·.id)).Nodup)
    (hlength : args.length = t.arity) (name : String) :
    t.IsInstance args name (t.instanceClass name args (.bind t.params args)) where
  id_eq := rfl
  name_eq := rfl
  extent?_eq := rfl
  origin?_eq := rfl
  fields := List.forall₂_map_right_iff.2 (List.forall₂_same.2 fun _ _ ↦
    ⟨rfl, Substitution.turns_type_bind hnodup hlength _, rfl⟩)

/-- The constructor that a request puts together is that of the template, and there is one exactly if
the template has one. -/
theorem isConstructor_instanceConstructor? (hnodup : (t.params.map (·.id)).Nodup)
    (hlength : args.length = t.arity) (name : String) :
    Option.Rel (t.IsConstructor args name) t.constructor?
      (t.instanceConstructor? name (.ofInstance t.id args) (.bind t.params args)) := by
  unfold instanceConstructor?
  cases t.constructor? with
  | none => exact .none
  | some declared =>
    exact .some
      { id_eq := rfl
        name_eq := rfl
        isConstructor := rfl
        returns_eq := rfl
        params := List.forall₂_map_right_iff.2 (List.forall₂_same.2 fun _ _ ↦
          ⟨rfl, rfl, Substitution.turns_type_bind hnodup hlength _⟩) }

end TemplateEntry

/-! ### What a request adds to the registry -/

/-- One registry has the instance of a template besides what the other has: its class and, if the
template declares one, its constructor. -/
structure Registry.GainsInstance (r : Registry) (t : TemplateEntry) (args : List Fingerprint)
    (name : String) (r' : Registry) : Prop where
  /-- The class is found under its identity and under its name. -/
  object : ∃ c, t.IsInstance args name c ∧ r'.class? (.ofInstance t.id args) = some c ∧
    r'.typeNamed? name = some (.object c)
  /-- The class has a constructor exactly if the template declares one. -/
  constructor : Option.Rel (t.IsConstructor args name) t.constructor?
    (r'.constructorOf? (.ofInstance t.id args))
  /-- The constructor is found under its symbol. -/
  symbol : ∀ f, r'.constructorOf? (.ofInstance t.id args) = some f →
    r'.functionNamed? f.name = some f
  /-- A placeholder of the template is left only where an argument brings it in. -/
  placeholders : ∀ param ∈ t.params, param.id ∉ args →
    (∀ c, r'.class? (.ofInstance t.id args) = some c → ∀ field ∈ c.fields, field.type ≠ param.id) ∧
    ∀ f, r'.constructorOf? (.ofInstance t.id args) = some f → ∀ p ∈ f.params, p.type ≠ param.id
  types : ∀ id, id ≠ .ofInstance t.id args → r'.type? id = r.type? id
  typeNames : ∀ other, other ≠ name → r'.typeNames[other]? = r.typeNames[other]?
  functions : ∀ id, (∀ f, r'.constructorOf? (.ofInstance t.id args) = some f → f.id ≠ id) →
    r'.function? id = r.function? id
  functionNames : ∀ other,
    (∀ f, r'.constructorOf? (.ofInstance t.id args) = some f → f.name ≠ other) →
    r'.functionNames[other]? = r.functionNames[other]?
  width : r'.width = r.width

namespace Registry

/-- Enters a class and, if there is one, its constructor, over whatever was there. -/
def putObject (r : Registry) (c : ClassEntry) : Option Callable → Registry
  | none => r.putType (.object c)
  | some f => (r.putType (.object c)).putFunction f

variable (r : Registry) (c : ClassEntry) (f? : Option Callable)

/-- Registering a class with its constructor enters the class under its identity, and no other type. -/
theorem types_putObject (id : Fingerprint) :
    (r.putObject c f?).types[id]? = if c.id = id then some (.object c) else r.types[id]? := by
  cases f? <;> exact types_putType r (.object c) id

/-- Only the name of the class is new among the names of types. -/
theorem typeNames_putObject (name : String) :
    (r.putObject c f?).typeNames[name]? =
      if c.name = name then some c.id else r.typeNames[name]? := by
  cases f? <;> exact typeNames_putType r (.object c) name

theorem width_putObject : (r.putObject c f?).width = r.width := by
  cases f? <;> rfl

theorem functionNames_putFunction (f : Callable) (name : String) :
    (r.putFunction f).functionNames[name]? =
      if f.name = name then some f.id else r.functionNames[name]? := by
  simp [putFunction, ExtTreeMap.getElem?_insert]

variable {r c f?}

/-- The class is found under its identity. -/
theorem class?_putObject : (r.putObject c f?).class? c.id = some c :=
  class?_eq_some_iff.2 ((types_putObject r c f? c.id).trans (if_pos rfl))

/-- The class is found under its name. -/
theorem typeNamed?_putObject : (r.putObject c f?).typeNamed? c.name = some (.object c) := by
  rw [typeNamed?, typeNames_putObject, if_pos rfl]
  exact (types_putObject r c f? c.id).trans (if_pos rfl)

/-- The class finds its constructor if it has noted its identity. -/
theorem constructorOf?_putObject (hlink : c.constructor? = f?.map (·.id)) :
    (r.putObject c f?).constructorOf? c.id = f? := by
  rw [constructorOf?, class?_putObject, Option.bind_some, hlink]
  cases f? with
  | none => rfl
  | some f => exact (functions_putFunction _ f f.id).trans (if_pos rfl)

/-- The constructor is found under its symbol. -/
theorem functionNamed?_putObject {f : Callable} (h : f? = some f) :
    (r.putObject c f?).functionNamed? f.name = some f := by
  subst h
  rw [functionNamed?, putObject, functionNames_putFunction, if_pos rfl]
  exact (functions_putFunction _ f f.id).trans (if_pos rfl)

/-- Under every other identity the same functions are found. -/
theorem function?_putObject_of_ne {id : Fingerprint} (h : ∀ f, f? = some f → f.id ≠ id) :
    (r.putObject c f?).function? id = r.function? id := by
  cases f? with
  | none => rfl
  | some f => exact (functions_putFunction _ f id).trans (if_neg (h f rfl))

/-- Every other symbol leads to the same identity. -/
theorem functionNames_putObject_of_ne {name : String} (h : ∀ f, f? = some f → f.name ≠ name) :
    (r.putObject c f?).functionNames[name]? = r.functionNames[name]? := by
  cases f? with
  | none => rfl
  | some f => exact (functionNames_putFunction _ f name).trans (if_neg (h f rfl))

variable {t : TemplateEntry} {args : List Fingerprint} {name : String}

/-- The class of an instance and its constructor are what the registry has to gain, if the class has
noted the identity of the constructor. -/
theorem gainsInstance_putObject (hc : t.IsInstance args name c)
    (hf : Option.Rel (t.IsConstructor args name) t.constructor? f?)
    (hlink : c.constructor? = f?.map (·.id)) :
    r.GainsInstance t args name (r.putObject c f?) := by
  have hclass : (r.putObject c f?).class? (.ofInstance t.id args) = some c :=
    hc.id_eq ▸ class?_putObject
  have hconstructor : (r.putObject c f?).constructorOf? (.ofInstance t.id args) = f? :=
    hc.id_eq ▸ constructorOf?_putObject hlink
  constructor
  case object => exact ⟨c, hc, hclass, hc.name_eq ▸ typeNamed?_putObject⟩
  case constructor => rwa [hconstructor]
  case symbol =>
    intro f hsome
    exact functionNamed?_putObject (hconstructor ▸ hsome)
  case placeholders =>
    intro param hparam hargs
    refine ⟨fun c' hc' field hfield ↦ ?_, fun f hsome p hp ↦ ?_⟩
    · obtain rfl := Option.some.inj (hclass.symm.trans hc')
      exact hc.type_ne_param hparam hargs hfield
    · rw [hconstructor.symm.trans hsome] at hf
      generalize t.constructor? = declared? at hf
      cases hf with
      | some hdeclared => exact hdeclared.type_ne_param hparam hargs hp
  case types =>
    intro id hne
    exact (types_putObject r c f? id).trans (if_neg (hc.id_eq ▸ hne.symm))
  case typeNames =>
    intro other hne
    exact (typeNames_putObject r c f? other).trans (if_neg (hc.name_eq ▸ hne.symm))
  case functions =>
    intro id hne
    exact function?_putObject_of_ne fun f hsome ↦ hne f (hconstructor.trans hsome)
  case functionNames =>
    intro other hne
    exact functionNames_putObject_of_ne fun f hsome ↦ hne f (hconstructor.trans hsome)
  case width => exact width_putObject r c f?

/-- Registered types go by their names. -/
theorem map_typeName {entries : List TypeEntry}
    (h : List.Forall₂ (fun id entry ↦ r.type? id = some entry) args entries) :
    args.map r.typeName = entries.map (·.name) := by
  induction h with
  | nil => rfl
  | cons hentry _ ih => rw [List.map_cons, List.map_cons, ih, typeName, hentry]

end Registry

namespace Symbols

variable {s s' : Symbols} {t : TemplateEntry} {args : List Fingerprint} {span : Span}
  {id : Fingerprint}

/-- Where nothing is remembered, whatever is remembered is registered. -/
theorem Faithful.of_empty (r : Registry) : ({ registry := r } : Symbols).Faithful :=
  ⟨by simp [InstanceCache.find?_empty], by simp [InstanceCache.find?_empty]⟩

/-- A successful request for what is neither remembered nor registered enters the class and the
constructor of the new instance. -/
theorem registry_of_instantiate_new (hs : s.Faithful)
    (htemplate : s.registry.type? t.id = some (.template t))
    (hnew : s.registry.type? (.ofInstance t.id args) = none)
    (h : s.instantiate t.id args span = (.ok id, s')) :
    id = .ofInstance t.id args ∧
      s'.registry = s.registry.putObject (s.newClass t args) (s.newConstructor? t args) := by
  have hanswer := answer_instantiate s t.id args span
  rw [h] at hanswer
  cases hanswer with
  | remembered hfind => exact absurd hfind (by simp [hs.find?_eq_none hnew])
  | adopted _ hreg => exact absurd hreg (by simp [hnew])
  | @created t' r r' _ htemplate' _ hclass hf =>
    obtain rfl : t = t' := TypeEntry.template.inj (Option.some.inj (htemplate.symm.trans htemplate'))
    obtain ⟨-, -, rfl⟩ := Registry.registerType_eq_ok_iff.1 hclass
    refine ⟨rfl, ?_⟩
    rcases hf with ⟨hnone, rfl⟩ | ⟨f, hsome, hf⟩
    · rw [hnone]
      rfl
    · obtain ⟨-, -, rfl⟩ := Registry.registerFunction_eq_ok_iff.1 hf
      rw [hsome]
      rfl

/-- A successful request for an instance that is not registered adds the template with its parameters
replaced, and nothing else. The template has different parameters, every argument is registered, and
what is remembered is registered as well, as in every state that requests lead to. -/
theorem gainsInstance_of_instantiate (hs : s.Faithful)
    (htemplate : s.registry.type? t.id = some (.template t))
    (hparams : (t.params.map (·.id)).Nodup) (hlength : args.length = t.arity)
    {entries : List TypeEntry}
    (hargs : List.Forall₂ (fun arg entry ↦ s.registry.type? arg = some entry) args entries)
    (hnew : s.registry.type? (.ofInstance t.id args) = none)
    (h : s.instantiate t.id args span = (.ok id, s')) :
    id = .ofInstance t.id args ∧
      s.registry.GainsInstance t args
        (t.name ++ "<" ++ String.intercalate ", " (entries.map (·.name)) ++ ">") s'.registry := by
  obtain ⟨hid, hregistry⟩ := registry_of_instantiate_new hs htemplate hnew h
  have hname : s.newName t args =
      t.name ++ "<" ++ String.intercalate ", " (entries.map (·.name)) ++ ">" := by
    rw [newName, Registry.instanceName, Registry.map_typeName hargs]
  refine ⟨hid, ?_⟩
  rw [hregistry, ← hname]
  exact Registry.gainsInstance_putObject (TemplateEntry.isInstance_instanceClass hparams hlength _)
    (TemplateEntry.isConstructor_instanceConstructor? hparams hlength _) rfl

/-- A template with two parameters and a constructor with a default. -/
def entryTemplate : TemplateEntry :=
  let key := (TemplateEntry.parameter (.ofTypeName "Entry") "K").id
  let value := (TemplateEntry.parameter (.ofTypeName "Entry") "V").id
  .named "Entry" ["K", "V"] [("value", value), ("key", key), ("hits", Primitive.int32.fingerprint)]
    (some [⟨"key", key, none⟩, ⟨"value", value, some (.int 1)⟩])

/-- The first instance of the template, at `int64` and `bool`. -/
theorem gainsInstance_of_instantiate_entry :
    let s : Symbols := { registry := (Registry.withPrimitives .w32).putType (.template entryTemplate) }
    let args := [Primitive.int64.fingerprint, Primitive.bool.fingerprint]
    let out := s.instantiate entryTemplate.id args .nowhere
    out.1 = .ok (.ofInstance entryTemplate.id args) ∧
      s.registry.GainsInstance entryTemplate args "Entry<int64, bool>" out.2.registry := by
  intro s args out
  have hout : out.1 = .ok (.ofInstance entryTemplate.id args) := by decide +kernel
  have hs : s.Faithful := .of_empty _
  have hargs : List.Forall₂ (fun arg entry ↦ s.registry.type? arg = some entry) args
      [.primitive .int64, .primitive .bool] :=
    .cons (by decide +kernel) (.cons (by decide +kernel) .nil)
  have hrun : s.instantiate entryTemplate.id args .nowhere =
      (.ok (.ofInstance entryTemplate.id args), out.2) := Prod.ext hout rfl
  have hgains := gainsInstance_of_instantiate hs (by decide +kernel) (by decide +kernel) (by decide)
    hargs (by decide +kernel) hrun
  exact ⟨hout, hgains.2⟩

end Symbols

end StackLowering
