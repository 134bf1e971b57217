import StackLowering.Proofs.Symbols.Registry
import StackLowering.Symbols.Instances

/-!
# Requests for instances

A request for an instance of a template has seven outcomes, which `Symbols.Answer` lists with
everything that holds in each. What holds of all requests is read off from that list.

Two of the outcomes are not what one would wish for.

* The argument count is checked after two shortcuts: a remembered instance and a type that is
  registered under the identity of the instance. In a state that requests and registrations lead to,
  the first is a case of the second (`Symbols.Reachable.faithful`). The second always applies to an
  empty argument list, because the identity of the instance is then that of the template.
* An instance is registered in two steps. If its constructor is refused after its class has been
  registered, the request fails and the class stays (`Symbols.Answer.of_error`). No other failure
  leaves a trace.
-/

namespace StackLowering

open Std

namespace InstanceCache

/-- What is remembered is found again for the same template and the same arguments, and nothing else
changes. -/
theorem find?_remember (cache : InstanceCache) (template template' id : Fingerprint)
    (args args' : List Fingerprint) :
    (cache.remember template args id).find? template' args' =
      if template :: args = template' :: args' then some id else cache.find? template' args' := by
  simp [remember, find?, ExtTreeMap.getElem?_insert]

/-- At first nothing is remembered. -/
theorem find?_empty (template : Fingerprint) (args : List Fingerprint) :
    InstanceCache.empty.find? template args = none := by
  simp [empty, find?]

end InstanceCache

/-! ### Substitution -/

namespace Substitution

/-- The bindings that are made in a row come from the list, or were there before. -/
private theorem getElem?_foldl_insert {pairs : List (TemplateParam × Fingerprint)}
    {s : Substitution} {type arg : Fingerprint}
    (h : (pairs.foldl (fun s (param, arg) ↦ s.insert param.id arg) s)[type]? = some arg) :
    (∃ param, (param, arg) ∈ pairs) ∨ s[type]? = some arg := by
  induction pairs generalizing s with
  | nil => exact .inr h
  | cons pair pairs ih =>
    rcases ih h with ⟨param, hparam⟩ | hs
    · exact .inl ⟨param, List.mem_cons_of_mem _ hparam⟩
    · rw [ExtTreeMap.getElem?_insert] at hs
      split at hs
      · obtain rfl := Option.some.inj hs
        exact .inl ⟨pair.1, List.mem_cons_self⟩
      · exact .inr hs

/-- A placeholder that is bound stays bound. -/
private theorem isSome_foldl_insert {pairs : List (TemplateParam × Fingerprint)}
    {s : Substitution} {type : Fingerprint}
    (h : (s[type]?).isSome ∨ ∃ pair ∈ pairs, pair.1.id = type) :
    ((pairs.foldl (fun s (param, arg) ↦ s.insert param.id arg) s)[type]?).isSome := by
  induction pairs generalizing s with
  | nil =>
    rcases h with hs | ⟨pair, hpair, -⟩
    · exact hs
    · simp at hpair
  | cons pair pairs ih =>
    refine ih ?_
    rcases h with hs | ⟨pair', hpair', rfl⟩
    · refine .inl ?_
      rw [ExtTreeMap.getElem?_insert]
      split
      · rfl
      · exact hs
    · rcases List.mem_cons.1 hpair' with rfl | hmem
      · exact .inl (by simp)
      · exact .inr ⟨pair', hmem, rfl⟩

variable {params : List TemplateParam} {args : List Fingerprint} {type : Fingerprint}

/-- What a type is replaced by is an argument, or the type itself. -/
theorem type_bind_eq (params : List TemplateParam) (args : List Fingerprint) (type : Fingerprint) :
    (bind params args).type type ∈ args ∨ (bind params args).type type = type := by
  unfold Substitution.type
  cases h : (bind params args)[type]? with
  | none => exact .inr rfl
  | some arg =>
    rcases getElem?_foldl_insert h with ⟨param, hparam⟩ | hempty
    · exact .inl (List.of_mem_zip hparam).2
    · simp at hempty

/-- A parameter of the template is replaced by an argument, if there are enough of them. -/
theorem type_bind_mem (hlength : args.length = params.length) {param : TemplateParam}
    (hparam : param ∈ params) : (bind params args).type param.id ∈ args := by
  obtain ⟨i, hi, rfl⟩ := List.getElem_of_mem hparam
  have hpair : (params[i], args[i]) ∈ params.zip args := by
    rw [← List.getElem_zip (h := by simp; omega)]
    exact List.getElem_mem _
  have hbound : ((bind params args)[params[i].id]?).isSome :=
    isSome_foldl_insert (.inr ⟨_, hpair, rfl⟩)
  obtain ⟨arg, harg⟩ := Option.isSome_iff_exists.1 hbound
  rw [Substitution.type, harg, Option.getD_some]
  rcases getElem?_foldl_insert harg with ⟨param, hmem⟩ | hempty
  · exact (List.of_mem_zip hmem).2
  · simp at hempty

end Substitution

/-! ### Refusals -/

/-- The error that a request for a registered type as a template has to fail with, if it has to:
only a template can be instantiated, and only at as many arguments as it has parameters. -/
def TypeEntry.refusal? (entry : TypeEntry) (args : List Fingerprint) (span : Span) :
    Option CompileError :=
  match entry with
  | .template t =>
    if args.length = t.arity then none
    else some (.templateArgumentCount t.name t.arity args.length span)
  | entry => some (.notATemplate entry.name span)

namespace Symbols

variable {s s' : Symbols} {template : Fingerprint} {args : List Fingerprint} {span : Span}

/-! ### The outcomes of a request -/

/-- The name of a new instance. -/
def newName (s : Symbols) (t : TemplateEntry) (args : List Fingerprint) : String :=
  s.registry.instanceName t.name args

/-- The class of a new instance. -/
def newClass (s : Symbols) (t : TemplateEntry) (args : List Fingerprint) : ClassEntry :=
  t.instanceClass (s.newName t args) args (.bind t.params args)

/-- The constructor of a new instance, if the template declares one. -/
def newConstructor? (s : Symbols) (t : TemplateEntry) (args : List Fingerprint) :
    Option Callable :=
  t.instanceConstructor? (s.newName t args) (.ofInstance t.id args) (.bind t.params args)

/-- The outcomes of a request for a template at some arguments. -/
inductive Answer (s : Symbols) (template : Fingerprint) (args : List Fingerprint) (span : Span) :
    Except CompileError Fingerprint × Symbols → Prop
  | remembered {id : Fingerprint} (hfind : s.instances.find? template args = some id) :
      Answer s template args span (.ok id, s)
  | adopted (hfind : s.instances.find? template args = none)
      (hreg : (s.registry.type? (.ofInstance template args)).isSome) :
      Answer s template args span
        (.ok (.ofInstance template args), s.remember template args (.ofInstance template args))
  | unknown (hfind : s.instances.find? template args = none)
      (hreg : s.registry.type? (.ofInstance template args) = none)
      (htemplate : s.registry.type? template = none) :
      Answer s template args span (.error (.unknownType template.text span), s)
  | refused {entry : TypeEntry} {error : CompileError}
      (hfind : s.instances.find? template args = none)
      (hreg : s.registry.type? (.ofInstance template args) = none)
      (htemplate : s.registry.type? template = some entry)
      (herror : entry.refusal? args span = some error) :
      Answer s template args span (.error error, s)
  | classRefused {t : TemplateEntry} {error : RegistrationError}
      (hfind : s.instances.find? template args = none)
      (htemplate : s.registry.type? template = some (.template t)) (hargs : args.length = t.arity)
      (hclass : s.registry.registerType (.object (s.newClass t args)) = .error error) :
      Answer s template args span (.error (.registration error span), s)
  | constructorRefused {t : TemplateEntry} {r : Registry} {f : Callable} {error : RegistrationError}
      (hfind : s.instances.find? template args = none)
      (htemplate : s.registry.type? template = some (.template t)) (hargs : args.length = t.arity)
      (hclass : s.registry.registerType (.object (s.newClass t args)) = .ok r)
      (hnew : s.newConstructor? t args = some f) (hf : r.registerFunction f = .error error) :
      Answer s template args span (.error (.registration error span), { s with registry := r })
  | created {t : TemplateEntry} {r r' : Registry}
      (hfind : s.instances.find? template args = none)
      (htemplate : s.registry.type? template = some (.template t)) (hargs : args.length = t.arity)
      (hclass : s.registry.registerType (.object (s.newClass t args)) = .ok r)
      (hf : s.newConstructor? t args = none ∧ r' = r ∨
        ∃ f, s.newConstructor? t args = some f ∧ r.registerFunction f = .ok r') :
      Answer s template args span
        (.ok (.ofInstance t.id args),
          { s with registry := r' }.remember t.id args (.ofInstance t.id args))

/-- Creating an instance has the last three outcomes. -/
theorem answer_createInstance {t : TemplateEntry}
    (hfind : s.instances.find? template args = none)
    (htemplate : s.registry.type? template = some (.template t)) (hargs : args.length = t.arity) :
    s.Answer template args span (s.createInstance t args (.bind t.params args) span) := by
  unfold createInstance
  dsimp only
  split
  next error hclass => exact .classRefused hfind htemplate hargs hclass
  next r hclass =>
    split
    next hnew => exact .created hfind htemplate hargs hclass (.inl ⟨hnew, rfl⟩)
    next f hnew =>
      split
      next error hf => exact .constructorRefused hfind htemplate hargs hclass hnew hf
      next r' hf => exact .created hfind htemplate hargs hclass (.inr ⟨f, hnew, hf⟩)

/-- Every request has one of the outcomes. -/
theorem answer_instantiate (s : Symbols) (template : Fingerprint) (args : List Fingerprint)
    (span : Span) : s.Answer template args span (s.instantiate template args span) := by
  unfold instantiate
  -- the two shortcuts come before the template is looked at
  cases hfind : s.instances.find? template args with
  | some id => exact .remembered hfind
  | none =>
    cases hreg : s.registry.type? (.ofInstance template args) with
    | some e =>
      have hcontains : s.registry.containsType (.ofInstance template args) = true :=
        ExtTreeMap.contains_eq_isSome_getElem?.trans (Option.isSome_of_mem hreg)
      simp only [hcontains, if_true]
      exact .adopted hfind (Option.isSome_of_mem hreg)
    | none =>
      have hcontains : ¬ s.registry.containsType (.ofInstance template args) = true := by
        simpa [Registry.containsType, Registry.type?] using hreg
      simp only [if_neg hcontains]
      cases htemplate : s.registry.type? template with
      | none => exact .unknown hfind hreg htemplate
      | some entry =>
        cases entry with
        | primitive p => exact .refused hfind hreg htemplate rfl
        | object c => exact .refused hfind hreg htemplate rfl
        | template t =>
          by_cases hargs : args.length = t.arity
          · simp only [TemplateEntry.substitution, if_pos hargs]
            exact answer_createInstance hfind htemplate hargs
          · simp only [TemplateEntry.substitution, if_neg hargs]
            exact .refused hfind hreg htemplate (by simp [TypeEntry.refusal?, hargs])

/-! ### Reachable states -/

/-- The states that requests and operations of a host lead to, from a registry that a host can build
and no remembered instance. -/
inductive Reachable : Symbols → Prop
  | start {r : Registry} (h : r.Built) : Reachable { registry := r }
  | host {s : Symbols} {r : Registry} (h : Reachable s) (hs : s.registry.Step r) :
      Reachable { s with registry := r }
  | request {s : Symbols} (h : Reachable s) (template : Fingerprint) (args : List Fingerprint)
      (span : Span) : Reachable (s.instantiate template args span).2

/-- The registrations of a request are operations of a host, so a request keeps what these keep. -/
theorem Answer.of_step {P : Registry → Prop}
    (hstep : ∀ {r r' : Registry}, P r → r.Step r' → P r')
    {out : Except CompileError Fingerprint × Symbols} (h : s.Answer template args span out)
    (hs : P s.registry) : P out.2.registry := by
  cases h with
  | remembered => exact hs
  | adopted => exact hs
  | unknown => exact hs
  | refused => exact hs
  | classRefused => exact hs
  | constructorRefused _ _ _ hclass => exact hstep hs (.registerType hclass)
  | created _ _ _ hclass hf =>
    have hr := hstep hs (.registerType hclass)
    rcases hf with ⟨-, rfl⟩ | ⟨f, -, hf⟩
    · exact hr
    · exact hstep hr (.registerFunction hf)

/-- An answer leaves a registry that a host could have built. -/
theorem Answer.built {out : Except CompileError Fingerprint × Symbols}
    (h : s.Answer template args span out) (hs : s.registry.Built) : out.2.registry.Built :=
  h.of_step .step hs

/-- A registered class is found under its identity. -/
theorem type?_of_registerType {r r' : Registry} {e : TypeEntry} (h : r.registerType e = .ok r') :
    r'.type? e.id = some e := by
  obtain ⟨-, -, rfl⟩ := Registry.registerType_eq_ok_iff.1 h
  rw [Registry.type?, Registry.types_putType, if_pos rfl]

/-! ### Growth -/

/-- What is registered in one state is registered in the other, and what is remembered in one state is
remembered in the other. -/
structure Extends (s s' : Symbols) : Prop where
  registry : s.registry.Extends s'.registry
  instances : ∀ {template id : Fingerprint} {args : List Fingerprint},
    s.instances.find? template args = some id → s'.instances.find? template args = some id

theorem Extends.refl (s : Symbols) : s.Extends s :=
  ⟨.refl _, fun h ↦ h⟩

theorem Extends.trans {s s' s'' : Symbols} (h : s.Extends s') (h' : s'.Extends s'') :
    s.Extends s'' :=
  ⟨h.registry.trans h'.registry, fun hfind ↦ h'.instances (h.instances hfind)⟩

/-- A new instance is remembered for what was not asked for before. -/
theorem find?_remember_of_find? {template template' id id' : Fingerprint}
    {args args' : List Fingerprint} (hnew : s.instances.find? template args = none)
    (hfind : s.instances.find? template' args' = some id') :
    (s.instances.remember template args id).find? template' args' = some id' := by
  exact getElem?_insert_of_eq_none hnew hfind

/-- A request takes nothing away that is registered. -/
theorem Answer.registry {out : Except CompileError Fingerprint × Symbols}
    (h : s.Answer template args span out) : s.registry.Extends out.2.registry := by
  cases h with
  | remembered => exact .refl _
  | adopted => exact .refl _
  | unknown => exact .refl _
  | refused => exact .refl _
  | classRefused => exact .refl _
  | constructorRefused _ _ _ hclass => exact .of_registerType hclass
  | created _ _ _ hclass hf =>
    have hr := Registry.Extends.of_registerType hclass
    rcases hf with ⟨-, rfl⟩ | ⟨f, -, hf⟩
    · exact hr
    · exact hr.trans (.of_registerFunction hf)

/-- A request takes nothing away. What is remembered may be lost only if a template is registered
under the identity of another type. -/
theorem Answer.extends {out : Except CompileError Fingerprint × Symbols}
    (h : s.Answer template args span out) (hs : s.registry.Keyed) : s.Extends out.2 := by
  refine ⟨h.registry, ?_⟩
  cases h with
  | remembered => exact id
  | adopted hfind => exact find?_remember_of_find? hfind
  | unknown => exact id
  | refused => exact id
  | classRefused => exact id
  | constructorRefused => exact id
  | @created t _ _ hfind htemplate =>
    obtain rfl : t.id = template := hs _ _ htemplate
    exact find?_remember_of_find? hfind

/-- An answered request is remembered. -/
theorem Answer.remembers {id : Fingerprint} {s' : Symbols}
    (h : s.Answer template args span (.ok id, s')) (hs : s.registry.Keyed) :
    s'.instances.find? template args = some id := by
  cases h with
  | remembered hfind => exact hfind
  | adopted => simp [remember, InstanceCache.find?_remember]
  | @created t _ _ _ htemplate =>
    obtain rfl : t.id = template := hs _ _ htemplate
    simp [remember, InstanceCache.find?_remember]

/-! ### Remembered instances -/

/-- What is remembered for a template at some arguments is the identity of the instance, and that is
the identity of a registered type. -/
structure Faithful (s : Symbols) : Prop where
  id_eq : ∀ {template id : Fingerprint} {args : List Fingerprint},
    s.instances.find? template args = some id → id = .ofInstance template args
  type?_isSome : ∀ {template id : Fingerprint} {args : List Fingerprint},
    s.instances.find? template args = some id → (s.registry.type? id).isSome

namespace Faithful

/-- Types may be added. -/
theorem setRegistry (h : s.Faithful) {r : Registry}
    (hr : ∀ id, (s.registry.type? id).isSome → (r.type? id).isSome) :
    ({ s with registry := r } : Symbols).Faithful :=
  ⟨h.id_eq, fun hfind ↦ hr _ (h.type?_isSome hfind)⟩

/-- What is not registered is not remembered. -/
theorem find?_eq_none (h : s.Faithful)
    (hreg : s.registry.type? (.ofInstance template args) = none) :
    s.instances.find? template args = none := by
  cases hfind : s.instances.find? template args with
  | none => rfl
  | some id =>
    obtain rfl := h.id_eq hfind
    simpa [hreg] using h.type?_isSome hfind

/-- A registered instance may be remembered. -/
theorem remember (h : s.Faithful) {template : Fingerprint} {args : List Fingerprint}
    (hreg : (s.registry.type? (.ofInstance template args)).isSome) :
    (s.remember template args (.ofInstance template args)).Faithful := by
  have hnew {template' id : Fingerprint} {args' : List Fingerprint}
      (hfind : (s.remember template args (.ofInstance template args)).instances.find?
        template' args' = some id) :
      id = .ofInstance template' args' ∧ (s.registry.type? id).isSome := by
    rw [Symbols.remember, InstanceCache.find?_remember] at hfind
    split at hfind
    next heq =>
      obtain ⟨rfl, rfl⟩ := List.cons.inj heq
      obtain rfl := Option.some.inj hfind
      exact ⟨rfl, hreg⟩
    next => exact ⟨h.id_eq hfind, h.type?_isSome hfind⟩
  exact ⟨fun hfind ↦ (hnew hfind).1, fun hfind ↦ (hnew hfind).2⟩

end Faithful

/-- An answer only lets those instances be remembered that are registered. -/
theorem Answer.faithful {out : Except CompileError Fingerprint × Symbols}
    (h : s.Answer template args span out) (hs : s.Faithful) : out.2.Faithful := by
  cases h with
  | remembered => exact hs
  | adopted _ hreg => exact hs.remember hreg
  | unknown => exact hs
  | refused => exact hs
  | classRefused => exact hs
  | constructorRefused _ _ _ hclass =>
    exact hs.setRegistry fun _ ↦ (Registry.Extends.of_registerType hclass).type?_isSome
  | @created t r r' _ _ _ hclass hf =>
    have hr := Registry.Extends.of_registerType hclass
    have hext : r.Extends r' := by
      rcases hf with ⟨-, rfl⟩ | ⟨f, -, hf⟩
      · exact .refl _
      · exact .of_registerFunction hf
    have hreg : (r.type? (.ofInstance t.id args)).isSome :=
      Option.isSome_of_mem (type?_of_registerType hclass)
    exact (hs.setRegistry fun _ ↦ (hr.trans hext).type?_isSome).remember (hext.type?_isSome hreg)

namespace Reachable

/-- Requests and operations of a host lead to registries that a host could have built. -/
theorem built (h : s.Reachable) : s.registry.Built := by
  induction h with
  | start h => exact h
  | host _ hs ih => exact ih.step hs
  | request _ template args span ih => exact (answer_instantiate _ template args span).built ih

/-- Whatever is asked for and registered, the remembered instances are the registered ones. -/
theorem faithful (h : s.Reachable) : s.Faithful := by
  induction h with
  | start =>
    exact ⟨by simp [InstanceCache.find?_empty], by simp [InstanceCache.find?_empty]⟩
  | host _ hs ih => exact ih.setRegistry fun _ ↦ hs.type?_isSome
  | request _ template args span ih => exact (answer_instantiate _ template args span).faithful ih

end Reachable

/-! ### Refused requests -/

/-- A request that has to be refused is refused, unless an instance is remembered or a type is taken
for it. -/
theorem instantiate_of_refusal {entry : TypeEntry} {error : CompileError}
    (hentry : s.registry.type? template = some entry)
    (herror : entry.refusal? args span = some error)
    (hfind : s.instances.find? template args = none)
    (hreg : s.registry.type? (.ofInstance template args) = none) :
    s.instantiate template args span = (.error error, s) := by
  have hanswer := answer_instantiate s template args span
  generalize s.instantiate template args span = out at hanswer
  -- a template with the right number of arguments is not refused
  have noTemplate {t : TemplateEntry} (ht : s.registry.type? template = some (.template t))
      (hargs : args.length = t.arity) : False := by
    obtain rfl := Option.some.inj (hentry.symm.trans ht)
    simp [TypeEntry.refusal?, hargs] at herror
  cases hanswer with
  | remembered h => simp [hfind] at h
  | adopted _ h => simp [hreg] at h
  | unknown _ _ h => simp [hentry] at h
  | refused _ _ h h' =>
    obtain rfl := Option.some.inj (hentry.symm.trans h)
    obtain rfl := Option.some.inj (herror.symm.trans h')
    rfl
  | classRefused _ ht hargs => exact (noTemplate ht hargs).elim
  | constructorRefused _ ht hargs => exact (noTemplate ht hargs).elim
  | created _ ht hargs => exact (noTemplate ht hargs).elim

/-- A type that is registered under the identity of the instance is taken for it. -/
theorem instantiate_of_type? (hfind : s.instances.find? template args = none)
    (hreg : (s.registry.type? (.ofInstance template args)).isSome) :
    s.instantiate template args span =
      (.ok (.ofInstance template args), s.remember template args (.ofInstance template args)) := by
  simp only [instantiate, hfind]
  rw [if_pos (by simpa [Registry.containsType, Registry.type?] using hreg)]

/-- A remembered instance is taken as it is. -/
theorem instantiate_of_find? {id : Fingerprint}
    (hfind : s.instances.find? template args = some id) :
    s.instantiate template args span = (.ok id, s) := by
  simp only [instantiate, hfind]

/-- A request that has to be refused is refused, without a trace, exactly if no instance is
remembered for it and no type is registered under the identity of the instance. A template itself
is such a type for the empty argument list. -/
theorem instantiate_eq_refusal_iff {entry : TypeEntry} {error : CompileError}
    (hentry : s.registry.type? template = some entry)
    (herror : entry.refusal? args span = some error) :
    (s.instantiate template args span = (.error error, s) ↔
      s.instances.find? template args = none ∧
        s.registry.type? (.ofInstance template args) = none) ∧
    (args = [] → s.instances.find? template args = none →
      s.instantiate template args span = (.ok template, s.remember template args template)) := by
  constructor
  · constructor
    · intro h
      cases hfind : s.instances.find? template args with
      | some id => simp [instantiate_of_find? hfind] at h
      | none =>
        cases hreg : s.registry.type? (.ofInstance template args) with
        | some e => simp [instantiate_of_type? hfind (Option.isSome_of_mem hreg)] at h
        | none => exact ⟨rfl, rfl⟩
    · rintro ⟨hfind, hreg⟩
      exact instantiate_of_refusal hentry herror hfind hreg
  · rintro rfl hfind
    have hreg : (s.registry.type? (.ofInstance template [])).isSome := by
      rw [Fingerprint.ofInstance_nil, hentry]
      rfl
    exact instantiate_of_type? hfind hreg

/-- A template with one parameter, whose instances hold one value and are constructed from it. -/
def boxTemplate : TemplateEntry :=
  let value := (TemplateEntry.parameter (.ofTypeName "Box") "T").id
  .named "Box" ["T"] [("value", value)] (some [⟨"value", value, none⟩])

/-- The primitive types and the template. -/
def boxRegistry : Registry := (Registry.withPrimitives .w32).putType (.template boxTemplate)

/-- In a reachable state nothing but a registered type stands in the way of a refusal. -/
theorem Reachable.refused_iff (hs : s.Reachable) {entry : TypeEntry} {error : CompileError}
    (hentry : s.registry.type? template = some entry)
    (herror : entry.refusal? args span = some error) :
    s.instantiate template args span = (.error error, s) ↔
      s.registry.type? (.ofInstance template args) = none := by
  rw [(instantiate_eq_refusal_iff hentry herror).1]
  exact and_iff_right_of_imp hs.faithful.find?_eq_none

/-! ### Failed requests -/

/-- A request leaves nothing behind when it fails, or it leaves the class behind: its constructor was
refused, and the class was registered before. -/
theorem Answer.of_error {error : CompileError} {s' : Symbols}
    (h : s.Answer template args span (.error error, s')) :
    s' = s ∧ (∀ name, error ≠ .registration (.duplicateFunction name) span) ∨
      ∃ (t : TemplateEntry) (r : Registry) (name : String),
        s.registry.type? template = some (.template t) ∧
        s.registry.registerType (.object (s.newClass t args)) = .ok r ∧
        s' = { s with registry := r } ∧ error = .registration (.duplicateFunction name) span := by
  cases h with
  | unknown => exact .inl ⟨rfl, by simp⟩
  | @refused entry _ _ _ _ herror =>
    refine .inl ⟨rfl, ?_⟩
    rintro name rfl
    cases entry with
    | template t =>
      simp only [TypeEntry.refusal?] at herror
      split at herror <;> simp at herror
    | primitive p => simp [TypeEntry.refusal?] at herror
    | object c => simp [TypeEntry.refusal?] at herror
  | classRefused _ _ _ hclass =>
    obtain rfl := Registry.registerType_eq_error hclass
    exact .inl ⟨rfl, by simp⟩
  | @constructorRefused t r f _ _ htemplate _ hclass _ hf =>
    obtain rfl := Registry.registerFunction_eq_error hf
    exact .inr ⟨t, r, f.name, htemplate, hclass, rfl, rfl⟩

/-- A request that fails leaves no trace, and fails again in the same way, exactly if it did not fail
on the constructor of the instance. If it did, the class stays registered alone, and the next request
takes it for the instance. -/
theorem instantiate_error_atomic_iff (hs : s.registry.Built) {error : CompileError}
    (h : (s.instantiate template args span).1 = .error error) :
    ((s.instantiate template args span).2 = s ↔
      ∀ name, error ≠ .registration (.duplicateFunction name) span) ∧
    (((s.instantiate template args span).2.instantiate template args span).1 = .error error ↔
      ∀ name, error ≠ .registration (.duplicateFunction name) span) ∧
    (∀ name, error = .registration (.duplicateFunction name) span →
      (∃ c r, s.registry.registerType (.object c) = .ok r ∧ c.id = .ofInstance template args ∧
        (s.instantiate template args span).2 = { s with registry := r }) ∧
      ((s.instantiate template args span).2.instantiate template args span).1 =
        .ok (.ofInstance template args)) := by
  have hanswer := answer_instantiate s template args span
  have hnot : s.instances.find? template args = none := by
    cases hfind : s.instances.find? template args with
    | some id => simp [instantiate_of_find? hfind] at h
    | none => rfl
  obtain ⟨s', hout⟩ : ∃ s', s.instantiate template args span = (.error error, s') :=
    ⟨_, Prod.ext h rfl⟩
  rw [hout] at hanswer ⊢
  rcases hanswer.of_error with ⟨rfl, hother⟩ | ⟨t, r, name, htemplate, hclass, rfl, rfl⟩
  · exact ⟨⟨fun _ ↦ hother, fun _ ↦ rfl⟩, ⟨fun _ ↦ hother, fun _ ↦ h⟩,
      fun name hname ↦ (hother name hname).elim⟩
  · -- the class was registered, so that the next request finds it under the identity of the instance
    have hid : t.id = template := hs.indexed.type_id htemplate
    have hclassId : (s.newClass t args).id = .ofInstance template args := by
      rw [← hid]
      rfl
    have hreg : r.type? (.ofInstance template args) = some (.object (s.newClass t args)) := by
      rw [← hclassId]
      exact type?_of_registerType hclass
    have hagain : (({ s with registry := r } : Symbols).instantiate template args span).1 =
        .ok (.ofInstance template args) := by
      rw [instantiate_of_type? (s := { s with registry := r }) hnot (Option.isSome_of_mem hreg)]
    have hchanged : ({ s with registry := r } : Symbols) ≠ s := by
      intro heq
      obtain ⟨hnone, -, -⟩ := Registry.registerType_eq_ok_iff.1 hclass
      have hsame : r = s.registry := congrArg Symbols.registry heq
      rw [← hsame] at hnone
      exact absurd (type?_of_registerType hclass) (by simp [Registry.type?, hnone])
    refine ⟨⟨fun heq ↦ (hchanged heq).elim, fun hne ↦ (hne name rfl).elim⟩, ⟨fun herr ↦ ?_,
      fun hne ↦ (hne name rfl).elim⟩, fun _ _ ↦ ⟨⟨_, r, hclass, hclassId, rfl⟩, hagain⟩⟩
    rw [hagain] at herr
    simp at herr

instance {ε α : Type} [DecidableEq ε] [DecidableEq α] : DecidableEq (Except ε α)
  | .ok a, .ok b => decidable_of_iff (a = b) ⟨congrArg _, Except.ok.inj⟩
  | .error a, .error b => decidable_of_iff (a = b) ⟨congrArg _, Except.error.inj⟩
  | .ok _, .error _ => isFalse nofun
  | .error _, .ok _ => isFalse nofun

/-- A registry in which a function has the symbol of the constructor of an instance. -/
def claimedRegistry : Registry :=
  boxRegistry.putFunction (.function "Box<int>#ctor" [] Primitive.void.fingerprint)

/-- The instance with the claimed constructor fails once and is there the second time. -/
theorem instantiate_error_atomic_iff_claimed :
    let s : Symbols := { registry := claimedRegistry }
    let int := Primitive.int32.fingerprint
    let first := s.instantiate boxTemplate.id [int] .nowhere
    first.1 = .error (.registration (.duplicateFunction "Box<int>#ctor") .nowhere) ∧
      first.2 ≠ s ∧
      (first.2.instantiate boxTemplate.id [int] .nowhere).1 =
        .ok (.ofInstance boxTemplate.id [int]) := by
  intro s int first
  have hbox : (Registry.withPrimitives .w32).registerType (.template boxTemplate) =
      .ok boxRegistry :=
    Registry.registerType_eq_ok_iff.2 ⟨by decide +kernel, by decide +kernel, rfl⟩
  have hclaimed : boxRegistry.registerFunction
      (.function "Box<int>#ctor" [] Primitive.void.fingerprint) = .ok claimedRegistry :=
    Registry.registerFunction_eq_ok_iff.2 ⟨by decide +kernel, by decide +kernel, rfl⟩
  have hs : s.registry.Built :=
    ((Registry.Built.withPrimitives .w32).step (.registerType hbox)).step (.registerFunction hclaimed)
  have hfirst : first.1 =
      .error (.registration (.duplicateFunction "Box<int>#ctor") .nowhere) := by
    decide +kernel
  obtain ⟨hatomic, -, hclash⟩ := instantiate_error_atomic_iff hs hfirst
  exact ⟨hfirst, fun heq ↦ hatomic.1 heq _ rfl, (hclash _ rfl).2⟩

end Symbols

end StackLowering
