import Mathlib.Data.Set.List
import StackLowering.Proofs.Symbols.Expansion

/-!
# Closed types and their names

A closed type is a simple name, or a simple name applied to closed types (`ClosedType`). It is
displayed as the registry names the instances of templates, and closed types that are displayed in the
same way are the same (`ClosedType.display_injective`).

In a legible registry every type is named like a closed type (`Registry.Legible`). So the template and
the arguments of an instance can be read back from its name, and the name of an instance that is not
registered is free. A registry stays legible if a type with a simple name is registered, or the class
of an instance of registered arguments.

Names are compared and not parsed. A display is balanced, so that scanning it for the end of an
argument does not stop inside of the argument, whatever comes behind; of two equal displays, the first
arguments then end at the same place (`Balanced`). A simple name has neither angle brackets nor commas,
which is all that is asked of it: a host may use any other character.
-/

namespace StackLowering

/-! ### Closed types -/

/-- A type as it is written out. -/
inductive ClosedType where
  /-- A type with a name of its own. -/
  | named (name : String) (simple : SimpleName name)
  /-- A template applied to one or more type arguments. -/
  | apply (template : String) (simple : SimpleName template) (first : ClosedType)
      (rest : List ClosedType)

namespace ClosedType

mutual

/-- The name of the type in a registry. -/
def display : ClosedType → String
  | named name _ => name
  | apply template _ first rest => appliedName template (first.display :: displayAll rest)

/-- The names of some types in order. -/
def displayAll : List ClosedType → List String
  | [] => []
  | a :: rest => a.display :: displayAll rest

end

/-- The arguments are displayed one by one. -/
theorem displayAll_eq_map (as : List ClosedType) : displayAll as = as.map display := by
  induction as with
  | nil => rfl
  | cons a as ih => rw [displayAll, ih, List.map_cons]

/-- An applied type is displayed as the registry names the instance of a template. -/
theorem display_apply (template : String) (simple : SimpleName template) (first : ClosedType)
    (rest : List ClosedType) : (apply template simple first rest).display =
      appliedName template ((first :: rest).map display) := by
  rw [display, displayAll_eq_map, List.map_cons]

mutual

/-- Every closed type is displayed with its brackets in pairs. -/
theorem balanced_display : ∀ a : ClosedType, Balanced a.display.toList
  | named _ simple => .of_simple simple
  | apply _ simple first rest =>
    balanced_appliedName simple
      (List.forall_mem_cons.2 ⟨balanced_display first, balanced_displayAll rest⟩)

/-- So do the displays of a list of closed types. -/
theorem balanced_displayAll :
    ∀ (as : List ClosedType), ∀ name ∈ displayAll as, Balanced name.toList
  | [] => List.forall_mem_nil _
  | a :: rest => List.forall_mem_cons.2 ⟨balanced_display a, balanced_displayAll rest⟩

end

/-- A simple name is not that of an instance. -/
theorem display_named_ne_apply {name template : String} (simple : SimpleName name)
    (simple' : SimpleName template) (first : ClosedType) (rest : List ClosedType) :
    (named name simple).display ≠ (apply template simple' first rest).display := by
  intro h
  rw [display, display] at h
  exact not_simple_appliedName _ _ (h ▸ simple)

mutual

/-- The name is read back from the outside to the inside. -/
theorem display_inj : ∀ {a b : ClosedType}, a.display = b.display → a = b
  | named _ _, named _ _, h => by
    simp only [display] at h
    subst h
    rfl
  | named _ simple, apply _ simple' first rest, h =>
    (display_named_ne_apply simple simple' first rest h).elim
  | apply _ simple' first rest, named _ simple, h =>
    (display_named_ne_apply simple simple' first rest h.symm).elim
  | apply _ simple first rest, apply _ simple' first' rest', h => by
    obtain ⟨rfl, hargs⟩ := appliedName_injective simple simple' h
    have heq := hargs (by simp)
      (List.forall_mem_cons.2 ⟨balanced_display first, balanced_displayAll rest⟩)
      (List.forall_mem_cons.2 ⟨balanced_display first', balanced_displayAll rest'⟩)
    obtain ⟨hfirst, hrest⟩ := List.cons.inj heq
    rw [display_inj hfirst, displayAll_inj hrest]

/-- Lists of closed types are told apart by the displays of their members. -/
theorem displayAll_inj : ∀ {as bs : List ClosedType}, displayAll as = displayAll bs → as = bs
  | [], [], _ => rfl
  | [], _ :: _, h => nomatch h
  | _ :: _, [], h => nomatch h
  | _ :: _, _ :: _, h => by
    obtain ⟨hfirst, hrest⟩ := List.cons.inj h
    rw [display_inj hfirst, displayAll_inj hrest]

end

/-- Closed types that are displayed in the same way are the same. -/
theorem display_injective : Function.Injective display :=
  fun _ _ ↦ display_inj

/-- An instance of registered arguments is named like the closed type. -/
theorem instanceName_eq_display {r : Registry} {args : List Fingerprint} {first : ClosedType}
    {rest : List ClosedType} (h : args.map r.typeName = (first :: rest).map display)
    {template : String} (simple : SimpleName template) :
    r.instanceName template args = (apply template simple first rest).display := by
  rw [Registry.instanceName_eq, h, display_apply]

end ClosedType

/-! ### Names that are kept -/

namespace Registry

variable {r r' : Registry} {id template : Fingerprint} {args : List Fingerprint} {e : TypeEntry}
  {t : TemplateEntry} {f : Callable} {c c' : ClassEntry} {H : Callable → Prop}

/-- A registered type is named by its entry. -/
theorem typeName_of_types (h : r.types[id]? = some e) : r.typeName id = e.name := by
  rw [typeName, type?, h]

/-- Registered types stay registered under the same names, and classes remain classes. -/
structure KeepsNames (r r' : Registry) : Prop where
  type?_isSome : ∀ {id : Fingerprint}, (r.type? id).isSome → (r'.type? id).isSome
  class?_isSome : ∀ {id : Fingerprint}, (r.class? id).isSome → (r'.class? id).isSome
  typeName_eq : ∀ {id : Fingerprint}, (r.type? id).isSome → r'.typeName id = r.typeName id

namespace KeepsNames

/-- Growing registries keep the names of all types. -/
theorem of_extends (h : r.Extends r') : r.KeepsNames r' :=
  ⟨h.type?_isSome, h.class?_isSome, h.typeName⟩

/-- A class may be replaced by one with its name. -/
theorem setClass (hc : r.types[id]? = some (.object c)) (hname : c'.name = c.name) :
    r.KeepsNames (r.setClass id c') := by
  have hself : (r.setClass id c').types[id]? = some (.object c') :=
    (types_setClass r id c' id).trans (if_pos rfl)
  have hother {id' : Fingerprint} (hne : id ≠ id') :
      (r.setClass id c').types[id']? = r.types[id']? :=
    (types_setClass r id c' id').trans (if_neg hne)
  constructor
  case type?_isSome =>
    intro id' h
    by_cases heq : id = id'
    · exact heq ▸ Option.isSome_of_mem hself
    · rwa [type?, hother heq]
  case class?_isSome =>
    intro id' h
    by_cases heq : id = id'
    · exact heq ▸ Option.isSome_of_mem (class?_eq_some_iff.2 hself)
    · rwa [class?, type?, hother heq]
  case typeName_eq =>
    intro id' h
    by_cases heq : id = id'
    · subst heq
      rw [typeName_of_types hself, typeName_of_types hc]
      exact hname
    · rw [typeName, typeName, type?, type?, hother heq]

/-- The names of registered arguments are kept. -/
theorem map_typeName (h : r.KeepsNames r') (hargs : ∀ arg ∈ args, (r.type? arg).isSome) :
    args.map r'.typeName = args.map r.typeName :=
  List.map_congr_left fun arg harg ↦ h.typeName_eq (hargs arg harg)

end KeepsNames

/-! ### Types of a registry as closed types -/

/-- The closed type that a registered type stands for: its name is simple, or it is a class under the
identity of an instance and with the name of that instance, and the template and the arguments are
registered. -/
inductive Denotes (r : Registry) : ClosedType → Fingerprint → Prop
  | named {id : Fingerprint} {name : String} (simple : SimpleName name)
      (hid : (r.type? id).isSome) (hname : r.typeName id = name) : Denotes r (.named name simple) id
  | apply {template : Fingerprint} {args : List Fingerprint} {base : String} {first : ClosedType}
      {rest : List ClosedType} (simple : SimpleName base)
      (hclass : (r.class? (.ofInstance template args)).isSome)
      (htemplate : (r.type? template).isSome) (hbase : r.typeName template = base)
      (hargs : ∀ arg ∈ args, (r.type? arg).isSome)
      (hnames : args.map r.typeName = (first :: rest).map ClosedType.display)
      (hname : r.typeName (.ofInstance template args) = r.instanceName base args) :
      Denotes r (.apply base simple first rest) (.ofInstance template args)

/-- A class is a type. -/
theorem isSome_type?_of_class? (h : (r.class? id).isSome) : (r.type? id).isSome := by
  obtain ⟨c, hc⟩ := Option.isSome_iff_exists.1 h
  exact Option.isSome_of_mem (class?_eq_some_iff.1 hc)

namespace Denotes

variable {a : ClosedType}

/-- A registered type has the name of its closed type. -/
theorem typeName_eq (h : r.Denotes a id) : r.typeName id = a.display := by
  cases h with
  | named _ _ hname => exact hname
  | apply simple _ _ _ _ hnames hname =>
    exact hname.trans (ClosedType.instanceName_eq_display hnames simple)

/-- What a registered type stands for does not change. -/
theorem keep (h : r.Denotes a id) (hr : r.KeepsNames r') : r'.Denotes a id := by
  cases h with
  | named simple hid hname =>
    exact .named simple (hr.type?_isSome hid) ((hr.typeName_eq hid).trans hname)
  | apply simple hclass htemplate hbase hargs hnames hname =>
    have hargs' := hr.map_typeName hargs
    refine .apply simple (hr.class?_isSome hclass) (hr.type?_isSome htemplate)
      ((hr.typeName_eq htemplate).trans hbase) (fun arg harg ↦ hr.type?_isSome (hargs arg harg))
      (hargs'.trans hnames) ?_
    rw [hr.typeName_eq (isSome_type?_of_class? hclass), hname, instanceName_eq, instanceName_eq, hargs']

/-- A template has a simple name, since it is no class. -/
theorem simple_of_template (h : r.Denotes a id) (ht : r.types[id]? = some (.template t)) :
    SimpleName t.name := by
  cases h with
  | @named _ name simple _ hname =>
    obtain rfl : name = t.name := hname.symm.trans (typeName_of_types ht)
    exact simple
  | apply _ hclass =>
    obtain ⟨c, hc⟩ := Option.isSome_iff_exists.1 hclass
    simp [class?_eq_some_iff.1 hc] at ht

end Denotes

/-! ### Legible registries -/

/-- Every registered type stands for a closed type, and a function that is not in `H` has the symbol
of the constructor of a registered type. -/
structure Legible (r : Registry) (H : Callable → Prop) : Prop where
  indexed : r.Indexed
  types : ∀ {id : Fingerprint}, (r.type? id).isSome → ∃ a, r.Denotes a id
  functions : ∀ {id : Fingerprint} {f : Callable}, r.functions[id]? = some f →
    H f ∨ ∃ owner, (r.type? owner).isSome ∧ f.name = Callable.constructorName (r.typeName owner)

namespace Legible

/-! #### What keeps a registry legible -/

/-- A registry in which all names are simple is legible. -/
theorem of_simple (hindexed : r.Indexed)
    (htypes : ∀ {id : Fingerprint} {e : TypeEntry}, r.types[id]? = some e → SimpleName e.name)
    (hfunctions : ∀ {id : Fingerprint} {f : Callable}, r.functions[id]? = some f → H f) :
    r.Legible H := by
  refine ⟨hindexed, fun hid ↦ ?_, fun hf ↦ .inl (hfunctions hf)⟩
  obtain ⟨e, he⟩ := Option.isSome_iff_exists.1 hid
  exact ⟨_, .named (htypes he) hid (typeName_of_types he)⟩

/-- A registry stays legible if names are kept and every new entry is legible. -/
theorem keep (h : r.Legible H) (hindexed : r'.Indexed) (hr : r.KeepsNames r')
    (htypes : ∀ {id : Fingerprint}, (r'.type? id).isSome → (r.type? id).isSome ∨ ∃ a, r'.Denotes a id)
    (hfunctions : ∀ {id : Fingerprint} {f : Callable}, r'.functions[id]? = some f →
      r.functions[id]? = some f ∨ H f ∨
        ∃ owner, (r'.type? owner).isSome ∧ f.name = Callable.constructorName (r'.typeName owner)) :
    r'.Legible H := by
  refine ⟨hindexed, fun hid ↦ ?_, fun hf ↦ ?_⟩
  · rcases htypes hid with hid | hnew
    · obtain ⟨a, ha⟩ := h.types hid
      exact ⟨a, ha.keep hr⟩
    · exact hnew
  · rcases hfunctions hf with hf | hnew
    · refine (h.functions hf).imp_right ?_
      rintro ⟨owner, howner, hname⟩
      exact ⟨owner, hr.type?_isSome howner, by rw [hr.typeName_eq howner, hname]⟩
    · exact hnew

/-- A new type keeps the registry legible if it is named like a closed type. -/
theorem registerType (h : r.Legible H) (hr : r.registerType e = .ok r')
    (hnew : ∃ a, r'.Denotes a e.id) : r'.Legible H := by
  refine h.keep (h.indexed.registerType hr) (.of_extends (.of_registerType hr)) (fun {id} hid ↦ ?_)
    fun hf ↦ .inl ?_
  · obtain ⟨-, -, rfl⟩ := registerType_eq_ok_iff.1 hr
    by_cases heq : e.id = id
    · exact .inr (heq ▸ hnew)
    · rw [type?, types_putType, if_neg heq] at hid
      exact .inl hid
  · obtain ⟨-, -, rfl⟩ := registerType_eq_ok_iff.1 hr
    exact hf

/-- A host may register a type with a simple name. -/
theorem registerType_of_simple (h : r.Legible H) (hsimple : SimpleName e.name)
    (hr : r.registerType e = .ok r') : r'.Legible H := by
  have he : r'.type? e.id = some e := Symbols.type?_of_registerType hr
  exact h.registerType hr ⟨_, .named hsimple (Option.isSome_of_mem he) (typeName_of_types he)⟩

/-- A new function keeps the registry legible if it has an admitted symbol or that of the constructor
of a type. -/
theorem registerFunction (h : r.Legible H) (hr : r.registerFunction f = .ok r')
    (hnew : H f ∨
      ∃ owner, (r.type? owner).isSome ∧ f.name = Callable.constructorName (r.typeName owner)) :
    r'.Legible H := by
  have hsame : r'.types = r.types := types_registerFunction hr
  have htype (id : Fingerprint) : r'.type? id = r.type? id := congrArg (·[id]?) hsame
  have htypeName (id : Fingerprint) : r'.typeName id = r.typeName id := by
    rw [typeName, typeName, htype]
  refine h.keep (h.indexed.registerFunction hr) (.of_extends (.of_registerFunction hr))
    (fun hid ↦ .inl (htype _ ▸ hid)) fun hf ↦ ?_
  rcases function_registerFunction hr hf with rfl | hf
  · simp only [htype, htypeName]
    exact .inr hnew
  · exact .inl hf

/-- A class may be replaced by one with its name and its identity. -/
theorem setClass (h : r.Legible H) (hc : r.types[id]? = some (.object c)) (hname : c'.name = c.name)
    (hid : c'.id = c.id) : (r.setClass id c').Legible H := by
  refine h.keep (h.indexed.setClass hc hname hid) (.setClass hc hname) (fun {id'} hid' ↦ .inl ?_) .inl
  rw [type?, types_setClass] at hid'
  split at hid'
  next heq => exact heq ▸ Option.isSome_of_mem hc
  next => exact hid'

/-! #### Names of instances -/

/-- Registered types are named like closed types. -/
theorem exists_display (h : r.Legible H) (hargs : ∀ arg ∈ args, (r.type? arg).isSome) :
    ∃ as : List ClosedType, args.map r.typeName = as.map ClosedType.display := by
  have hrange : args.map r.typeName ∈ Set.range (List.map ClosedType.display) := by
    rw [Set.range_list_map]
    refine List.forall_mem_map.2 fun arg harg ↦ ?_
    obtain ⟨a, ha⟩ := h.types (hargs arg harg)
    exact ⟨a, ha.typeName_eq.symm⟩
  obtain ⟨as, has⟩ := hrange
  exact ⟨as, has.symm⟩

/-- In a legible registry, templates have simple names. -/
theorem simple_of_template (h : r.Legible H) (ht : r.types[id]? = some (.template t)) :
    SimpleName t.name := by
  obtain ⟨a, ha⟩ := h.types (Option.isSome_of_mem ht)
  exact ha.simple_of_template ht

/-- The template and the arguments of an instance can be read back from its name. -/
theorem instanceName_inj (h : r.Legible H) {template' : Fingerprint} {args' : List Fingerprint}
    (htemplate : (r.type? template).isSome) (htemplate' : (r.type? template').isSome)
    (hsimple : SimpleName (r.typeName template)) (hsimple' : SimpleName (r.typeName template'))
    (hargs : ∀ arg ∈ args, (r.type? arg).isSome) (hargs' : ∀ arg ∈ args', (r.type? arg).isSome)
    (hnil : args = [] ↔ args' = [])
    (heq : r.instanceName (r.typeName template) args = r.instanceName (r.typeName template') args') :
    template = template' ∧ args = args' := by
  have hbalanced {id : Fingerprint} (hid : (r.type? id).isSome) : Balanced (r.typeName id).toList := by
    obtain ⟨a, ha⟩ := h.types hid
    exact ha.typeName_eq ▸ a.balanced_display
  obtain ⟨hbases, hnames⟩ := instanceName_injective hsimple hsimple' heq
  have hnames := hnames hnil (fun arg harg ↦ hbalanced (hargs arg harg))
    fun arg harg ↦ hbalanced (hargs' arg harg)
  exact ⟨h.indexed.typeName_inj htemplate htemplate' hbases,
    h.indexed.map_typeName_inj hargs hargs' hnames⟩

/-- The name of an instance that is not registered is free. -/
theorem typeNames_eq_none (h : r.Legible H) (ht : r.types[t.id]? = some (.template t))
    (hargs : ∀ arg ∈ args, (r.type? arg).isSome)
    (hnone : r.types[Fingerprint.ofInstance t.id args]? = none) :
    r.typeNames[r.instanceName t.name args]? = none := by
  have hname : r.typeName t.id = t.name := typeName_of_types ht
  have hsimple := h.simple_of_template ht
  refine Option.eq_none_iff_forall_ne_some.2 fun id hid ↦ ?_
  obtain ⟨e, he, hname'⟩ := h.indexed.typeNames_iff.1 hid
  have htaken : r.typeName id = r.instanceName t.name args := (typeName_of_types he).trans hname'
  obtain ⟨a, ha⟩ := h.types (Option.isSome_of_mem he)
  cases ha with
  | named simple _ heq => exact not_simple_appliedName _ _ (heq.symm.trans htaken ▸ simple)
  | @apply template' args' base first rest simple hclass htemplate' hbase hargs' hnames heq =>
    -- both names are read back, and so the type is the instance that is not registered
    have hnil : args = [] ↔ args' = [] := by
      constructor
      · rintro rfl
        rw [Fingerprint.ofInstance_nil, ht] at hnone
        simp at hnone
      · rintro rfl
        simp at hnames
    obtain ⟨htemplate, rfl⟩ := h.instanceName_inj (Option.isSome_of_mem ht) htemplate' (hname ▸ hsimple)
      (hbase ▸ simple) hargs hargs' hnil (by rw [hname, hbase, ← htaken, heq])
    rw [← htemplate, hnone] at he
    simp at he

/-- A function with the symbol of the constructor of an instance that is not registered is in `H`. -/
theorem symbol_taken (h : r.Legible H) (ht : r.types[t.id]? = some (.template t))
    (hargs : ∀ arg ∈ args, (r.type? arg).isSome)
    (hnone : r.types[Fingerprint.ofInstance t.id args]? = none) (hf : r.functions[id]? = some f)
    (hname : f.name = Callable.constructorName (r.instanceName t.name args)) : H f := by
  refine (h.functions hf).resolve_right ?_
  rintro ⟨owner, howner, hname'⟩
  have hfree := h.typeNames_eq_none ht hargs hnone
  obtain ⟨e, he⟩ := Option.isSome_iff_exists.1 howner
  have htaken := h.indexed.typeNames_iff.2 ⟨e, he, rfl⟩
  rw [← typeName_of_types he, ← constructorName_injective (hname.symm.trans hname'), hfree] at htaken
  simp at htaken

/-- The class of an instance of registered arguments may be registered. -/
theorem registerInstance (h : r.Legible H) (ht : r.types[t.id]? = some (.template t))
    (hargs : ∀ arg ∈ args, (r.type? arg).isSome) (hid : c.id = .ofInstance t.id args)
    (hname : c.name = r.instanceName t.name args) (hr : r.registerType (.object c) = .ok r') :
    r'.Legible H := by
  obtain ⟨hnone, -, -⟩ := registerType_eq_ok_iff.1 hr
  have hkeep : r.KeepsNames r' := .of_extends (.of_registerType hr)
  have hc : r'.types[c.id]? = some (.object c) := Symbols.type?_of_registerType hr
  have hargs' := hkeep.map_typeName hargs
  obtain ⟨as, has⟩ := h.exists_display hargs
  refine h.registerType hr ?_
  cases as with
  | nil =>
    -- without arguments the identity of the instance is that of the template, which is taken
    obtain rfl := List.map_eq_nil_iff.1 has
    rw [TypeEntry.id, hid, Fingerprint.ofInstance_nil, ht] at hnone
    simp at hnone
  | cons first rest =>
    rw [TypeEntry.id, hid]
    rw [hid] at hc
    have htemplate : (r.type? t.id).isSome := Option.isSome_of_mem ht
    have hsimple : SimpleName t.name := h.simple_of_template ht
    have hdenotes : r'.Denotes (.apply t.name hsimple first rest) (.ofInstance t.id args) := by
      refine .apply hsimple (Option.isSome_of_mem (class?_eq_some_iff.2 hc))
        (hkeep.type?_isSome htemplate) ((hkeep.typeName_eq htemplate).trans (typeName_of_types ht))
        (fun arg harg ↦ hkeep.type?_isSome (hargs arg harg)) (hargs'.trans has) ?_
      rw [typeName_of_types hc, instanceName_eq, hargs']
      exact hname
    exact ⟨_, hdenotes⟩

end Legible

end Registry

end StackLowering
