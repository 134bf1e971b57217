import StackLowering.Symbols.Registry

/-!
# The registry as a table with two indexes

A registry keeps every entry under its identity and keeps an index from names to identities. The two
are in step (`Registry.Indexed`) in every registry that a host can build (`Registry.Built`), because a
registration is refused if either key is taken.

A registry only grows (`Registry.Extends`): what was found in it is found in it later, except that a
class may have been laid out in the meantime. Layouts, names, functions and constructors that were
found once are therefore found again.

The module describes each of the four ways in which a registry changes once: what it asks for, and what
is found afterwards (`Registry.registerType_eq_ok_iff`, `Registry.registerFunction_eq_ok_iff`,
`Registry.layOutClass_eq_ok`). All invariants are read off from that, and nothing later unfolds the
operations again.

Three invariants are used apart from each other. That the index is in step needs new keys; that an
entry lies under its own identity (`Registry.Keyed`) does not, and so survives the registration of
primitive types over other entries; growth says nothing about the index of a single registry.
-/

namespace StackLowering

open Std

/-! ### Maps with new keys -/

section Insert

variable {α β : Type} [Ord α] [TransOrd α] [LawfulEqOrd α]

/-- A new key takes nothing away. -/
theorem getElem?_insert_of_eq_none {m : ExtTreeMap α β} {k k' : α} {b b' : β} (hk : m[k]? = none)
    (h : m[k']? = some b') : (m.insert k b)[k']? = some b' := by
  have hne : k ≠ k' := by
    rintro rfl
    simp [hk] at h
  simpa [ExtTreeMap.getElem?_insert, hne] using h

/-- An index of names stays in step if something new is entered under a new name. -/
theorem getElem?_insert_index_iff [DecidableEq α] {entries : ExtTreeMap α β}
    {index : ExtTreeMap String α} {name : β → String}
    (h : ∀ {n : String} {k : α}, index[n]? = some k ↔ ∃ b, entries[k]? = some b ∧ name b = n)
    {k₀ : α} {b₀ : β} (hkey : entries[k₀]? = none) (hname : index[name b₀]? = none)
    {n : String} {k : α} :
    (index.insert (name b₀) k₀)[n]? = some k ↔
      ∃ b, (entries.insert k₀ b₀)[k]? = some b ∧ name b = n := by
  simp only [ExtTreeMap.getElem?_insert, LawfulEqCmp.compare_eq_iff_eq]
  by_cases hn : name b₀ = n
  · subst hn
    -- the new name stands for the new entry, and no old entry had it
    rw [if_pos rfl]
    constructor
    · intro heq
      exact ⟨b₀, if_pos (Option.some.inj heq), rfl⟩
    · rintro ⟨b, hb, hbn⟩
      split at hb
      next heq => rw [heq]
      next =>
        have hold : index[name b₀]? = some k := h.2 ⟨b, hb, hbn⟩
        simp [hname] at hold
  · rw [if_neg hn, h]
    by_cases hk : k₀ = k
    · subst hk
      simp [hkey, hn]
    · rw [if_neg hk]

end Insert

/-! ### Entries that mature -/

/-- What may happen to a registered type: nothing, or a class is laid out for the first time. -/
inductive TypeEntry.Becomes : TypeEntry → TypeEntry → Prop
  | same (e : TypeEntry) : Becomes e e
  | placed {c : ClassEntry} (h : c.extent? = none) (packing : Packing) :
      Becomes (.object c) (.object (c.placed packing))

namespace TypeEntry.Becomes

variable {e e' e'' : TypeEntry}

/-- A class that is laid out stays as it is, so two steps are never more than one. -/
theorem trans (h : Becomes e e') (h' : Becomes e' e'') : Becomes e e'' := by
  cases h with
  | same => exact h'
  | placed hc packing =>
    cases h' with
    | same => exact .placed hc packing
    | placed hc' => simp [ClassEntry.placed] at hc'

/-- Laying out a class does not touch its constructor. -/
theorem constructor?_eq (h : Becomes e e') :
    (e'.class?.bind (·.constructor?)) = e.class?.bind (·.constructor?) := by
  cases h <;> rfl

end TypeEntry.Becomes

/-- Different primitive types have different names. -/
theorem Primitive.name_injective {p q : Primitive} (h : p.name = q.name) : p = q := by
  revert h
  cases p <;> cases q <;> decide

namespace Registry

variable {r r' r'' : Registry}

/-! ### What a registration does -/

/-- Enters a function under its name and its identity, over whatever was there. -/
def putFunction (r : Registry) (f : Callable) : Registry :=
  { r with
    functionNames := r.functionNames.insert f.name f.id
    functions := r.functions.insert f.id f }

/-- A type is entered under its identity. -/
theorem types_putType (r : Registry) (e : TypeEntry) (id : Fingerprint) :
    (r.putType e).types[id]? = if e.id = id then some e else r.types[id]? := by
  simp [putType, ExtTreeMap.getElem?_insert]

/-- The name of a type leads to its identity. -/
theorem typeNames_putType (r : Registry) (e : TypeEntry) (name : String) :
    (r.putType e).typeNames[name]? = if e.name = name then some e.id else r.typeNames[name]? := by
  simp [putType, ExtTreeMap.getElem?_insert]

/-- A function is entered under its identity. -/
theorem functions_putFunction (r : Registry) (f : Callable) (id : Fingerprint) :
    (r.putFunction f).functions[id]? = if f.id = id then some f else r.functions[id]? := by
  simp [putFunction, ExtTreeMap.getElem?_insert]

/-- A type is registered exactly if neither of its keys is taken. -/
theorem registerType_eq_ok_iff {e : TypeEntry} :
    r.registerType e = .ok r' ↔
      r.types[e.id]? = none ∧ r.typeNames[e.name]? = none ∧ r.putType e = r' := by
  simp only [registerType, ExtTreeMap.contains_eq_isSome_getElem?]
  cases r.types[e.id]? <;> cases r.typeNames[e.name]? <;> simp

/-- A refusal names the type. -/
theorem registerType_eq_error {e : TypeEntry} {error : RegistrationError}
    (h : r.registerType e = .error error) : error = .duplicateType e.name := by
  simp only [registerType] at h
  split at h <;> simp_all

/-- A function is registered exactly if neither of its keys is taken. -/
theorem registerFunction_eq_ok_iff {f : Callable} :
    r.registerFunction f = .ok r' ↔
      r.functions[f.id]? = none ∧ r.functionNames[f.name]? = none ∧ r.putFunction f = r' := by
  simp only [registerFunction, ExtTreeMap.contains_eq_isSome_getElem?, putFunction]
  cases r.functions[f.id]? <;> cases r.functionNames[f.name]? <;> simp

/-- A refusal names the function. -/
theorem registerFunction_eq_error {f : Callable} {error : RegistrationError}
    (h : r.registerFunction f = .error error) : error = .duplicateFunction f.name := by
  simp only [registerFunction] at h
  split at h <;> simp_all

/-- A class is replaced under the identity that is given, whatever identity it has itself. -/
theorem types_setClass (r : Registry) (id : Fingerprint) (c : ClassEntry) (id' : Fingerprint) :
    (r.setClass id c).types[id']? = if id = id' then some (.object c) else r.types[id']? := by
  simp [setClass, ExtTreeMap.getElem?_insert]

/-- Looking up a class is looking up a type that is one. -/
theorem class?_eq_some_iff {id : Fingerprint} {c : ClassEntry} :
    r.class? id = some c ↔ r.types[id]? = some (.object c) := by
  simp only [class?, type?, Option.bind_eq_some_iff]
  constructor
  · rintro ⟨e, he, hc⟩
    cases e with
    | object c' => exact he.trans (congrArg (some ∘ TypeEntry.object) (Option.some.inj hc))
    | primitive p => exact absurd hc (by simp [TypeEntry.class?])
    | template t => exact absurd hc (by simp [TypeEntry.class?])
  · intro h
    exact ⟨_, h, rfl⟩

/-- Laying out a class that is laid out changes nothing; otherwise the class gets the packing of its
fields, which all have layouts. -/
theorem layOutClass_eq_ok {id : Fingerprint} {size : UInt32}
    (h : r.layOutClass id = .ok (size, r')) :
    ∃ c, r.types[id]? = some (.object c) ∧
      (r' = r ∨ c.extent? = none ∧ ∃ layouts, r.fieldLayouts c.name c.fields = .ok layouts ∧
        r' = r.setClass id (c.placed (.ofFields layouts))) := by
  unfold layOutClass at h
  split at h
  next => simp at h
  next c hc =>
    refine ⟨c, class?_eq_some_iff.1 hc, ?_⟩
    split at h
    next => exact .inl (congrArg Prod.snd (Except.ok.inj h)).symm
    next hextent =>
      cases hlayouts : r.fieldLayouts c.name c.fields with
      | error e => simp [hlayouts, Except.map] at h
      | ok layouts =>
        rw [hlayouts] at h
        exact .inr ⟨hextent, layouts, rfl, (congrArg Prod.snd (Except.ok.inj h)).symm⟩

/-! #### What was registered before -/

section Before

variable {c : ClassEntry} {f : Callable} {t : TemplateEntry} {id id' : Fingerprint} {size : UInt32}

/-- A new class is no template. -/
theorem template_registerType (h : r.registerType (.object c) = .ok r')
    (ht : r'.types[id]? = some (.template t)) : r.types[id]? = some (.template t) := by
  obtain ⟨-, -, rfl⟩ := registerType_eq_ok_iff.1 h
  rw [types_putType] at ht
  split at ht
  · simp at ht
  · exact ht

/-- A class that is laid out is no template. -/
theorem template_layOutClass (h : r.layOutClass id = .ok (size, r'))
    (ht : r'.types[id']? = some (.template t)) : r.types[id']? = some (.template t) := by
  rcases layOutClass_eq_ok h with ⟨c, -, rfl | ⟨-, layouts, -, rfl⟩⟩
  · exact ht
  · rw [types_setClass] at ht
    split at ht
    · simp at ht
    · exact ht

/-- A new type leaves the functions as they are. -/
theorem functions_registerType (h : r.registerType (.object c) = .ok r') :
    r'.functions = r.functions := by
  obtain ⟨-, -, rfl⟩ := registerType_eq_ok_iff.1 h
  rfl

/-- Laying out a class leaves the functions as they are. -/
theorem functions_layOutClass (h : r.layOutClass id = .ok (size, r')) :
    r'.functions = r.functions := by
  rcases layOutClass_eq_ok h with ⟨c, -, rfl | ⟨-, layouts, -, rfl⟩⟩ <;> rfl

/-- A new function leaves the types as they are. -/
theorem types_registerFunction (h : r.registerFunction f = .ok r') : r'.types = r.types := by
  obtain ⟨-, -, rfl⟩ := registerFunction_eq_ok_iff.1 h
  rfl

/-- A function was registered before, or it is the new one. -/
theorem function_registerFunction (h : r.registerFunction f = .ok r') {g : Callable}
    (hg : r'.functions[id]? = some g) : g = f ∨ r.functions[id]? = some g := by
  obtain ⟨-, -, rfl⟩ := registerFunction_eq_ok_iff.1 h
  rw [functions_putFunction] at hg
  split at hg
  · exact .inl (Option.some.inj hg).symm
  · exact .inr hg

end Before

/-! ### Growth -/

/-- What is registered in one registry is registered in the other under the same keys, except that
classes may have been laid out. -/
structure Extends (r r' : Registry) : Prop where
  width_eq : r'.width = r.width
  types : ∀ {id : Fingerprint} {e : TypeEntry}, r.types[id]? = some e →
    ∃ e', r'.types[id]? = some e' ∧ e.Becomes e'
  typeNames : ∀ {name : String} {id : Fingerprint}, r.typeNames[name]? = some id →
    r'.typeNames[name]? = some id
  functions : ∀ {id : Fingerprint} {f : Callable}, r.functions[id]? = some f →
    r'.functions[id]? = some f
  functionNames : ∀ {name : String} {id : Fingerprint}, r.functionNames[name]? = some id →
    r'.functionNames[name]? = some id

namespace Extends

theorem refl (r : Registry) : r.Extends r :=
  ⟨rfl, fun h ↦ ⟨_, h, .same _⟩, id, id, id⟩

/-- What is found later is found still later. -/
theorem trans (h : r.Extends r') (h' : r'.Extends r'') : r.Extends r'' where
  width_eq := h'.width_eq.trans h.width_eq
  types he := by
    obtain ⟨e', he', hb⟩ := h.types he
    obtain ⟨e'', he'', hb'⟩ := h'.types he'
    exact ⟨e'', he'', hb.trans hb'⟩
  typeNames hn := h'.typeNames (h.typeNames hn)
  functions hf := h'.functions (h.functions hf)
  functionNames hn := h'.functionNames (h.functionNames hn)

/-- A new type comes to what is there, since both of its keys are new. -/
theorem of_registerType {e : TypeEntry} (h : r.registerType e = .ok r') : r.Extends r' := by
  obtain ⟨hid, hname, rfl⟩ := registerType_eq_ok_iff.1 h
  exact ⟨rfl, fun he ↦ ⟨_, getElem?_insert_of_eq_none hid he, .same _⟩,
    getElem?_insert_of_eq_none hname, id, id⟩

/-- A new function comes to what is there. -/
theorem of_registerFunction {f : Callable} (h : r.registerFunction f = .ok r') : r.Extends r' := by
  obtain ⟨hid, hname, rfl⟩ := registerFunction_eq_ok_iff.1 h
  exact ⟨rfl, fun he ↦ ⟨_, he, .same _⟩, id, getElem?_insert_of_eq_none hid,
    getElem?_insert_of_eq_none hname⟩

/-- Laying out a class changes the class only, and leaves it a class. -/
theorem of_layOutClass {id : Fingerprint} {size : UInt32} (h : r.layOutClass id = .ok (size, r')) :
    r.Extends r' := by
  rcases layOutClass_eq_ok h with ⟨c, hc, rfl | ⟨hextent, layouts, -, rfl⟩⟩
  · exact .refl _
  · refine ⟨rfl, fun {id' e} he ↦ ?_, fun h ↦ h, fun h ↦ h, fun h ↦ h⟩
    by_cases hid : id = id'
    · subst hid
      obtain rfl : e = .object c := Option.some.inj (he.symm.trans hc)
      exact ⟨_, by simp [types_setClass], .placed hextent (.ofFields layouts)⟩
    · exact ⟨e, by simpa [types_setClass, hid] using he, .same _⟩

/-! What was found is found again. -/

variable {id : Fingerprint} {name : String}

/-- An identity that is taken stays taken. -/
theorem type?_isSome (h : r.Extends r') (ht : (r.type? id).isSome) : (r'.type? id).isSome := by
  obtain ⟨e, he⟩ := Option.isSome_iff_exists.1 ht
  obtain ⟨e', he', -⟩ := h.types he
  exact Option.isSome_of_mem he'

/-- A layout that is known stays known: that of a class is the layout of an address, whether the class
is laid out or not. -/
theorem layout? (h : r.Extends r') {layout : Layout} (hl : r.layout? id = some layout) :
    r'.layout? id = some layout := by
  simp only [Registry.layout?, Registry.type?] at hl ⊢
  cases he : r.types[id]? with
  | none => simp [he] at hl
  | some e =>
    obtain ⟨e', he', hb⟩ := h.types he
    rw [he] at hl
    rw [he', h.width_eq]
    cases hb <;> exact hl

theorem layout?_isSome (h : r.Extends r') (hl : (r.layout? id).isSome) :
    (r'.layout? id).isSome := by
  obtain ⟨layout, hlayout⟩ := Option.isSome_iff_exists.1 hl
  exact Option.isSome_of_mem (h.layout? hlayout)

/-- A class stays a class. -/
theorem class?_isSome (h : r.Extends r') (hc : (r.class? id).isSome) : (r'.class? id).isSome := by
  obtain ⟨c, hc⟩ := Option.isSome_iff_exists.1 hc
  obtain ⟨e', he', hb⟩ := h.types (class?_eq_some_iff.1 hc)
  cases hb with
  | same => exact Option.isSome_of_mem (class?_eq_some_iff.2 he')
  | placed => exact Option.isSome_of_mem (class?_eq_some_iff.2 he')

/-- A function is found under its symbol from then on. -/
theorem functionNamed? (h : r.Extends r') {f : Callable} (hf : r.functionNamed? name = some f) :
    r'.functionNamed? name = some f := by
  obtain ⟨id, hid, hfid⟩ := Option.bind_eq_some_iff.1 hf
  exact Option.bind_eq_some_iff.2 ⟨id, h.functionNames hid, h.functions hfid⟩

/-- The constructor of a class stays its constructor. -/
theorem constructorOf? (h : r.Extends r') {f : Callable} (hf : r.constructorOf? id = some f) :
    r'.constructorOf? id = some f := by
  simp only [Registry.constructorOf?, Registry.class?, Registry.type?] at hf ⊢
  cases he : r.types[id]? with
  | none => simp [he] at hf
  | some e =>
    obtain ⟨e', he', hb⟩ := h.types he
    simp only [he, he', Option.bind_some, hb.constructor?_eq] at hf ⊢
    obtain ⟨k, hk, hfk⟩ := Option.bind_eq_some_iff.1 hf
    exact Option.bind_eq_some_iff.2 ⟨k, hk, h.functions hfk⟩

end Extends

/-! ### Indexes in step -/

/-- Every entry lies under its own identity, and the indexes list the names of the entries and
nothing else. -/
structure Indexed (r : Registry) : Prop where
  type_id : ∀ {id : Fingerprint} {e : TypeEntry}, r.types[id]? = some e → e.id = id
  typeNames_iff : ∀ {name : String} {id : Fingerprint},
    r.typeNames[name]? = some id ↔ ∃ e, r.types[id]? = some e ∧ e.name = name
  function_id : ∀ {id : Fingerprint} {f : Callable}, r.functions[id]? = some f → f.id = id
  functionNames_iff : ∀ {name : String} {id : Fingerprint},
    r.functionNames[name]? = some id ↔ ∃ f, r.functions[id]? = some f ∧ f.name = name

namespace Indexed

/-- Nothing is registered, and no name is known. -/
theorem empty (width : Width) : (empty width).Indexed := by
  constructor <;> simp [Registry.empty]

/-- A type is found under its name exactly if it is registered with this name. -/
theorem typeNamed?_eq_some_iff (h : r.Indexed) {name : String} {e : TypeEntry} :
    r.typeNamed? name = some e ↔ r.types[e.id]? = some e ∧ e.name = name := by
  simp only [typeNamed?, type?, Option.bind_eq_some_iff]
  constructor
  · rintro ⟨id, hid, he⟩
    obtain ⟨e', he', hname⟩ := h.typeNames_iff.1 hid
    obtain rfl : e' = e := Option.some.inj (he'.symm.trans he)
    rw [h.type_id he]
    exact ⟨he, hname⟩
  · rintro ⟨he, hname⟩
    exact ⟨e.id, h.typeNames_iff.2 ⟨e, he, hname⟩, he⟩

/-- A function is found under its name exactly if it is registered with this name. -/
theorem functionNamed?_eq_some_iff (h : r.Indexed) {name : String} {f : Callable} :
    r.functionNamed? name = some f ↔ r.functions[f.id]? = some f ∧ f.name = name := by
  simp only [functionNamed?, function?, Option.bind_eq_some_iff]
  constructor
  · rintro ⟨id, hid, hf⟩
    obtain ⟨f', hf', hname⟩ := h.functionNames_iff.1 hid
    obtain rfl : f' = f := Option.some.inj (hf'.symm.trans hf)
    rw [h.function_id hf]
    exact ⟨hf, hname⟩
  · rintro ⟨hf, hname⟩
    exact ⟨f.id, h.functionNames_iff.2 ⟨f, hf, hname⟩, hf⟩

/-- A type under a new identity and a new name is entered in both tables. -/
theorem putType (h : r.Indexed) {e : TypeEntry} (hid : r.types[e.id]? = none)
    (hname : r.typeNames[e.name]? = none) : (r.putType e).Indexed where
  type_id {id e'} he := by
    rw [types_putType] at he
    split at he
    next heq => exact Option.some.inj he ▸ heq
    next => exact h.type_id he
  typeNames_iff := getElem?_insert_index_iff h.typeNames_iff hid hname
  function_id := h.function_id
  functionNames_iff := h.functionNames_iff

/-- A function under a new identity and a new symbol is entered in both tables. -/
theorem putFunction (h : r.Indexed) {f : Callable} (hid : r.functions[f.id]? = none)
    (hname : r.functionNames[f.name]? = none) : (r.putFunction f).Indexed where
  type_id := h.type_id
  typeNames_iff := h.typeNames_iff
  function_id {id f'} hf := by
    rw [functions_putFunction] at hf
    split at hf
    next heq => exact Option.some.inj hf ▸ heq
    next => exact h.function_id hf
  functionNames_iff := getElem?_insert_index_iff h.functionNames_iff hid hname

/-- A class may be replaced by one with its name and its identity. -/
theorem setClass (h : r.Indexed) {id : Fingerprint} {c c' : ClassEntry}
    (hc : r.types[id]? = some (.object c)) (hname : c'.name = c.name) (hid : c'.id = c.id) :
    (r.setClass id c').Indexed where
  type_id {id' e} he := by
    rw [types_setClass] at he
    split at he
    next heq =>
      obtain rfl := Option.some.inj he
      exact hid.trans ((h.type_id hc).trans heq)
    next => exact h.type_id he
  typeNames_iff {name id'} := by
    rw [types_setClass]
    refine h.typeNames_iff.trans ?_
    by_cases heq : id = id'
    · subst heq
      simp [hc, TypeEntry.name, hname]
    · rw [if_neg heq]
  function_id := h.function_id
  functionNames_iff := h.functionNames_iff

/-- An accepted type has new keys. -/
theorem registerType (h : r.Indexed) {e : TypeEntry} (hr : r.registerType e = .ok r') :
    r'.Indexed := by
  obtain ⟨hid, hname, rfl⟩ := registerType_eq_ok_iff.1 hr
  exact h.putType hid hname

/-- An accepted function has new keys. -/
theorem registerFunction (h : r.Indexed) {f : Callable} (hr : r.registerFunction f = .ok r') :
    r'.Indexed := by
  obtain ⟨hid, hname, rfl⟩ := registerFunction_eq_ok_iff.1 hr
  exact h.putFunction hid hname

/-- A class keeps its identity and its name while it is laid out. -/
theorem layOutClass (h : r.Indexed) {id : Fingerprint} {size : UInt32}
    (hr : r.layOutClass id = .ok (size, r')) : r'.Indexed := by
  rcases layOutClass_eq_ok hr with ⟨c, hc, rfl | ⟨-, layouts, -, rfl⟩⟩
  · exact h
  · exact h.setClass hc rfl rfl

end Indexed

/-! ### Registries of the primitive types -/

/-- Every primitive type is registered under its own identity. -/
def HasPrimitives (r : Registry) : Prop :=
  ∀ p : Primitive, r.types[p.fingerprint]? = some (.primitive p)

/-- Primitive types stay registered. -/
theorem HasPrimitives.extends (h : r.HasPrimitives) (hr : r.Extends r') : r'.HasPrimitives := by
  intro p
  obtain ⟨e', he', hb⟩ := hr.types (h p)
  cases hb
  exact he'

/-- A primitive type has the layout that it has on its own. -/
theorem HasPrimitives.layout? (h : r.HasPrimitives) (p : Primitive) :
    r.layout? p.fingerprint = p.layout r.width := by
  rw [Registry.layout?, type?, h p]

/-- Entering new primitive types in a row keeps the indexes in step, and each can be found. -/
theorem Indexed.foldl_putType_primitive (ps : List Primitive) (hps : ps.Nodup) :
    ∀ {r : Registry}, r.Indexed →
      (∀ p ∈ ps, r.types[p.fingerprint]? = none ∧ r.typeNames[p.name]? = none) →
      (ps.foldl (fun r p ↦ r.putType (.primitive p)) r).Indexed ∧
        r.Extends (ps.foldl (fun r p ↦ r.putType (.primitive p)) r) ∧
        ∀ p ∈ ps, (ps.foldl (fun r p ↦ r.putType (.primitive p)) r).types[p.fingerprint]? =
          some (.primitive p) := by
  induction ps with
  | nil => exact fun h _ ↦ ⟨h, .refl _, by simp⟩
  | cons p ps ih =>
    intro r h hnew
    obtain ⟨hp, hps⟩ := List.nodup_cons.1 hps
    obtain ⟨hid, hname⟩ := hnew p List.mem_cons_self
    have hreg : r.registerType (.primitive p) = .ok (r.putType (.primitive p)) :=
      registerType_eq_ok_iff.2 ⟨hid, hname, rfl⟩
    -- the new entry takes no key of a later one, since both keys tell primitive types apart
    have hnew' : ∀ q ∈ ps, (r.putType (.primitive p)).types[q.fingerprint]? = none ∧
        (r.putType (.primitive p)).typeNames[q.name]? = none := by
      intro q hq
      have hne : p ≠ q := fun heq ↦ hp (heq ▸ hq)
      obtain ⟨hqid, hqname⟩ := hnew q (List.mem_cons_of_mem p hq)
      have hfp : (TypeEntry.primitive p).id ≠ q.fingerprint :=
        fun heq ↦ hne (Primitive.fingerprint_injective heq)
      have hn : (TypeEntry.primitive p).name ≠ q.name :=
        fun heq ↦ hne (Primitive.name_injective heq)
      rw [types_putType, typeNames_putType, if_neg hfp, if_neg hn]
      exact ⟨hqid, hqname⟩
    obtain ⟨hidx, hext', hall⟩ := ih hps (h.registerType hreg) hnew'
    refine ⟨hidx, (Extends.of_registerType hreg).trans hext', fun q hq ↦ ?_⟩
    rcases List.mem_cons.1 hq with rfl | hq
    · have hq' : (r.putType (.primitive q)).types[q.fingerprint]? = some (.primitive q) := by
        simp [types_putType, TypeEntry.id]
      obtain ⟨e, he, hb⟩ := hext'.types hq'
      cases hb
      exact he
    · exact hall q hq

private theorem nodup_all : Primitive.all.Nodup := by
  decide

/-- The primitive types come into an empty registry one by one, and their names and identities are all
different. -/
theorem indexed_withPrimitives (width : Width) : (withPrimitives width).Indexed :=
  (Indexed.foldl_putType_primitive Primitive.all nodup_all (.empty width)
    fun _ _ ↦ by simp [Registry.empty]).1

/-- All primitive types are registered at the start. -/
theorem hasPrimitives_withPrimitives (width : Width) : (withPrimitives width).HasPrimitives :=
  fun p ↦ (Indexed.foldl_putType_primitive Primitive.all nodup_all (.empty width)
    fun _ _ ↦ by simp [Registry.empty]).2.2 p p.mem_all

/-! ### Registries that a host can build -/

/-- One operation of a host that succeeds. -/
inductive Step : Registry → Registry → Prop
  | registerType {r r' : Registry} {e : TypeEntry} (h : r.registerType e = .ok r') : Step r r'
  | registerFunction {r r' : Registry} {f : Callable} (h : r.registerFunction f = .ok r') : Step r r'
  | layOutClass {r r' : Registry} {id : Fingerprint} {size : UInt32}
      (h : r.layOutClass id = .ok (size, r')) : Step r r'
  | pushField {r r' : Registry} {id : Fingerprint} {field : Field}
      (h : r.pushField? id field = some r') : Step r r'

/-- The registries that a host can reach from the empty registry, or from that of the primitive
types. -/
inductive Built : Registry → Prop
  | empty (width : Width) : Built (empty width)
  | withPrimitives (width : Width) : Built (withPrimitives width)
  | step {r r' : Registry} (h : Built r) (hs : r.Step r') : Built r'

/-- Every operation that succeeds keeps the two tables in step. -/
theorem Indexed.step (h : r.Indexed) (hs : r.Step r') : r'.Indexed := by
  cases hs with
  | registerType hr => exact h.registerType hr
  | registerFunction hr => exact h.registerFunction hr
  | layOutClass hr => exact h.layOutClass hr
  | pushField hr =>
    obtain ⟨c, hc, rfl⟩ := Option.map_eq_some_iff.1 hr
    exact h.setClass (class?_eq_some_iff.1 hc) rfl rfl

/-- The indexes are in step whatever the host has done. -/
theorem Built.indexed (h : r.Built) : r.Indexed := by
  induction h with
  | empty width => exact .empty width
  | withPrimitives width => exact indexed_withPrimitives width
  | step _ hs ih => exact ih.step hs

/-- Every type lies under its own identity. -/
def Keyed (r : Registry) : Prop :=
  ∀ (id : Fingerprint) (e : TypeEntry), r.types[id]? = some e → e.id = id

/-- In particular every entry lies under its own identity. -/
theorem Indexed.keyed (h : r.Indexed) : r.Keyed :=
  fun _ _ ↦ h.type_id

namespace Keyed

/-- A type that is entered over another one still lies under its own identity. So this needs no new
keys, other than the index of names. -/
theorem putType (h : r.Keyed) (e : TypeEntry) : (r.putType e).Keyed := by
  intro id e' he
  rw [types_putType] at he
  split at he
  next heq => exact Option.some.inj he ▸ heq
  next => exact h id e' he

/-- A class may be replaced by one with its identity. -/
theorem setClass (h : r.Keyed) {id : Fingerprint} {c c' : ClassEntry} (hc : r.class? id = some c)
    (hid : c'.id = c.id) : (r.setClass id c').Keyed := by
  intro id' e he
  rw [types_setClass] at he
  split at he
  next heq =>
    obtain rfl := Option.some.inj he
    exact hid.trans ((h id _ (class?_eq_some_iff.1 hc)).trans heq)
  next => exact h id' e he

/-- Every operation that succeeds leaves the types under their own identities. -/
theorem step (h : r.Keyed) (hs : r.Step r') : r'.Keyed := by
  cases hs with
  | registerType hr =>
    obtain ⟨-, -, rfl⟩ := registerType_eq_ok_iff.1 hr
    exact h.putType _
  | registerFunction hr =>
    obtain ⟨-, -, rfl⟩ := registerFunction_eq_ok_iff.1 hr
    exact h
  | layOutClass hr =>
    rcases layOutClass_eq_ok hr with ⟨c, hc, rfl | ⟨-, layouts, -, rfl⟩⟩
    · exact h
    · exact h.setClass (class?_eq_some_iff.2 hc) rfl
  | pushField hr =>
    obtain ⟨c, hc, rfl⟩ := Option.map_eq_some_iff.1 hr
    exact h.setClass hc rfl

end Keyed

/-- No operation takes a type away. -/
theorem Step.type?_isSome (hs : r.Step r') {id : Fingerprint} (h : (r.type? id).isSome) :
    (r'.type? id).isSome := by
  cases hs with
  | registerType hr => exact (Extends.of_registerType hr).type?_isSome h
  | registerFunction hr => exact (Extends.of_registerFunction hr).type?_isSome h
  | layOutClass hr => exact (Extends.of_layOutClass hr).type?_isSome h
  | pushField hr =>
    -- a new field changes the layout of a class, so the registry does not extend the old one
    obtain ⟨c, -, rfl⟩ := Option.map_eq_some_iff.1 hr
    rw [type?, types_setClass]
    split
    · rfl
    · exact h

end Registry

end StackLowering
