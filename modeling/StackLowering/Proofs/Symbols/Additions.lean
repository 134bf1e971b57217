import StackLowering.Proofs.Symbols.Registry

/-!
# What is added to a registry

Registries are ordered by extension (`Registry.Extends`). Registering a type or a function and laying
out a class lead to the least registry that extends the one before and knows what was added
(`Registry.Adds`). What the operations on two registries have in common can therefore be stated as what
they demand, without naming the registries that they lead to.

A demand is a property of registries that is kept by extension, such as knowing a type
(`Registry.KnowsType`). Being the least registry with a property determines a registry
(`Registry.Adds.unique`), as extension is an order: of two registries that extend each other, each
class is laid out in both or in none. So two sequences of operations lead to the same registry if they
demand the same in the end, in whatever order.

This is used where scripts are compiled in different orders of their functions. Each order creates the
instances in another order, and all of them add the same.
-/

namespace StackLowering

open Std

/-- A class stays a class, with its identity. -/
theorem TypeEntry.Becomes.exists_object {c : ClassEntry} {e : TypeEntry}
    (h : Becomes (.object c) e) : ∃ c', e = .object c' ∧ c'.id = c.id := by
  cases h <;> exact ⟨_, rfl, rfl⟩

/-- A class that is laid out does not become anything else. -/
theorem TypeEntry.Becomes.eq_of_placed {c : ClassEntry} {packing : Packing} {e : TypeEntry}
    (h : Becomes (.object (c.placed packing)) e) : e = .object (c.placed packing) := by
  generalize heq : c.placed packing = c' at h
  cases h with
  | same => rfl
  | placed hc' =>
    subst heq
    simp [ClassEntry.placed] at hc'

/-- An entry that becomes another one and back stays what it is. -/
theorem TypeEntry.Becomes.antisymm {e e' : TypeEntry} (h : e.Becomes e') (h' : e'.Becomes e) :
    e = e' := by
  cases h with
  | same => rfl
  | placed hc packing => exact h'.eq_of_placed

namespace Registry

variable {r r' r₁ r₁' r₂ : Registry} {K K' : Registry → Prop}

/-- Two maps are equal if everything that is found in one of them is found in the other. -/
private theorem eq_of_getElem? {α β : Type} [Ord α] [TransOrd α] [LawfulEqOrd α]
    {m m' : ExtTreeMap α β} (h : ∀ {a : α} {b : β}, m[a]? = some b → m'[a]? = some b)
    (h' : ∀ {a : α} {b : β}, m'[a]? = some b → m[a]? = some b) : m = m' :=
  ExtTreeMap.ext_getElem? fun _ ↦ Option.ext fun _ ↦ ⟨h, h'⟩

/-- Registries that extend each other are the same: being laid out cannot be taken back. -/
theorem Extends.antisymm (h : r.Extends r') (h' : r'.Extends r) : r = r' := by
  have hentry {r r' : Registry} (h : r.Extends r') (h' : r'.Extends r) {id : Fingerprint}
      {e : TypeEntry} (he : r.types[id]? = some e) : r'.types[id]? = some e := by
    obtain ⟨e', he', hb⟩ := h.types he
    obtain ⟨e'', he'', hb'⟩ := h'.types he'
    obtain rfl := Option.some.inj (he.symm.trans he'')
    rwa [hb.antisymm hb']
  have htypes : r.types = r'.types := eq_of_getElem? (hentry h h') (hentry h' h)
  have htypeNames : r.typeNames = r'.typeNames := eq_of_getElem? h.typeNames h'.typeNames
  have hfunctions : r.functions = r'.functions := eq_of_getElem? h.functions h'.functions
  have hfunctionNames : r.functionNames = r'.functionNames :=
    eq_of_getElem? h.functionNames h'.functionNames
  cases r
  cases r'
  simp only [mk.injEq]
  exact ⟨htypes, htypeNames, hfunctions, hfunctionNames, h'.width_eq⟩

/-! ### Least extensions -/

/-- The second registry is the least one that extends the first one and meets a demand. -/
def Adds (r : Registry) (K : Registry → Prop) (r₁ : Registry) : Prop :=
  ∀ d, r₁.Extends d ↔ r.Extends d ∧ K d

namespace Adds

/-- Nothing is added if the demand is met already, and for good. -/
theorem of_forall (h : ∀ d, r.Extends d → K d) : r.Adds K r :=
  fun d ↦ ⟨fun hd ↦ ⟨hd, h d hd⟩, And.left⟩

/-- Nothing is added where nothing is demanded. -/
theorem refl (r : Registry) : r.Adds (fun _ ↦ True) r :=
  .of_forall fun _ _ ↦ trivial

/-- Two additions in a row add what both demand. -/
theorem trans (h : r.Adds K r₁) (h' : r₁.Adds K' r₂) : r.Adds (fun d ↦ K d ∧ K' d) r₂ :=
  fun d ↦ by rw [h' d, h d, and_assoc]

/-- What is added comes to what is there. -/
theorem extend (h : r.Adds K r₁) : r.Extends r₁ :=
  ((h r₁).1 (.refl r₁)).1

/-- The registry knows what was added to it. -/
theorem meets (h : r.Adds K r₁) : K r₁ :=
  ((h r₁).1 (.refl r₁)).2

/-- What is demanded of a larger registry leads to a larger registry. -/
theorem mono (hr : r.Extends r') (h : r.Adds K r₁) (h' : r'.Adds K r₁') : r₁.Extends r₁' :=
  (h r₁').2 ⟨hr.trans h'.extend, h'.meets⟩

/-- What is demanded may be stated in another way. -/
theorem congr (h : r.Adds K r₁) (hK : ∀ d, r.Extends d → (K d ↔ K' d)) : r.Adds K' r₁ :=
  fun d ↦ (h d).trans (and_congr_right (hK d))

/-- There is only one least extension. -/
theorem unique (h : r.Adds K r₁) (h' : r.Adds K r₁') : r₁ = r₁' :=
  Extends.antisymm (h.mono (.refl r) h') (h'.mono (.refl r) h)

/-- What is demanded of a registry can be stated as what the least extension of a smaller one has. -/
theorem of_extends (hr : r.Extends r') (h : r.Adds K r₁) (h' : r'.Adds K r₁') :
    r'.Adds r₁.Extends r₁' :=
  h'.congr fun d hd ↦ ⟨fun hK ↦ (h d).2 ⟨hr.trans hd, hK⟩, fun hd' ↦ ((h d).1 hd').2⟩

end Adds

/-! ### Operations -/

/-- A registry that knows a type under its name, perhaps laid out in the meantime. -/
def KnowsType (e : TypeEntry) (d : Registry) : Prop :=
  (∃ e', d.types[e.id]? = some e' ∧ e.Becomes e') ∧ d.typeNames[e.name]? = some e.id

/-- A registry that knows a function under its name. -/
def KnowsFunction (f : Callable) (d : Registry) : Prop :=
  d.functions[f.id]? = some f ∧ d.functionNames[f.name]? = some f.id

/-- A known type stays known, perhaps laid out. -/
theorem KnowsType.extends {e : TypeEntry} (h : KnowsType e r) (hr : r.Extends r') :
    KnowsType e r' := by
  obtain ⟨⟨e', he', hb⟩, hname⟩ := h
  obtain ⟨e'', he'', hb'⟩ := hr.types he'
  exact ⟨⟨e'', he'', hb.trans hb'⟩, hr.typeNames hname⟩

/-- A known function stays known. -/
theorem KnowsFunction.extends {f : Callable} (h : KnowsFunction f r) (hr : r.Extends r') :
    KnowsFunction f r' :=
  ⟨hr.functions h.1, hr.functionNames h.2⟩

/-- What is found after something was entered is what was entered, or was there before. -/
private theorem of_getElem?_insert {α β : Type} [Ord α] [TransOrd α] [LawfulEqOrd α] [DecidableEq α]
    {m : ExtTreeMap α β} {k a : α} {v b : β} (h : (m.insert k v)[a]? = some b) :
    k = a ∧ v = b ∨ m[a]? = some b := by
  rw [ExtTreeMap.getElem?_insert] at h
  split at h
  next heq => exact .inl ⟨LawfulEqCmp.compare_eq_iff_eq.1 heq, Option.some.inj h⟩
  next => exact .inr h

/-- A type under new keys adds itself and nothing else. -/
theorem adds_putType {e : TypeEntry} (hid : r.types[e.id]? = none)
    (hname : r.typeNames[e.name]? = none) : r.Adds (KnowsType e) (r.putType e) := by
  have hext : r.Extends (r.putType e) :=
    .of_registerType (registerType_eq_ok_iff.2 ⟨hid, hname, rfl⟩)
  have hknows : KnowsType e (r.putType e) :=
    ⟨⟨e, by simp [types_putType], .same e⟩, by simp [typeNames_putType]⟩
  refine fun d ↦ ⟨fun hd ↦ ⟨hext.trans hd, hknows.extends hd⟩, ?_⟩
  rintro ⟨hd, hentry, hname⟩
  refine ⟨hd.width_eq, fun he ↦ ?_, fun hn ↦ ?_, hd.functions, hd.functionNames⟩
  · rcases of_getElem?_insert he with ⟨rfl, rfl⟩ | he
    · exact hentry
    · exact hd.types he
  · rcases of_getElem?_insert hn with ⟨rfl, rfl⟩ | hn
    · exact hname
    · exact hd.typeNames hn

/-- A function under new keys adds itself and nothing else. -/
theorem adds_putFunction {f : Callable} (hid : r.functions[f.id]? = none)
    (hname : r.functionNames[f.name]? = none) : r.Adds (KnowsFunction f) (r.putFunction f) := by
  have hext : r.Extends (r.putFunction f) :=
    .of_registerFunction (registerFunction_eq_ok_iff.2 ⟨hid, hname, rfl⟩)
  have hknows : KnowsFunction f (r.putFunction f) := by
    constructor <;> simp [putFunction]
  refine fun d ↦ ⟨fun hd ↦ ⟨hext.trans hd, hknows.extends hd⟩, ?_⟩
  rintro ⟨hd, hentry, hname⟩
  refine ⟨hd.width_eq, hd.types, hd.typeNames, fun hf ↦ ?_, fun hn ↦ ?_⟩
  · rcases of_getElem?_insert hf with ⟨rfl, rfl⟩ | hf
    · exact hentry
    · exact hd.functions hf
  · rcases of_getElem?_insert hn with ⟨rfl, rfl⟩ | hn
    · exact hname
    · exact hd.functionNames hn

/-- A class is laid out once and for all. -/
theorem adds_setClass {id : Fingerprint} {c : ClassEntry} (hc : r.types[id]? = some (.object c))
    (hextent : c.extent? = none) (packing : Packing) :
    r.Adds (fun d ↦ d.types[id]? = some (.object (c.placed packing)))
      (r.setClass id (c.placed packing)) := by
  have hext : r.Extends (r.setClass id (c.placed packing)) := by
    refine ⟨rfl, fun {id' e} he ↦ ?_, fun h ↦ h, fun h ↦ h, fun h ↦ h⟩
    rw [types_setClass]
    split
    next heq =>
      subst heq
      obtain rfl := Option.some.inj (hc.symm.trans he)
      exact ⟨_, rfl, .placed hextent packing⟩
    next => exact ⟨e, he, .same e⟩
  refine fun d ↦ ⟨fun hd ↦ ⟨hext.trans hd, ?_⟩, ?_⟩
  · have hset : (r.setClass id (c.placed packing)).types[id]? = some (.object (c.placed packing)) := by
      rw [types_setClass, if_pos rfl]
    obtain ⟨e, he, hb⟩ := hd.types hset
    rwa [hb.eq_of_placed] at he
  · rintro ⟨hd, hplaced⟩
    refine ⟨hd.width_eq, fun {id' e} he ↦ ?_, hd.typeNames, hd.functions, hd.functionNames⟩
    rcases of_getElem?_insert he with ⟨rfl, rfl⟩ | he
    · exact ⟨_, hplaced, .same _⟩
    · exact hd.types he

end Registry

end StackLowering
