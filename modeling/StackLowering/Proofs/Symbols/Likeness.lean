import StackLowering.Proofs.Symbols.Registry
import StackLowering.Symbols.Instances

/-!
# Registries that look alike

The numbers of a layout decide little. Two registries that differ only in how their classes are laid
out find the same under every name, refuse the same registrations and answer requests for instances in
the same way. How much of a layout has to be the same is left open: a view (`ClassView`) shows all of a
class but its layout, and of this as much as it likes, and two registries look alike under a view if
they show the same types.

Two views matter. One shows no layout at all (`ClassView.written`), so that a registry looks the same
before and after a class is laid out. The other shows whether a class is laid out, but not to which
offsets (`ClassView.measureless`), so that registries look alike which differ only in the width of
pointers.
-/

namespace StackLowering

open Std

/-! ### Classes without their layouts -/

/-- The field without its offset. -/
def Field.unplaced (f : Field) : Field := { f with offset? := none }

/-- The field with 0 for its offset, if it has one. -/
def Field.unmeasured (f : Field) : Field := { f with offset? := f.offset?.map fun _ ↦ 0 }

namespace ClassEntry

/-- The class without its layout. -/
def unplaced (c : ClassEntry) : ClassEntry :=
  { c with fields := c.fields.map Field.unplaced, extent? := none }

/-- The class with 0 for every number of its layout. -/
def unmeasured (c : ClassEntry) : ClassEntry :=
  { c with fields := c.fields.map Field.unmeasured, extent? := c.extent?.map fun _ ↦ ⟨0, 0⟩ }

/-- The class with 0 for every number that a layout would give it. -/
def blank (c : ClassEntry) : ClassEntry :=
  { c with
    fields := c.fields.map fun f ↦ { f with offset? := some 0 }
    extent? := some ⟨0, 0⟩ }

variable (c : ClassEntry)

/-- Taking the layout away twice is taking it away once. -/
theorem unplaced_unplaced : c.unplaced.unplaced = c.unplaced := by
  simp [unplaced, Field.unplaced]

/-- Where the layout is taken away, it does not matter that it was coarsened before. -/
theorem unplaced_unmeasured : c.unmeasured.unplaced = c.unplaced := by
  simp [unplaced, unmeasured, Field.unplaced, Field.unmeasured]

/-- A class without its layout has the same blank form. -/
theorem blank_unplaced : c.unplaced.blank = c.blank := by
  simp [unplaced, blank, Field.unplaced]

/-- What is made of each field, whatever its offset, is made of all of them if each gets an offset. -/
private theorem map_zipWith_offset {β : Type} {f : Field → β} {g : Field → β}
    (hf : ∀ (field : Field) (offset : UInt32), f { field with offset? := some offset } = g field)
    {fields : List Field} {offsets : List UInt32} (h : offsets.length = fields.length) :
    (fields.zipWith (fun field offset ↦ { field with offset? := some offset }) offsets).map f =
      fields.map g := by
  induction fields generalizing offsets with
  | nil => rfl
  | cons field fields ih =>
    obtain ⟨offset, offsets, rfl⟩ := List.exists_cons_of_length_eq_add_one h
    rw [List.zipWith_cons_cons, List.map_cons, List.map_cons, hf, ih (Nat.succ.inj h)]

variable {c} {layouts : List Layout}

/-- Laying out a class gives it a layout and changes nothing else. -/
theorem unplaced_placed (h : layouts.length = c.fields.length) :
    (c.placed (.ofFields layouts)).unplaced = c.unplaced := by
  have hoffsets : (Packing.ofFields layouts).offsets.length = c.fields.length :=
    (Packing.length_place 0 layouts).trans h
  rw [unplaced, placed, map_zipWith_offset (g := Field.unplaced) (fun _ _ ↦ rfl) hoffsets]
  rfl

/-- A class that is laid out has a layout, whatever its numbers. -/
theorem unmeasured_placed (h : layouts.length = c.fields.length) :
    (c.placed (.ofFields layouts)).unmeasured = c.blank := by
  have hoffsets : (Packing.ofFields layouts).offsets.length = c.fields.length :=
    (Packing.length_place 0 layouts).trans h
  rw [unmeasured, placed, map_zipWith_offset (g := fun f ↦ { f with offset? := some 0 })
    (fun _ _ ↦ rfl) hoffsets]
  rfl

/-- Two layouts of a class differ in nothing but numbers. -/
theorem unmeasured_placed_eq {c' : ClassEntry} {layouts' : List Layout} (hc : c'.unplaced = c.unplaced)
    (h : layouts.length = c.fields.length) (h' : layouts'.length = c'.fields.length) :
    (c'.placed (.ofFields layouts')).unmeasured = (c.placed (.ofFields layouts)).unmeasured := by
  rw [unmeasured_placed h, unmeasured_placed h', ← c'.blank_unplaced, hc, c.blank_unplaced]

/-- Classes that differ in nothing but numbers are both laid out or both not. -/
theorem cases_extent? {c' : ClassEntry} (h : c'.unmeasured = c.unmeasured) :
    (c.extent? = none ∧ c'.extent? = none) ∨
      ∃ extent extent', c.extent? = some extent ∧ c'.extent? = some extent' := by
  have hextent : c'.extent?.map (fun _ ↦ (⟨0, 0⟩ : Extent)) = c.extent?.map fun _ ↦ ⟨0, 0⟩ :=
    congrArg ClassEntry.extent? h
  rcases hc : c.extent? with _ | extent
  · rw [hc] at hextent
    exact .inl ⟨rfl, Option.map_eq_none_iff.1 hextent⟩
  · rw [hc] at hextent
    obtain ⟨extent', hextent', -⟩ := Option.map_eq_some_iff.1 hextent
    exact .inr ⟨extent, extent', rfl, hextent'⟩

end ClassEntry

/-! ### Views -/

/-- A way to look at classes that shows everything but the layout, and perhaps some of this. -/
structure ClassView where
  /-- What is seen of a class. -/
  see : ClassEntry → ClassEntry
  unplaced_see : ∀ c, (see c).unplaced = c.unplaced

namespace ClassView

/-- The view that shows no layout. -/
def written : ClassView := ⟨ClassEntry.unplaced, ClassEntry.unplaced_unplaced⟩

/-- The view that shows whether there is a layout, but not its numbers. -/
def measureless : ClassView := ⟨ClassEntry.unmeasured, ClassEntry.unplaced_unmeasured⟩

variable {v : ClassView} {c c' : ClassEntry}

/-- Whatever a view shows, it shows all of a class but its layout. -/
theorem unplaced_eq (h : v.see c' = v.see c) : c'.unplaced = c.unplaced := by
  rw [← v.unplaced_see, h, v.unplaced_see]

/-- Classes that look alike have the same name. -/
theorem name_eq (h : v.see c' = v.see c) : c'.name = c.name :=
  show c'.unplaced.name = c.unplaced.name from congrArg _ (unplaced_eq h)

/-- Classes that look alike have the same identity. -/
theorem id_eq (h : v.see c' = v.see c) : c'.id = c.id :=
  show c'.unplaced.id = c.unplaced.id from congrArg _ (unplaced_eq h)

/-- Classes that look alike have the same constructor. -/
theorem constructor?_eq (h : v.see c' = v.see c) : c'.constructor? = c.constructor? :=
  show c'.unplaced.constructor? = c.unplaced.constructor? from congrArg _ (unplaced_eq h)

end ClassView

/-- What is seen of a registered type. -/
def TypeEntry.seen (v : ClassView) : TypeEntry → TypeEntry
  | object c => object (v.see c)
  | e => e

/-- Only classes can be seen to be the same without being the same. -/
theorem TypeEntry.seen_eq {v : ClassView} {e e' : TypeEntry} (h : e'.seen v = e.seen v) :
    e' = e ∨ ∃ c c', e = .object c ∧ e' = .object c' ∧ v.see c' = v.see c := by
  cases e with
  | object c =>
    cases e' with
    | object c' => exact .inr ⟨c, c', rfl, rfl, object.inj h⟩
    | primitive | template => exact nomatch h
  | primitive | template =>
    cases e' with
    | object c' => exact nomatch h
    | primitive | template => exact .inl h

/-! ### Registries -/

namespace Registry

/-- Two registries that show the same types and functions. -/
structure Alike (v : ClassView) (r r' : Registry) : Prop where
  types : ∀ id : Fingerprint, r'.types[id]?.map (·.seen v) = r.types[id]?.map (·.seen v)
  typeNames : r'.typeNames = r.typeNames
  functions : r'.functions = r.functions
  functionNames : r'.functionNames = r.functionNames

namespace Alike

variable {v : ClassView} {r r' : Registry} {id : Fingerprint} {name : String}

/-- A registry looks like itself under every view. -/
theorem refl (r : Registry) : r.Alike v r :=
  ⟨fun _ ↦ rfl, rfl, rfl, rfl⟩

/-- Under an identity both registries have nothing, or the same, or classes that look the same. -/
theorem cases_type? (h : r.Alike v r') (id : Fingerprint) :
    r'.type? id = r.type? id ∨
      ∃ c c', r.type? id = some (.object c) ∧ r'.type? id = some (.object c') ∧ v.see c' = v.see c := by
  have htypes := h.types id
  simp only [type?]
  cases he : r.types[id]? with
  | none =>
    rw [he] at htypes
    exact .inl (Option.map_eq_none_iff.1 htypes)
  | some e =>
    rw [he] at htypes
    obtain ⟨e', he', hseen⟩ := Option.map_eq_some_iff.1 htypes
    rcases TypeEntry.seen_eq hseen with rfl | ⟨c, c', rfl, rfl, hsee⟩
    · exact .inl he'
    · exact .inr ⟨c, c', rfl, he', hsee⟩

/-- Under a name both registries have nothing, or the same, or classes that look the same. -/
theorem cases_typeNamed? (h : r.Alike v r') (name : String) :
    r'.typeNamed? name = r.typeNamed? name ∨
      ∃ c c', r.typeNamed? name = some (.object c) ∧ r'.typeNamed? name = some (.object c') ∧
        v.see c' = v.see c := by
  simp only [typeNamed?, h.typeNames]
  cases r.typeNames[name]? with
  | none => exact .inl rfl
  | some id => exact h.cases_type? id

/-- Registries that look alike have the same functions under each symbol. -/
theorem functionNamed? (h : r.Alike v r') (name : String) :
    r'.functionNamed? name = r.functionNamed? name := by
  rw [Registry.functionNamed?, Registry.functionNamed?, h.functionNames]
  exact congrArg _ (funext fun id ↦ by rw [function?, function?, h.functions])

/-- Registries that look alike have types under the same identities. -/
theorem containsType (h : r.Alike v r') (id : Fingerprint) :
    r'.containsType id = r.containsType id := by
  have hsome := congrArg Option.isSome (h.types id)
  rw [Option.isSome_map, Option.isSome_map] at hsome
  rw [Registry.containsType, Registry.containsType, ExtTreeMap.contains_eq_isSome_getElem?,
    ExtTreeMap.contains_eq_isSome_getElem?]
  exact hsome

/-- Under an identity both registries have no class, or classes that look the same. -/
theorem cases_class? (h : r.Alike v r') (id : Fingerprint) :
    (r.class? id = none ∧ r'.class? id = none) ∨
      ∃ c c', r.class? id = some c ∧ r'.class? id = some c' ∧ v.see c' = v.see c := by
  rw [class?, class?]
  rcases h.cases_type? id with heq | ⟨c, c', hc, hc', hsee⟩
  · rw [heq]
    rcases (r.type? id).bind TypeEntry.class? with _ | c
    · exact .inl ⟨rfl, rfl⟩
    · exact .inr ⟨c, c, rfl, rfl, rfl⟩
  · exact .inr ⟨c, c', by rw [hc]; rfl, by rw [hc']; rfl, hsee⟩

/-- Registries that look alike have classes under the same identities. -/
theorem isSome_class? (h : r.Alike v r') (id : Fingerprint) :
    (r'.class? id).isSome = (r.class? id).isSome := by
  rcases h.cases_class? id with ⟨hnone, hnone'⟩ | ⟨c, c', hc, hc', -⟩
  · rw [hnone, hnone']
  · rw [hc, hc']
    rfl

/-- A type has a layout in both registries or in none. Of the primitive types only addresses have
layouts that depend on the width. -/
theorem cases_layout? (h : r.Alike v r') (id : Fingerprint) :
    (r.layout? id = none ∧ r'.layout? id = none) ∨
      ∃ layout layout', r.layout? id = some layout ∧ r'.layout? id = some layout' := by
  rw [layout?, layout?]
  rcases h.cases_type? id with heq | ⟨c, c', hc, hc', -⟩
  · rw [heq]
    rcases r.type? id with _ | p | c | t
    · exact .inl ⟨rfl, rfl⟩
    · rcases p
      case void => exact .inl ⟨rfl, rfl⟩
      all_goals exact .inr ⟨_, _, rfl, rfl⟩
    · exact .inr ⟨_, _, rfl, rfl⟩
    · exact .inl ⟨rfl, rfl⟩
  · rw [hc, hc']
    exact .inr ⟨_, _, rfl, rfl⟩

/-- Registries that look alike name types in the same way. -/
theorem typeName (h : r.Alike v r') (id : Fingerprint) : r'.typeName id = r.typeName id := by
  rw [Registry.typeName, Registry.typeName]
  rcases h.cases_type? id with heq | ⟨c, c', hc, hc', hsee⟩
  · rw [heq]
  · rw [hc, hc']
    exact ClassView.name_eq hsee

/-- So they name instances in the same way. -/
theorem instanceName (h : r.Alike v r') (base : String) (args : List Fingerprint) :
    r'.instanceName base args = r.instanceName base args := by
  rw [Registry.instanceName, Registry.instanceName, funext h.typeName]

/-- Registries that look alike have the same constructor for each class. -/
theorem constructorOf? (h : r.Alike v r') (id : Fingerprint) :
    r'.constructorOf? id = r.constructorOf? id := by
  rw [Registry.constructorOf?, Registry.constructorOf?,
    show r'.function? = r.function? from funext fun k ↦ by rw [function?, function?, h.functions]]
  rcases h.cases_class? id with ⟨hnone, hnone'⟩ | ⟨c, c', hc, hc', hsee⟩
  · rw [hnone, hnone']
  · rw [hc, hc', Option.bind_some, Option.bind_some, ClassView.constructor?_eq hsee]

/-! #### Registration -/

/-- Entering the same type in both keeps them alike. -/
theorem putType (h : r.Alike v r') (e : TypeEntry) : (r.putType e).Alike v (r'.putType e) where
  types id := by
    rw [types_putType, types_putType]
    split
    · rfl
    · exact h.types id
  typeNames := congrArg (·.insert e.name e.id) h.typeNames
  functions := h.functions
  functionNames := h.functionNames

/-- A type is refused by both registries, for the same reason, or by none. -/
theorem registerType (h : r.Alike v r') (e : TypeEntry) :
    (∃ error, r.registerType e = .error error ∧ r'.registerType e = .error error) ∨
      ∃ r₁ r₁', r.registerType e = .ok r₁ ∧ r'.registerType e = .ok r₁' ∧ r₁.Alike v r₁' := by
  have hcontains : r'.types.contains e.id = r.types.contains e.id := h.containsType e.id
  simp only [Registry.registerType, hcontains, h.typeNames]
  split
  · exact .inl ⟨_, rfl, rfl⟩
  · exact .inr ⟨_, _, rfl, rfl, h.putType e⟩

/-- A function is refused by both registries, for the same reason, or by none. -/
theorem registerFunction (h : r.Alike v r') (f : Callable) :
    (∃ error, r.registerFunction f = .error error ∧ r'.registerFunction f = .error error) ∨
      ∃ r₁ r₁', r.registerFunction f = .ok r₁ ∧ r'.registerFunction f = .ok r₁' ∧ r₁.Alike v r₁' := by
  simp only [Registry.registerFunction, h.functions, h.functionNames]
  split
  · exact .inl ⟨_, rfl, rfl⟩
  · exact .inr ⟨_, _, rfl, rfl, h.types, h.typeNames, rfl, rfl⟩

/-! #### Layouts -/

/-- Replacing a class by classes that look alike keeps them alike. -/
theorem setClass (h : r.Alike v r') {c c' : ClassEntry} (hsee : v.see c' = v.see c)
    (id : Fingerprint) : (r.setClass id c).Alike v (r'.setClass id c') where
  types id' := by
    rw [types_setClass, types_setClass]
    split
    · exact congrArg (some ∘ TypeEntry.object) hsee
    · exact h.types id'
  typeNames := h.typeNames
  functions := h.functions
  functionNames := h.functionNames

/-- Replacing a class by one that looks the same does not show. -/
theorem setClass_left (h : r.Alike v r') {c c' : ClassEntry} (hc : r.types[id]? = some (.object c))
    (hsee : v.see c' = v.see c) : (r.setClass id c').Alike v r' where
  types id' := by
    rw [types_setClass, h.types id']
    split
    next heq =>
      rw [← heq, hc]
      exact congrArg (some ∘ TypeEntry.object) hsee.symm
    next => rfl
  typeNames := h.typeNames
  functions := h.functions
  functionNames := h.functionNames

end Alike

/-- There is a layout for every field. -/
theorem length_fieldLayouts {r : Registry} {owner : String} {fields : List Field}
    {layouts : List Layout} (h : r.fieldLayouts owner fields = .ok layouts) :
    layouts.length = fields.length := by
  induction fields generalizing layouts with
  | nil => exact congrArg List.length (Except.ok.inj h).symm
  | cons field fields ih =>
    rw [fieldLayouts] at h
    cases hlayout : r.layout? field.type with
    | none => simp [hlayout] at h
    | some layout =>
      cases hrest : r.fieldLayouts owner fields with
      | error error => simp [hlayout, hrest, Except.map] at h
      | ok rest =>
        simp only [hlayout, hrest, Except.map, Except.ok.injEq] at h
        rw [← h, List.length_cons, List.length_cons, ih hrest]

/-- What is laid out looks the same before and after, if layouts are not seen. -/
theorem Alike.layOutClass_left {r r' r₁ : Registry} (h : r.Alike .written r') {id : Fingerprint}
    {size : UInt32} (hr : r.layOutClass id = .ok (size, r₁)) : r₁.Alike .written r' := by
  rcases layOutClass_eq_ok hr with ⟨c, hc, rfl | ⟨-, layouts, hlayouts, rfl⟩⟩
  · exact h
  · exact h.setClass_left hc (ClassEntry.unplaced_placed (length_fieldLayouts hlayouts))

/-- In two registries the same fields of a class have layouts. -/
theorem Alike.fieldLayouts {v : ClassView} {r r' : Registry} (h : r.Alike v r') (owner : String)
    {fields fields' : List Field} (hfields : fields'.map Field.unplaced = fields.map Field.unplaced) :
    (∃ error, r.fieldLayouts owner fields = .error error ∧
        r'.fieldLayouts owner fields' = .error error) ∨
      ∃ layouts layouts', r.fieldLayouts owner fields = .ok layouts ∧
        r'.fieldLayouts owner fields' = .ok layouts' := by
  induction fields generalizing fields' with
  | nil =>
    obtain rfl := List.map_eq_nil_iff.1 hfields
    exact .inr ⟨[], [], rfl, rfl⟩
  | cons field fields ih =>
    obtain ⟨field', fields', rfl, hfield, hrest⟩ := List.map_eq_cons_iff.1 hfields
    have hname : field'.unplaced.name = field.unplaced.name := congrArg Field.name hfield
    have htype : field'.unplaced.type = field.unplaced.type := congrArg Field.type hfield
    simp only [Field.unplaced] at hname htype
    rw [Registry.fieldLayouts, Registry.fieldLayouts, htype, hname]
    rcases h.cases_layout? field.type with ⟨hnone, hnone'⟩ | ⟨layout, layout', hlayout, hlayout'⟩
    · exact .inl ⟨_, by rw [hnone], by rw [hnone']⟩
    · rw [hlayout, hlayout']
      rcases ih hrest with ⟨error, herror, herror'⟩ | ⟨layouts, layouts', hok, hok'⟩
      · exact .inl ⟨error, by rw [herror]; rfl, by rw [herror']; rfl⟩
      · exact .inr ⟨layout :: layouts, layout' :: layouts', by rw [hok]; rfl, by rw [hok']; rfl⟩

/-- A class is laid out in both registries, with whatever sizes, or in none for the same reason. -/
theorem Alike.layOutClass {r r' : Registry} (h : r.Alike .measureless r') (id : Fingerprint) :
    (∃ error, r.layOutClass id = .error error ∧ r'.layOutClass id = .error error) ∨
      ∃ size size' r₁ r₁', r.layOutClass id = .ok (size, r₁) ∧
        r'.layOutClass id = .ok (size', r₁') ∧ r₁.Alike .measureless r₁' := by
  rw [Registry.layOutClass, Registry.layOutClass]
  rcases h.cases_class? id with ⟨hnone, hnone'⟩ | ⟨c, c', hc, hc', hsee⟩
  · exact .inl ⟨_, by rw [hnone], by rw [hnone']⟩
  rw [hc, hc']
  dsimp only
  rcases ClassEntry.cases_extent? hsee with ⟨hnone, hnone'⟩ | ⟨extent, extent', hextent, hextent'⟩
  · have hplaced : c'.unplaced = c.unplaced := ClassView.unplaced_eq hsee
    rw [hnone, hnone', ClassView.name_eq hsee]
    dsimp only
    rcases h.fieldLayouts c.name (congrArg ClassEntry.fields hplaced) with
      ⟨error, herror, herror'⟩ | ⟨layouts, layouts', hok, hok'⟩
    · exact .inl ⟨error, by rw [herror]; rfl, by rw [herror']; rfl⟩
    · refine .inr ⟨_, _, _, _, by rw [hok]; rfl, by rw [hok']; rfl, h.setClass ?_ id⟩
      exact ClassEntry.unmeasured_placed_eq hplaced (length_fieldLayouts hok) (length_fieldLayouts hok')
  · rw [hextent, hextent']
    exact .inr ⟨_, _, r, r', rfl, rfl, h⟩

end Registry

/-! ### Requests -/

/-- Two states of the symbols that show the same and remember the same instances. -/
structure Symbols.Alike (v : ClassView) (s s' : Symbols) : Prop where
  registry : s.registry.Alike v s'.registry
  instances : s'.instances = s.instances

namespace Symbols.Alike

variable {v : ClassView} {s s' : Symbols}

theorem refl (s : Symbols) : s.Alike v s :=
  ⟨.refl _, rfl⟩

/-- Remembering the same instance in both keeps them alike. -/
theorem remember (h : s.Alike v s') (template : Fingerprint) (args : List Fingerprint)
    (id : Fingerprint) : (s.remember template args id).Alike v (s'.remember template args id) :=
  ⟨h.registry, congrArg (·.remember template args id) h.instances⟩

/-- A new instance is registered in both states or in none. -/
theorem createInstance (h : s.Alike v s') (t : TemplateEntry) (args : List Fingerprint)
    (substitution : Substitution) (span : Span) :
    (s'.createInstance t args substitution span).1 = (s.createInstance t args substitution span).1 ∧
      (s.createInstance t args substitution span).2.Alike v
        (s'.createInstance t args substitution span).2 := by
  unfold Symbols.createInstance
  rw [h.registry.instanceName]
  dsimp only
  rcases h.registry.registerType (.object (t.instanceClass (s.registry.instanceName t.name args) args
    substitution)) with ⟨error, herror, herror'⟩ | ⟨r, r', hr, hr', hclass⟩
  · rw [herror, herror']
    exact ⟨rfl, h⟩
  have hs : Alike v { s with registry := r } { s' with registry := r' } := ⟨hclass, h.instances⟩
  rw [hr, hr']
  dsimp only
  cases t.instanceConstructor? _ _ substitution with
  | none => exact ⟨rfl, hs.remember _ _ _⟩
  | some constructor =>
    dsimp only
    rcases hclass.registerFunction constructor with
      ⟨error, herror, herror'⟩ | ⟨r₁, r₁', hr₁, hr₁', hfunction⟩
    · rw [herror, herror']
      exact ⟨rfl, hs⟩
    · have hs₁ : Alike v { s with registry := r₁ } { s' with registry := r₁' } :=
        ⟨hfunction, h.instances⟩
      rw [hr₁, hr₁']
      exact ⟨rfl, hs₁.remember _ _ _⟩

/-- A request has the same answer in both states, which look alike afterwards. -/
theorem instantiate (h : s.Alike v s') (template : Fingerprint) (args : List Fingerprint)
    (span : Span) :
    (s'.instantiate template args span).1 = (s.instantiate template args span).1 ∧
      (s.instantiate template args span).2.Alike v (s'.instantiate template args span).2 := by
  unfold Symbols.instantiate
  dsimp only
  rw [h.instances, h.registry.containsType]
  cases s.instances.find? template args with
  | some known => exact ⟨rfl, h⟩
  | none =>
    dsimp only
    split
    · exact ⟨rfl, h.remember template args _⟩
    · rcases h.registry.cases_type? template with heq | ⟨c, c', hc, hc', hsee⟩
      · rw [heq]
        rcases s.registry.type? template with _ | p | c | t
        · exact ⟨rfl, h⟩
        · exact ⟨rfl, h⟩
        · exact ⟨rfl, h⟩
        · dsimp only
          cases t.substitution args span with
          | error error => exact ⟨rfl, h⟩
          | ok substitution => exact h.createInstance t args substitution span
      · rw [hc, hc']
        have hname : c'.name = c.name := ClassView.name_eq hsee
        exact ⟨by simp only [TypeEntry.name, hname], h⟩

end Symbols.Alike

end StackLowering
