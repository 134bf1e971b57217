import StackLowering.Proofs.Lowering.Passes
import StackLowering.Proofs.Symbols.Expansion
import StackLowering.Proofs.Symbols.Likeness

/-!
# Compilation keeps what is registered

Lowering enters types and functions from deep within expressions, and a script may fail at any point
after it did. Still nothing that was registered is lost or replaced: of an old entry only the layout
can be new, and only if the class had none (`Registry.Keeps`). This is so for each change that
compilation makes to the symbols, and therefore for all of them in a row, from any registry at all.

That the registry is one that a host can build is not assumed. A registration takes keys that are not
in use, and laying out a class replaces one entry under its own key; neither needs to know how the
entries came there. What a host looks up, by identity or by name, is therefore found again
(`Script.keeps_compile`): a layout, a class, the constructor of a class, a type and a function.

The steps are those that any compilation consists of (`Symbols.Changes`), with one lemma for each; no
expression is looked at here. Whether errors are reported plays no part.
-/

namespace StackLowering

/-! ### Registered types -/

namespace TypeEntry.Matures

variable {r r' : Registry} {e e' e'' : TypeEntry}

/-- A class that is laid out stays as it is, so two steps are never more than one. -/
theorem trans (hr : r.Extends r') (h : e.Matures r e') (h' : e'.Matures r' e'') :
    e.Matures r' e'' := by
  rcases h with _ | ⟨hc, hlayouts⟩
  · exact h'
  · rcases h' with _ | ⟨hc', -⟩
    · exact .placed hc (hr.fieldLayouts hlayouts)
    · simp [ClassEntry.placed] at hc'

/-- A class matures into a class that differs from it in nothing but the layout, and if it was laid out
it stays as it is. -/
theorem exists_object {c : ClassEntry} (h : (object c).Matures r e') :
    ∃ c', e' = .object c' ∧ c'.unplaced = c.unplaced ∧ (c.isLaidOut = true → c' = c) := by
  rcases h with _ | ⟨hc, hlayouts⟩
  · exact ⟨c, rfl, rfl, fun _ ↦ rfl⟩
  · refine ⟨_, rfl, ClassEntry.unplaced_placed (Registry.length_fieldLayouts hlayouts), fun h ↦ ?_⟩
    simp [ClassEntry.isLaidOut, hc] at h

end TypeEntry.Matures

/-! ### Registries -/

namespace Registry

/-- What one registry holds the other one holds under the same keys, except that classes may have been
laid out for the first time, each with the packing of its fields. -/
structure Keeps (r r' : Registry) : Prop where
  extend : r.Extends r'
  matures : ∀ {id : Fingerprint} {e : TypeEntry}, r.types[id]? = some e →
    ∃ e', r'.types[id]? = some e' ∧ e.Matures r' e'

namespace Keeps

variable {r r' r'' : Registry}

/-- A registry keeps what it holds. -/
theorem refl (r : Registry) : r.Keeps r :=
  ⟨.refl r, fun he ↦ ⟨_, he, .same _⟩⟩

/-- What is kept twice in a row is kept. A class is laid out at most once on the way. -/
theorem trans (h : r.Keeps r') (h' : r'.Keeps r'') : r.Keeps r'' := by
  refine ⟨h.extend.trans h'.extend, fun he ↦ ?_⟩
  obtain ⟨e', he', hmatures⟩ := h.matures he
  obtain ⟨e'', he'', hmatures'⟩ := h'.matures he'
  exact ⟨e'', he'', hmatures.trans h'.extend hmatures'⟩

/-- A new type takes no key that is in use. -/
theorem of_registerType {e : TypeEntry} (h : r.registerType e = .ok r') : r.Keeps r' := by
  refine ⟨.of_registerType h, fun he ↦ ?_⟩
  obtain ⟨hid, -, rfl⟩ := registerType_eq_ok_iff.1 h
  exact ⟨_, getElem?_insert_of_eq_none hid he, .same _⟩

/-- A new function leaves the types as they are. -/
theorem of_registerFunction {f : Callable} (h : r.registerFunction f = .ok r') : r.Keeps r' := by
  refine ⟨.of_registerFunction h, fun he ↦ ?_⟩
  obtain ⟨-, -, rfl⟩ := registerFunction_eq_ok_iff.1 h
  exact ⟨_, he, .same _⟩

/-- The class that is laid out gets the packing of its fields, and nothing else is touched. -/
theorem of_layOutClass {id : Fingerprint} {size : UInt32} (h : r.layOutClass id = .ok (size, r')) :
    r.Keeps r' := by
  have hextend := Extends.of_layOutClass h
  refine ⟨hextend, fun {id' e} he ↦ ?_⟩
  rcases layOutClass_eq_ok h with ⟨c, hc, rfl | ⟨hextent, layouts, hlayouts, rfl⟩⟩
  · exact ⟨e, he, .same e⟩
  · rw [types_setClass]
    split
    next heq =>
      obtain rfl : e = .object c := Option.some.inj (he.symm.trans (heq ▸ hc))
      exact ⟨_, rfl, .placed hextent (hextend.fieldLayouts hlayouts)⟩
    next => exact ⟨e, he, .same e⟩

/-! What was found is found again. -/

/-- A registered type has the layout that it had, also if that is none. -/
theorem layout?_eq (h : r.Keeps r') {id : Fingerprint} (hid : (r.type? id).isSome) :
    r'.layout? id = r.layout? id := by
  obtain ⟨e, he⟩ := Option.isSome_iff_exists.1 hid
  obtain ⟨e', he', hmatures⟩ := h.matures he
  rw [layout?, layout?, he, type?, he', h.extend.width_eq]
  rcases hmatures with _ | _ <;> rfl

/-- A name that means a type keeps its meaning. -/
theorem typeNamed? (h : r.Keeps r') {name : String} {e : TypeEntry}
    (he : r.typeNamed? name = some e) :
    ∃ e', r'.typeNamed? name = some e' ∧ e.Matures r' e' := by
  obtain ⟨id, hid, he⟩ := Option.bind_eq_some_iff.1 he
  obtain ⟨e', he', hmatures⟩ := h.matures he
  exact ⟨e', Option.bind_eq_some_iff.2 ⟨id, h.extend.typeNames hid, he'⟩, hmatures⟩

/-- A class stays a class with the same fields, constructor and origin. -/
theorem class? (h : r.Keeps r') {id : Fingerprint} {c : ClassEntry} (hc : r.class? id = some c) :
    ∃ c', r'.class? id = some c' ∧ c'.unplaced = c.unplaced ∧ (c.isLaidOut = true → c' = c) := by
  obtain ⟨e', he', hmatures⟩ := h.matures (class?_eq_some_iff.1 hc)
  obtain ⟨c', rfl, hc'⟩ := hmatures.exists_object
  exact ⟨c', class?_eq_some_iff.2 he', hc'⟩

end Keeps

end Registry

/-! ### Compilation -/

namespace Symbols

variable {s s' : Symbols}

/-- A request registers a class and its constructor at most, under new keys. -/
theorem Answer.keeps {template : Fingerprint} {args : List Fingerprint} {span : Span}
    {out : Except CompileError Fingerprint × Symbols} (h : s.Answer template args span out) :
    s.registry.Keeps out.2.registry := by
  rcases h with _ | _ | _ | _ | _ | ⟨-, -, -, hclass⟩ | ⟨-, -, -, hclass, hf⟩
  · exact .refl _
  · exact .refl _
  · exact .refl _
  · exact .refl _
  · exact .refl _
  · exact .of_registerType hclass
  · rcases hf with ⟨-, rfl⟩ | ⟨f, -, hf⟩
    · exact .of_registerType hclass
    · exact (Registry.Keeps.of_registerType hclass).trans (.of_registerFunction hf)

/-- No change that compilation makes takes anything away. -/
theorem Change.keeps (h : s.Change s') : s.registry.Keeps s'.registry := by
  rcases h with (⟨template, args, span⟩ | hlayOut) | hf
  · exact (answer_instantiate s template args span).keeps
  · exact .of_layOutClass hlayOut
  · exact .of_registerFunction hf

/-- Changes in a row take nothing away. -/
theorem Changes.keeps (h : s.Changes s') : s.registry.Keeps s'.registry := by
  induction h with
  | refl => exact .refl _
  | tail _ hchange ih => exact ih.trans hchange.keeps

end Symbols

/-- Whatever is registered before a script is compiled is registered afterwards, whether the compilation
succeeds or not: under the same identities and names, with the same pointer width. Of a type only the
layout may be new, and only that of a class which had none. So everything that was known has the same
layout, every class the constructor that it had, and every name its meaning. -/
theorem Script.keeps_compile (options : CompilerOptions) (registry : Registry) (script : Script) :
    let after := (script.compile options registry).registry
    registry.Keeps after ∧
      (∀ id c, registry.class? id = some c →
        ∃ c', after.class? id = some c' ∧ c'.unplaced = c.unplaced ∧ (c.isLaidOut = true → c' = c)) ∧
      (∀ id, (registry.type? id).isSome → after.layout? id = registry.layout? id) ∧
      (∀ id f, registry.constructorOf? id = some f → after.constructorOf? id = some f) ∧
      (∀ name e, registry.typeNamed? name = some e →
        ∃ e', after.typeNamed? name = some e' ∧ e.Matures after e') ∧
      ∀ name f, registry.functionNamed? name = some f → after.functionNamed? name = some f := by
  intro after
  have h : registry.Keeps after := (script.changes_compile options registry).keeps
  exact ⟨h, fun _ _ ↦ h.class?, fun _ ↦ h.layout?_eq, fun _ _ ↦ h.extend.constructorOf?,
    fun _ _ ↦ h.typeNamed?, fun _ _ ↦ h.extend.functionNamed?⟩

end StackLowering
