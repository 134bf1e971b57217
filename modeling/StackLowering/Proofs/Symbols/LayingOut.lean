import Mathlib.Data.List.Forall2
import StackLowering.Proofs.Symbols.Likeness

/-!
# Laying out classes in any order

Laying out a class reads the layouts of its fields and writes the class. What it reads, no layout of a
class changes: an object is held by a pointer, whether its class is laid out or not
(`Registry.Settles.layout?`). So classes with fields of one another's types, or of their own, can be
laid out in any order and as often as one likes. Each request has the result that it would have alone,
and what is reached in the end depends on nothing but the classes that were asked for.

This is shown by saying what the registry is after a number of requests, from the registry before the
first of them alone (`Registry.Settles`): the classes that were asked for are settled, and nothing else
has changed. One request keeps this, whatever was asked for before (`Registry.Settles.layOut`).

## Main results

* `Registry.layOut_cases`: a request fails and changes nothing, or it replaces one class.
* `Registry.Settles.fst_layOut`: a request has the result that it has at the start.
* `Registry.Settles.unique`: the registry after some requests is determined by the set of them.
* `Registry.layOutAll_eq_of_mem_iff`: all of this together, and exactly when a request succeeds.
-/

namespace StackLowering

open Std

namespace Registry

variable {r r' : Registry} {id : Fingerprint} {ids : List Fingerprint} {c : ClassEntry}

/-! ### Requests for layouts -/

/-- Requests the layout of a class: the size of its objects or an error, and the registry afterwards.
A request that fails changes nothing. -/
def layOut (r : Registry) (id : Fingerprint) : Except RegistrationError UInt32 × Registry :=
  match r.layOutClass id with
  | .error error => (.error error, r)
  | .ok (size, r') => (.ok size, r')

/-- Requests the layouts of some classes in a row, and goes on where a request fails. -/
def layOutAll (r : Registry) : List Fingerprint → List (Except RegistrationError UInt32) × Registry
  | [] => ([], r)
  | id :: ids =>
    let (result, r₁) := r.layOut id
    let (results, r₂) := r₁.layOutAll ids
    (result :: results, r₂)

/-! ### Settled classes -/

/-- The class as it is once it is laid out, or what keeps it from being laid out. -/
def laidOut (r : Registry) (c : ClassEntry) : Except RegistrationError ClassEntry :=
  if c.isLaidOut then .ok c
  else (r.fieldLayouts c.name c.fields).map fun layouts ↦ c.placed (.ofFields layouts)

/-- The entry as it is once its layout was asked for. -/
def settled (r : Registry) : TypeEntry → TypeEntry
  | .object c => .object ((r.laidOut c).toOption.getD c)
  | entry => entry

/-- What laying out makes of a class is laid out. -/
theorem isLaidOut_of_laidOut {c' : ClassEntry} (h : r.laidOut c = .ok c') : c'.isLaidOut = true := by
  unfold laidOut at h
  split at h
  next hdone => exact Except.ok.inj h ▸ hdone
  next =>
    cases hlayouts : r.fieldLayouts c.name c.fields with
    | error error => simp [hlayouts, Except.map] at h
    | ok layouts =>
      rw [hlayouts] at h
      rw [← Except.ok.inj h]
      rfl

/-- A class that is laid out stays as it is, also if it has got another field since. -/
theorem laidOut_of_isLaidOut (h : c.isLaidOut = true) : r.laidOut c = .ok c := if_pos h

/-- What a class is laid out to does not depend on whether that was done before. -/
theorem laidOut_getD_laidOut (r : Registry) (c : ClassEntry) :
    r.laidOut ((r.laidOut c).toOption.getD c) = r.laidOut c := by
  cases h : r.laidOut c with
  | error error => exact h
  | ok c' => exact laidOut_of_isLaidOut (isLaidOut_of_laidOut h)

/-- A type is settled once and for all. -/
theorem settled_settled (r : Registry) (e : TypeEntry) : r.settled (r.settled e) = r.settled e := by
  cases e with
  | object c =>
    rw [settled, settled, laidOut_getD_laidOut]
    cases r.laidOut c <;> rfl
  | _ => rfl

/-- What is no class is settled. -/
theorem map_settled_of_class?_eq_none (h : r.class? id = none) :
    (r.types[id]?).map r.settled = r.types[id]? := by
  cases he : r.types[id]? with
  | none => rfl
  | some e =>
    cases e with
    | object c => simp [class?_eq_some_iff.2 he] at h
    | _ => rfl

/-- A class is settled by laying it out, if that is possible, and stays as it is otherwise. -/
theorem map_settled_of_class? (h : r.class? id = some c) :
    (r.types[id]?).map r.settled = some (.object ((r.laidOut c).toOption.getD c)) := by
  rw [class?_eq_some_iff.1 h, Option.map_some, settled]

/-- The entry of a class may be entered once more. -/
theorem setClass_self (h : r.class? id = some c) : r.setClass id c = r := by
  have htypes : r.types.insert id (.object c) = r.types := by
    refine ExtTreeMap.ext_getElem? fun id' ↦ (types_setClass r id c id').trans ?_
    split
    next heq => exact heq ▸ (class?_eq_some_iff.1 h).symm
    next => rfl
  rw [setClass, htypes]

/-! ### One request -/

/-- What is no class cannot be laid out, and nothing changes. -/
theorem layOut_of_class?_eq_none (h : r.class? id = none) :
    r.layOut id = (.error (.typeNotFound id.text), r) := by
  rw [layOut, layOutClass, h]

/-- Laying out a class enters the class as it is once it is laid out. -/
theorem layOutClass_of_class? (h : r.class? id = some c) :
    r.layOutClass id = (r.laidOut c).map fun c' ↦ (c'.size?.getD 0, r.setClass id c') := by
  rw [layOutClass, h]
  dsimp only
  cases hextent : c.extent? with
  | some extent =>
    have hdone : c.isLaidOut = true := by rw [ClassEntry.isLaidOut, hextent]; rfl
    rw [laidOut_of_isLaidOut hdone]
    show Except.ok (extent.size, r) = Except.ok (c.size?.getD 0, r.setClass id c)
    rw [setClass_self h, ClassEntry.size?, hextent]
    rfl
  | none =>
    have hnot : ¬c.isLaidOut = true := by rw [ClassEntry.isLaidOut, hextent]; simp
    rw [laidOut, if_neg hnot]
    cases r.fieldLayouts c.name c.fields <;> rfl

/-- A class with a field that has no layout is left as it is. -/
theorem layOut_of_laidOut_eq_error (h : r.class? id = some c) {error : RegistrationError}
    (herror : r.laidOut c = .error error) : r.layOut id = (.error error, r) := by
  rw [layOut, layOutClass_of_class? h, herror]
  rfl

/-- A class whose fields have layouts is replaced by its laid-out form. -/
theorem layOut_of_laidOut_eq_ok (h : r.class? id = some c) {c' : ClassEntry}
    (hok : r.laidOut c = .ok c') :
    r.layOut id = (.ok (c'.size?.getD 0), r.setClass id c') := by
  rw [layOut, layOutClass_of_class? h, hok]
  rfl

/-- A request fails and changes nothing, or it enters the class as it is once it is laid out. -/
theorem layOut_cases (r : Registry) (id : Fingerprint) :
    (∃ error, r.layOut id = (.error error, r)) ∨ ∃ c c' size, r.class? id = some c ∧
      r.laidOut c = .ok c' ∧ c'.size? = some size ∧ r.layOut id = (.ok size, r.setClass id c') := by
  cases hc : r.class? id with
  | none => exact .inl ⟨_, layOut_of_class?_eq_none hc⟩
  | some c =>
    cases hlaidOut : r.laidOut c with
    | error error => exact .inl ⟨error, layOut_of_laidOut_eq_error hc hlaidOut⟩
    | ok c' =>
      obtain ⟨extent, hextent⟩ := Option.isSome_iff_exists.1 (isLaidOut_of_laidOut hlaidOut)
      have hsize : c'.size? = some extent.size := by rw [ClassEntry.size?, hextent]; rfl
      refine .inr ⟨c, c', extent.size, rfl, hlaidOut, hsize, ?_⟩
      rw [layOut_of_laidOut_eq_ok hc hlaidOut, hsize]
      rfl

/-- The entry that was asked for is settled, and the others are as they were. -/
theorem types_layOut (r : Registry) (id id' : Fingerprint) :
    (r.layOut id).2.types[id']? =
      if id' = id then (r.types[id']?).map r.settled else r.types[id']? := by
  by_cases heq : id' = id
  · subst heq
    rw [if_pos rfl]
    cases hc : r.class? id' with
    | none => rw [layOut_of_class?_eq_none hc, map_settled_of_class?_eq_none hc]
    | some c =>
      rw [map_settled_of_class? hc]
      cases hlaidOut : r.laidOut c with
      | error error =>
        rw [layOut_of_laidOut_eq_error hc hlaidOut]
        exact class?_eq_some_iff.1 hc
      | ok c' =>
        rw [layOut_of_laidOut_eq_ok hc hlaidOut]
        exact (types_setClass r id' c' id').trans (if_pos rfl)
  · rw [if_neg heq]
    rcases r.layOut_cases id with ⟨error, hresult⟩ | ⟨c, c', size, -, -, -, hresult⟩
    · rw [hresult]
    · rw [hresult]
      exact (types_setClass r id c' id').trans (if_neg (Ne.symm heq))

/-- A request writes nothing but types. -/
theorem others_layOut (r : Registry) (id : Fingerprint) :
    ∃ types, (r.layOut id).2 = { r with types } := by
  rcases r.layOut_cases id with ⟨error, heq⟩ | ⟨c, c', size, -, -, -, heq⟩
  · exact ⟨r.types, by rw [heq]⟩
  · exact ⟨r.types.insert id (.object c'), by rw [heq, setClass]⟩

/-! ### Requests in a row -/

/-- A registry in which the layouts of some classes were asked for: these are settled, and nothing else
has changed. -/
structure Settles (r : Registry) (ids : List Fingerprint) (r' : Registry) : Prop where
  types : ∀ id, r'.types[id]? = if id ∈ ids then (r.types[id]?).map r.settled else r.types[id]?
  others : ∃ types, r' = { r with types }

namespace Settles

/-- No request, no change. -/
theorem refl (r : Registry) : r.Settles [] r where
  types _ := (if_neg List.not_mem_nil).symm
  others := ⟨r.types, rfl⟩

/-- An entry is settled or as it was. -/
theorem cases_types (h : r.Settles ids r') (id : Fingerprint) :
    r'.types[id]? = r.types[id]? ∨ r'.types[id]? = (r.types[id]?).map r.settled := by
  rw [h.types]
  split
  · exact .inr rfl
  · exact .inl rfl

/-- No layout of a value is changed. -/
theorem layout? (h : r.Settles ids r') (id : Fingerprint) : r'.layout? id = r.layout? id := by
  obtain ⟨types, hothers⟩ := h.others
  have hwidth : r'.width = r.width := by rw [hothers]
  rw [Registry.layout?, Registry.layout?, type?, type?, hwidth]
  rcases h.cases_types id with heq | heq
  · rw [heq]
  · rw [heq]
    cases r.types[id]? with
    | none => rfl
    | some e => cases e <;> rfl

/-- A number of requests changes no layout of a field, since none of them changes the layout of a type.
-/
theorem fieldLayouts (h : r.Settles ids r') (owner : String) (fields : List Field) :
    r'.fieldLayouts owner fields = r.fieldLayouts owner fields := by
  induction fields with
  | nil => rfl
  | cons field fields ih => rw [Registry.fieldLayouts, Registry.fieldLayouts, h.layout?, ih]

/-- So a class is laid out in the same way before and after a number of requests. -/
theorem laidOut (h : r.Settles ids r') (c : ClassEntry) : r'.laidOut c = r.laidOut c := by
  rw [Registry.laidOut, Registry.laidOut, h.fieldLayouts]

/-- And what settling makes of a type is the same before and after. -/
theorem settled (h : r.Settles ids r') (e : TypeEntry) : r'.settled e = r.settled e := by
  cases e with
  | object c => rw [Registry.settled, Registry.settled, h.laidOut]
  | _ => rfl

/-- One more request settles one more class. -/
theorem layOut (h : r.Settles ids r') (id : Fingerprint) :
    r.Settles (id :: ids) (r'.layOut id).2 where
  types id' := by
    have hsettled : r'.settled = r.settled := funext h.settled
    rw [types_layOut, h.types, hsettled]
    by_cases heq : id' = id
    · have htwice : r.settled ∘ r.settled = r.settled := funext r.settled_settled
      subst heq
      rw [if_pos rfl, if_pos List.mem_cons_self]
      split
      · rw [Option.map_map, htwice]
      · rfl
    · rw [if_neg heq]
      simp only [List.mem_cons, heq, false_or]
  others := by
    obtain ⟨types, hothers⟩ := h.others
    obtain ⟨types', hlayOut⟩ := r'.others_layOut id
    exact ⟨types', by rw [hlayOut, hothers]⟩

/-- Requests make no class of what is none. -/
theorem class?_eq_none (h : r.Settles ids r') (hc : r.class? id = none) : r'.class? id = none := by
  have hsame : r'.types[id]? = r.types[id]? := by
    rcases h.cases_types id with heq | heq
    · exact heq
    · exact heq.trans (map_settled_of_class?_eq_none hc)
  rwa [class?, type?, hsame]

/-- A class is there with or without its layout, which makes no difference to what it is laid out
to. -/
theorem exists_class? (h : r.Settles ids r') (hc : r.class? id = some c) :
    ∃ c', r'.class? id = some c' ∧ r'.laidOut c' = r.laidOut c := by
  rcases h.cases_types id with heq | heq
  · exact ⟨c, class?_eq_some_iff.2 (heq.trans (class?_eq_some_iff.1 hc)), h.laidOut c⟩
  · rw [map_settled_of_class? hc] at heq
    refine ⟨(r.laidOut c).toOption.getD c, class?_eq_some_iff.2 heq, ?_⟩
    rw [h.laidOut, laidOut_getD_laidOut]

/-- A request has the result that it would have had before the others. -/
theorem fst_layOut (h : r.Settles ids r') (id : Fingerprint) :
    (r'.layOut id).1 = (r.layOut id).1 := by
  cases hc : r.class? id with
  | none => rw [layOut_of_class?_eq_none hc, layOut_of_class?_eq_none (h.class?_eq_none hc)]
  | some c =>
    obtain ⟨c', hc', hsame⟩ := h.exists_class? hc
    cases hlaidOut : r.laidOut c with
    | error error =>
      rw [layOut_of_laidOut_eq_error hc hlaidOut,
        layOut_of_laidOut_eq_error hc' (hsame.trans hlaidOut)]
    | ok c₁ =>
      rw [layOut_of_laidOut_eq_ok hc hlaidOut, layOut_of_laidOut_eq_ok hc' (hsame.trans hlaidOut)]

/-- After requests in a row, the classes that were asked for are settled, and each request had the
result that it would have had alone. -/
theorem layOutAll (h : r.Settles ids r') (ids' : List Fingerprint) :
    (r'.layOutAll ids').1 = ids'.map (fun id ↦ (r.layOut id).1) ∧
      ∃ ids'', (∀ id, id ∈ ids'' ↔ id ∈ ids' ∨ id ∈ ids) ∧ r.Settles ids'' (r'.layOutAll ids').2 := by
  induction ids' generalizing ids r' with
  | nil => exact ⟨rfl, ids, fun id ↦ by simp, h⟩
  | cons id ids' ih =>
    obtain ⟨hresults, ids'', hmem, hsettles⟩ := ih (h.layOut id)
    refine ⟨?_, ids'', fun id' ↦ ?_, hsettles⟩
    · rw [List.map_cons, ← h.fst_layOut, ← hresults]
      rfl
    · rw [hmem]
      simp only [List.mem_cons]
      tauto

/-- What is reached depends on nothing but the classes that were asked for. -/
theorem unique {ids' : List Fingerprint} {r'' : Registry} (h : r.Settles ids r')
    (h' : r.Settles ids' r'') (hmem : ∀ id, id ∈ ids ↔ id ∈ ids') : r' = r'' := by
  have htypes : r'.types = r''.types := ExtTreeMap.ext_getElem? fun id ↦ by
    rw [h.types, h'.types]
    simp only [hmem]
  obtain ⟨types, rfl⟩ := h.others
  obtain ⟨types', rfl⟩ := h'.others
  exact congrArg (fun types ↦ { r with types }) htypes

end Settles

/-! ### Layouts of fields -/

/-- The layouts of some fields are known if each of them is known. -/
theorem fieldLayouts_eq_ok_iff {owner : String} {fields : List Field} {layouts : List Layout} :
    r.fieldLayouts owner fields = .ok layouts ↔
      List.Forall₂ (fun field layout ↦ r.layout? field.type = some layout) fields layouts := by
  induction fields generalizing layouts with
  | nil =>
    rw [fieldLayouts, List.forall₂_nil_left_iff]
    exact ⟨fun h ↦ (Except.ok.inj h).symm, fun h ↦ congrArg Except.ok h.symm⟩
  | cons field fields ih =>
    rw [fieldLayouts, List.forall₂_cons_left_iff]
    cases hlayout : r.layout? field.type with
    | none => simp
    | some layout =>
      dsimp only
      constructor
      · intro h
        cases hrest : r.fieldLayouts owner fields with
        | error error => simp [hrest, Except.map] at h
        | ok rest =>
          rw [hrest] at h
          exact ⟨layout, rest, rfl, ih.1 hrest, (Except.ok.inj h).symm⟩
      · rintro ⟨layout', rest, hlayout', hrest, rfl⟩
        obtain rfl := Option.some.inj hlayout'
        rw [ih.2 hrest]
        rfl

/-- All fields have layouts exactly if each has one. -/
theorem exists_forall₂_layout?_iff {fields : List Field} :
    (∃ layouts, List.Forall₂ (fun field layout ↦ r.layout? field.type = some layout) fields layouts) ↔
      ∀ field ∈ fields, (r.layout? field.type).isSome = true := by
  constructor
  · rintro ⟨layouts, h⟩ field hfield
    obtain ⟨i, hi, rfl⟩ := List.getElem_of_mem hfield
    exact Option.isSome_of_mem (h.get hi (h.length_eq ▸ hi))
  · intro h
    induction fields with
    | nil => exact ⟨[], .nil⟩
    | cons field fields ih =>
      obtain ⟨layout, hlayout⟩ := Option.isSome_iff_exists.1 (h field List.mem_cons_self)
      obtain ⟨layouts, hlayouts⟩ := ih fun field' hfield' ↦ h field' (List.mem_cons_of_mem field hfield')
      exact ⟨layout :: layouts, .cons hlayout hlayouts⟩

/-- A class is laid out already, or it gets the packing of its fields. -/
theorem laidOut_eq_ok_iff {c' : ClassEntry} :
    r.laidOut c = .ok c' ↔ c' = c ∧ c.isLaidOut = true ∨ c.isLaidOut = false ∧ ∃ layouts,
      List.Forall₂ (fun field layout ↦ r.layout? field.type = some layout) c.fields layouts ∧
      c' = c.placed (.ofFields layouts) := by
  unfold laidOut
  cases hdone : c.isLaidOut with
  | true =>
    rw [if_pos rfl]
    simp [eq_comm]
  | false =>
    have hlayouts (layouts : List Layout) : r.fieldLayouts c.name c.fields = .ok layouts ↔
        List.Forall₂ (fun field layout ↦ r.layout? field.type = some layout) c.fields layouts :=
      fieldLayouts_eq_ok_iff
    rw [if_neg Bool.false_ne_true]
    simp only [← hlayouts, Bool.false_eq_true, and_false, false_or, true_and]
    cases r.fieldLayouts c.name c.fields with
    | error error => simp [Except.map]
    | ok layouts => simp [Except.map, eq_comm]

/-- A class can be laid out exactly if it is laid out already, or all of its fields have layouts. -/
theorem exists_laidOut_eq_ok_iff : (∃ c', r.laidOut c = .ok c') ↔
    c.isLaidOut = true ∨ ∀ field ∈ c.fields, (r.layout? field.type).isSome = true := by
  rw [← exists_forall₂_layout?_iff]
  constructor
  · rintro ⟨c', h⟩
    rcases laidOut_eq_ok_iff.1 h with ⟨-, hdone⟩ | ⟨-, layouts, hlayouts, -⟩
    · exact .inl hdone
    · exact .inr ⟨layouts, hlayouts⟩
  · rintro (hdone | ⟨layouts, hlayouts⟩)
    · exact ⟨c, laidOut_of_isLaidOut hdone⟩
    · cases hdone : c.isLaidOut with
      | true => exact ⟨c, laidOut_of_isLaidOut hdone⟩
      | false => exact ⟨_, laidOut_eq_ok_iff.2 (.inr ⟨hdone, layouts, hlayouts, rfl⟩)⟩

/-- Laying out changes the offsets and the size of a class, and nothing else. -/
theorem unplaced_of_laidOut {c' : ClassEntry} (h : r.laidOut c = .ok c') : c'.unplaced = c.unplaced := by
  rcases laidOut_eq_ok_iff.1 h with ⟨rfl, -⟩ | ⟨-, layouts, hlayouts, rfl⟩
  · rfl
  · exact ClassEntry.unplaced_placed hlayouts.length_eq.symm

/-! ### Requests in any order -/

/-- What a request for the layout of a class does. -/
structure LaysOut (r : Registry) (id : Fingerprint) : Prop where
  /-- It succeeds exactly for a class that is laid out or whose fields have layouts. -/
  ok_iff : (∃ size, (r.layOut id).1 = .ok size) ↔ ∃ c, r.class? id = some c ∧
    (c.isLaidOut = true ∨ ∀ field ∈ c.fields, (r.layout? field.type).isSome = true)
  /-- If it fails, it changes nothing. -/
  error : ∀ error, (r.layOut id).1 = .error error → (r.layOut id).2 = r
  /-- If it succeeds, the class has the size that it tells, and the packing of its fields unless it had
  been laid out before. -/
  ok : ∀ size, (r.layOut id).1 = .ok size → ∃ c c', r.class? id = some c ∧
    (r.layOut id).2.class? id = some c' ∧ c'.size? = some size ∧ c'.unplaced = c.unplaced ∧
    (c' = c ∧ c.isLaidOut = true ∨ c.isLaidOut = false ∧ ∃ layouts,
      List.Forall₂ (fun field layout ↦ r.layout? field.type = some layout) c.fields layouts ∧
      c' = c.placed (.ofFields layouts))
  types : ∀ id', id' ≠ id → (r.layOut id).2.type? id' = r.type? id'
  typeNames : (r.layOut id).2.typeNames = r.typeNames
  functions : (r.layOut id).2.functions = r.functions
  functionNames : (r.layOut id).2.functionNames = r.functionNames
  width : (r.layOut id).2.width = r.width

/-- A request succeeds exactly if it is for a class that can be laid out. -/
theorem exists_layOut_eq_ok_iff : (∃ size, (r.layOut id).1 = .ok size) ↔
    ∃ c, r.class? id = some c ∧ ∃ c', r.laidOut c = .ok c' := by
  constructor
  · rintro ⟨size, h⟩
    rcases r.layOut_cases id with ⟨error, heq⟩ | ⟨c, c', -, hc, hlaidOut, -, -⟩
    · simp [heq] at h
    · exact ⟨c, hc, c', hlaidOut⟩
  · rintro ⟨c, hc, c', hlaidOut⟩
    exact ⟨_, congrArg Prod.fst (layOut_of_laidOut_eq_ok hc hlaidOut)⟩

/-- What one request does, whatever the registry. -/
theorem laysOut (r : Registry) (id : Fingerprint) : r.LaysOut id := by
  obtain ⟨types, hothers⟩ := r.others_layOut id
  refine
    { ok_iff := by simp only [exists_layOut_eq_ok_iff, exists_laidOut_eq_ok_iff]
      error := fun error h ↦ ?_
      ok := fun size h ↦ ?_
      types := fun id' hne ↦ (r.types_layOut id id').trans (if_neg hne)
      typeNames := by rw [hothers]
      functions := by rw [hothers]
      functionNames := by rw [hothers]
      width := by rw [hothers] }
  · rcases r.layOut_cases id with ⟨error', heq⟩ | ⟨c, c', size, -, -, -, heq⟩
    · rw [heq]
    · simp [heq] at h
  · rcases r.layOut_cases id with ⟨error', heq⟩ | ⟨c, c', size', hc, hlaidOut, hsize, heq⟩
    · simp [heq] at h
    · obtain rfl := Except.ok.inj ((congrArg Prod.fst heq).symm.trans h)
      have hentry : (r.setClass id c').class? id = some c' :=
        class?_eq_some_iff.2 ((types_setClass r id c' id).trans (if_pos rfl))
      rw [heq]
      exact ⟨c, c', hc, hentry, hsize, unplaced_of_laidOut hlaidOut, laidOut_eq_ok_iff.1 hlaidOut⟩

/-- A request for a layout succeeds or changes nothing. Requests in a row have the results that each
would have alone, and in whatever order and however often the same classes are asked for, the registry
is the same in the end. -/
theorem layOutAll_eq_of_mem_iff (r : Registry) :
    (∀ id, r.LaysOut id) ∧
    (∀ ids, (r.layOutAll ids).1 = ids.map fun id ↦ (r.layOut id).1) ∧
    ∀ ids ids', (∀ id, id ∈ ids ↔ id ∈ ids') → (r.layOutAll ids).2 = (r.layOutAll ids').2 := by
  refine ⟨r.laysOut, fun ids ↦ ((Settles.refl r).layOutAll ids).1, fun ids ids' hmem ↦ ?_⟩
  obtain ⟨-, all, hall, hsettles⟩ := (Settles.refl r).layOutAll ids
  obtain ⟨-, all', hall', hsettles'⟩ := (Settles.refl r).layOutAll ids'
  exact hsettles.unique hsettles' fun id ↦ by simp only [hall, hall', hmem]

/-- Two classes with fields of one another's types are laid out around a class that cannot be. -/
example :
    let (node, edge, broken) := (Fingerprint.ofTypeName "Node", Fingerprint.ofTypeName "Edge",
      Fingerprint.ofTypeName "Broken")
    let classes : List ClassEntry :=
      [.named "Node" [⟨"out", edge, none⟩, ⟨"self", node, none⟩] none,
        .named "Edge" [⟨"to", node, none⟩] none,
        .named "Broken" [⟨"nothing", Primitive.void.fingerprint, none⟩] none]
    let r := classes.foldl (fun r c ↦ r.putType (.object c)) (withPrimitives .w32)
    (r.layOutAll [node, broken, edge, node]).1 =
      [.ok 8, .error (.unsizedField "Broken" "nothing"), .ok 4, .ok 8] := by
  decide +kernel

end Registry

end StackLowering
