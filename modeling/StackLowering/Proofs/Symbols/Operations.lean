import StackLowering.Proofs.Symbols.Registry

/-!
# Operations of a host

A host builds a registry by operations in a row, each of which may fail (`Registry.performAll`). It
starts with nothing or with the primitive types. Whatever it registers and lays out from there, every
entry lies under its own identity, the indexes list the names of the entries and nothing else, and
there are as many names as entries. So a registration is refused exactly if some entry has its identity
or its name, and an accepted one enters what was asked for and nothing else
(`Registry.indexed_performAll`).

Only the registration of all primitive types asks nothing: it enters them over whatever is there. It
belongs to the start. Later it may take the name of a primitive type away from a class that has it,
which is then found by its identity alone.

The operations are taken as they come, also those that fail, so that a history is a list and nothing
has to be assumed of it. What is known of the tables is an invariant of one operation that succeeds
(`Registry.Indexed.step`, `Registry.Counted.step`); one that fails changes nothing. That the numbers
agree is no consequence of the other facts, which hold of infinite tables as well, and is carried along
by itself.
-/

namespace StackLowering

open Std

/-- What a host may do to a registry. -/
inductive HostOperation where
  /-- Registers all primitive types. -/
  | registerPrimitives
  /-- Registers a type. -/
  | registerType (entry : TypeEntry)
  /-- Registers a function or a constructor. -/
  | registerFunction (f : Callable)
  /-- Lays out a class. -/
  | layOutClass (id : Fingerprint)
  /-- Adds a field to a class. -/
  | pushField (id : Fingerprint) (field : Field)
deriving DecidableEq, Repr

namespace Registry

variable {r r' : Registry} {operation : HostOperation} {operations : List HostOperation}

/-- The registry after an operation. One that fails changes nothing. -/
def perform (r : Registry) : HostOperation → Registry
  | .registerPrimitives => r.putPrimitives
  | .registerType entry => (r.registerType entry).toOption.getD r
  | .registerFunction f => (r.registerFunction f).toOption.getD r
  | .layOutClass id => ((r.layOutClass id).map Prod.snd).toOption.getD r
  | .pushField id field => (r.pushField? id field).getD r

/-- The registry after some operations in a row. -/
def performAll (r : Registry) (operations : List HostOperation) : Registry :=
  operations.foldl perform r

/-! ### What an operation does -/

/-- Every operation but the registration of all primitive types fails, or it is a step. -/
theorem perform_eq_or_step (r : Registry) (h : operation ≠ .registerPrimitives) :
    r.perform operation = r ∨ r.Step (r.perform operation) := by
  cases operation with
  | registerPrimitives => exact absurd rfl h
  | registerType entry =>
    cases hr : r.registerType entry with
    | error error => exact .inl (by rw [perform, hr]; rfl)
    | ok r' => exact .inr (by rw [perform, hr]; exact .registerType hr)
  | registerFunction f =>
    cases hr : r.registerFunction f with
    | error error => exact .inl (by rw [perform, hr]; rfl)
    | ok r' => exact .inr (by rw [perform, hr]; exact .registerFunction hr)
  | layOutClass id =>
    cases hr : r.layOutClass id with
    | error error => exact .inl (by rw [perform, hr]; rfl)
    | ok out => exact .inr (by rw [perform, hr]; exact .layOutClass hr)
  | pushField id field =>
    cases hr : r.pushField? id field with
    | none => exact .inl (by rw [perform, hr]; rfl)
    | some r' => exact .inr (by rw [perform, hr]; exact .pushField hr)

/-- One operation leads to a registry that a host can build. -/
theorem Built.perform (hr : r.Built) (h : operation ≠ .registerPrimitives) :
    (r.perform operation).Built := by
  rcases r.perform_eq_or_step h with heq | hstep
  · rwa [heq]
  · exact hr.step hstep

/-- What a host makes of a registry is a registry that a host can build. -/
theorem Built.performAll (hr : r.Built) (h : .registerPrimitives ∉ operations) :
    (r.performAll operations).Built := by
  induction operations generalizing r with
  | nil => exact hr
  | cons operation operations ih =>
    obtain ⟨hne, hrest⟩ := List.ne_and_not_mem_of_not_mem_cons h
    exact ih (hr.perform (Ne.symm hne)) hrest

/-! ### Numbers of entries and of names -/

/-- A new key is one more. -/
private theorem size_insert_of_eq_none {α β : Type} [Ord α] [TransOrd α] [LawfulEqOrd α]
    {m : ExtTreeMap α β} {k : α} {b : β} (h : m[k]? = none) : (m.insert k b).size = m.size + 1 := by
  refine ExtTreeMap.size_insert.trans (if_neg ?_)
  rw [ExtTreeMap.contains_eq_isSome_getElem?, h]
  exact Bool.false_ne_true

/-- The indexes list as many names as there are entries. -/
structure Counted (r : Registry) : Prop where
  typeNames : r.typeNames.size = r.typeCount
  functionNames : r.functionNames.size = r.functionCount

namespace Counted

/-- At first there are neither names nor entries. -/
theorem empty (width : Width) : (empty width).Counted :=
  ⟨rfl, rfl⟩

/-- The primitive types have as many names as identities. This is computed, for both widths. -/
theorem withPrimitives (width : Width) : (withPrimitives width).Counted := by
  cases width <;> exact ⟨by decide +kernel, by decide +kernel⟩

/-- The replacement of a class is no new entry. -/
theorem setClass (h : r.Counted) {id : Fingerprint} {c : ClassEntry} (hc : r.class? id = some c)
    (c' : ClassEntry) : (r.setClass id c').Counted := by
  refine ⟨h.typeNames.trans ?_, h.functionNames⟩
  have hmem : id ∈ r.types := by
    rw [ExtTreeMap.mem_iff_isSome_getElem?, class?_eq_some_iff.1 hc]
    rfl
  exact (ExtTreeMap.size_insert.trans (if_pos hmem)).symm

/-- An operation enters an entry and its name, or neither. -/
theorem step (h : r.Counted) (hs : r.Step r') : r'.Counted := by
  cases hs with
  | registerType hr =>
    obtain ⟨hid, hname, rfl⟩ := registerType_eq_ok_iff.1 hr
    refine ⟨?_, h.functionNames⟩
    exact (size_insert_of_eq_none hname).trans
      ((congrArg (· + 1) h.typeNames).trans (size_insert_of_eq_none hid).symm)
  | registerFunction hr =>
    obtain ⟨hid, hname, rfl⟩ := registerFunction_eq_ok_iff.1 hr
    refine ⟨h.typeNames, ?_⟩
    exact (size_insert_of_eq_none hname).trans
      ((congrArg (· + 1) h.functionNames).trans (size_insert_of_eq_none hid).symm)
  | layOutClass hr =>
    rcases layOutClass_eq_ok hr with ⟨c, hc, rfl | ⟨-, layouts, -, rfl⟩⟩
    · exact h
    · exact h.setClass (class?_eq_some_iff.2 hc) _
  | pushField hr =>
    obtain ⟨c, hc, rfl⟩ := Option.map_eq_some_iff.1 hr
    exact h.setClass hc _

end Counted

/-- There are as many names as entries whatever the host has done. -/
theorem Built.counted (h : r.Built) : r.Counted := by
  induction h with
  | empty width => exact .empty width
  | withPrimitives width => exact .withPrimitives width
  | step _ hs ih => exact ih.step hs

/-! ### Refused registrations -/

/-- In a table whose index is in step, a key or a name is taken exactly if some entry has it. -/
private theorem taken_iff {β : Type} {entries : ExtTreeMap Fingerprint β}
    {index : ExtTreeMap String Fingerprint} {key : β → Fingerprint} {name : β → String}
    (hkey : ∀ {k : Fingerprint} {b : β}, entries[k]? = some b → key b = k)
    (hindex : ∀ {n : String} {k : Fingerprint},
      index[n]? = some k ↔ ∃ b, entries[k]? = some b ∧ name b = n)
    {k : Fingerprint} {n : String} :
    ¬ (entries[k]? = none ∧ index[n]? = none) ↔
      ∃ b, entries[key b]? = some b ∧ (key b = k ∨ name b = n) := by
  constructor
  · intro htaken
    cases hk : entries[k]? with
    | some b => exact ⟨b, by rwa [hkey hk], .inl (hkey hk)⟩
    | none =>
      cases hn : index[n]? with
      | some k' =>
        obtain ⟨b, hb, hname⟩ := hindex.1 hn
        exact ⟨b, by rwa [hkey hb], .inr hname⟩
      | none => exact absurd ⟨hk, hn⟩ htaken
  · rintro ⟨b, hb, rfl | rfl⟩ ⟨hk, hn⟩
    · simp [hk] at hb
    · have hindexed := hindex.2 ⟨b, hb, rfl⟩
      simp [hn] at hindexed

/-- A type is refused exactly if a registered type has its identity or its name. -/
theorem Indexed.registerType_eq_error_iff (h : r.Indexed) {e : TypeEntry} :
    r.registerType e = .error (.duplicateType e.name) ↔
      ∃ e', r.type? e'.id = some e' ∧ (e'.id = e.id ∨ e'.name = e.name) := by
  refine Iff.trans ?_ (taken_iff h.type_id h.typeNames_iff)
  simp only [Registry.registerType, ExtTreeMap.contains_eq_isSome_getElem?]
  cases r.types[e.id]? <;> cases r.typeNames[e.name]? <;> simp

/-- A function is refused exactly if a registered function has its identity or its name. -/
theorem Indexed.registerFunction_eq_error_iff (h : r.Indexed) {f : Callable} :
    r.registerFunction f = .error (.duplicateFunction f.name) ↔
      ∃ f', r.function? f'.id = some f' ∧ (f'.id = f.id ∨ f'.name = f.name) := by
  refine Iff.trans ?_ (taken_iff h.function_id h.functionNames_iff)
  simp only [Registry.registerFunction, ExtTreeMap.contains_eq_isSome_getElem?]
  cases r.functions[f.id]? <;> cases r.functionNames[f.name]? <;> simp

/-! ### Whole sequences -/

/-- The registry that a host starts with. -/
inductive Start : Registry → Prop
  | empty (width : Width) : Start (.empty width)
  | withPrimitives (width : Width) : Start (.withPrimitives width)

/-- What a host starts with, it can build. -/
theorem Start.built (h : r.Start) : r.Built := by
  cases h with
  | empty width => exact .empty width
  | withPrimitives width => exact .withPrimitives width

/-- Whatever a host registers and lays out, each entry lies under its own identity, and the index of
names is in step with the entries in both tables; so looking up a name leads to the entry with that
name and to no other, and there are as many entries as names. A registration is refused exactly if an
entry has its identity or its name, and a refused registration changes nothing. An accepted one enters
the entry under its identity and the identity under its name, and nothing else. -/
theorem indexed_performAll {start : Registry} (hstart : start.Start)
    {operations : List HostOperation} (h : .registerPrimitives ∉ operations) :
    let r := start.performAll operations
    r.Indexed ∧
      (∀ name e, r.typeNamed? name = some e ↔ r.type? e.id = some e ∧ e.name = name) ∧
      (∀ name f, r.functionNamed? name = some f ↔ r.function? f.id = some f ∧ f.name = name) ∧
      r.typeNames.size = r.typeCount ∧ r.functionNames.size = r.functionCount ∧
      (∀ e, (∃ error, r.registerType e = .error error) ↔
        ∃ e', r.type? e'.id = some e' ∧ (e'.id = e.id ∨ e'.name = e.name)) ∧
      (∀ e error, r.registerType e = .error error →
        error = .duplicateType e.name ∧ r.perform (.registerType e) = r) ∧
      (∀ e r', r.registerType e = .ok r' → r.perform (.registerType e) = r' ∧
        r' = { r with
          typeNames := r.typeNames.insert e.name e.id
          types := r.types.insert e.id e }) ∧
      (∀ f, (∃ error, r.registerFunction f = .error error) ↔
        ∃ f', r.function? f'.id = some f' ∧ (f'.id = f.id ∨ f'.name = f.name)) ∧
      (∀ f error, r.registerFunction f = .error error →
        error = .duplicateFunction f.name ∧ r.perform (.registerFunction f) = r) ∧
      (∀ f r', r.registerFunction f = .ok r' → r.perform (.registerFunction f) = r' ∧
        r' = { r with
          functionNames := r.functionNames.insert f.name f.id
          functions := r.functions.insert f.id f }) := by
  intro r
  have hbuilt : r.Built := hstart.built.performAll h
  have hindexed : r.Indexed := hbuilt.indexed
  have hcounted : r.Counted := hbuilt.counted
  refine ⟨hindexed, fun _ _ ↦ hindexed.typeNamed?_eq_some_iff,
    fun _ _ ↦ hindexed.functionNamed?_eq_some_iff, hcounted.typeNames, hcounted.functionNames,
    fun e ↦ ?_, fun e error herror ↦ ⟨registerType_eq_error herror, ?_⟩,
    fun e r' hr ↦ ⟨?_, (registerType_eq_ok_iff.1 hr).2.2.symm⟩,
    fun f ↦ ?_, fun f error herror ↦ ⟨registerFunction_eq_error herror, ?_⟩,
    fun f r' hr ↦ ⟨?_, (registerFunction_eq_ok_iff.1 hr).2.2.symm⟩⟩
  · rw [← hindexed.registerType_eq_error_iff]
    exact ⟨fun ⟨_, herror⟩ ↦ registerType_eq_error herror ▸ herror, fun herror ↦ ⟨_, herror⟩⟩
  · rw [perform, herror]
    rfl
  · rw [perform, hr]
    rfl
  · rw [← hindexed.registerFunction_eq_error_iff]
    exact ⟨fun ⟨_, herror⟩ ↦ registerFunction_eq_error herror ▸ herror, fun herror ↦ ⟨_, herror⟩⟩
  · rw [perform, herror]
    rfl
  · rw [perform, hr]
    rfl

/-- A class with one field. -/
def pairClass : ClassEntry := .named "Pair" [⟨"first", Primitive.int64.fingerprint, none⟩] none

/-- Another class with the same name. -/
def namesakeClass : ClassEntry := { pairClass with id := .ofTypeName "Other" }

/-- A function of a number, and another one that only has its name. -/
def halfFunction (type : Primitive) : Callable :=
  .function "half" [⟨"value", type.fingerprint, none⟩] type.fingerprint

/-- A class is registered and laid out, and two others are refused: one has its name, the other one
its identity. Of two functions of one name, the second one is refused. -/
def clashingOperations : List HostOperation :=
  [.registerType (.object pairClass), .layOutClass pairClass.id,
    .registerType (.object namesakeClass), .registerType (.object { pairClass with name := "Other" }),
    .registerFunction (halfFunction .int64), .registerFunction (halfFunction .double)]

/-- The class once it is laid out. -/
def placedPair : TypeEntry := .object (pairClass.placed (.ofFields [.natural 8 .i64]))

/-- The class stands in the way of its namesake also after it is laid out, and the function in the way
of the other one. -/
theorem indexed_performAll_clashing :
    .registerPrimitives ∉ clashingOperations ∧
      ((withPrimitives .w64).performAll clashingOperations).Indexed ∧
      ((withPrimitives .w64).performAll clashingOperations).typeNames.size = 14 ∧
      ((withPrimitives .w64).performAll clashingOperations).functionNames.size = 1 ∧
      ((withPrimitives .w64).performAll clashingOperations).registerType (.object namesakeClass) =
        .error (.duplicateType "Pair") ∧
      ((withPrimitives .w64).performAll clashingOperations).registerFunction (halfFunction .double) =
        .error (.duplicateFunction "half") := by
  have hnot : .registerPrimitives ∉ clashingOperations := by decide
  have hplaced : ((withPrimitives .w64).performAll clashingOperations).type? placedPair.id =
      some placedPair := by
    decide +kernel
  have hhalf : ((withPrimitives .w64).performAll clashingOperations).function?
      (halfFunction .int64).id = some (halfFunction .int64) := by
    decide +kernel
  have hname : placedPair.name = (TypeEntry.object namesakeClass).name := by decide +kernel
  have htypeCount : ((withPrimitives .w64).performAll clashingOperations).typeCount = 14 := by
    decide +kernel
  have hfunctionCount : ((withPrimitives .w64).performAll clashingOperations).functionCount = 1 := by
    decide +kernel
  obtain ⟨hindexed, -, -, htypes, hfunctions, hrefusedType, htypeError, -, hrefused, herror, -⟩ :=
    indexed_performAll (.withPrimitives .w64) hnot
  obtain ⟨_, htype⟩ := (hrefusedType (.object namesakeClass)).2 ⟨placedPair, hplaced, .inr hname⟩
  obtain ⟨rfl, -⟩ := htypeError _ _ htype
  obtain ⟨_, hfunction⟩ := (hrefused (halfFunction .double)).2 ⟨halfFunction .int64, hhalf, .inr rfl⟩
  obtain ⟨rfl, -⟩ := herror _ _ hfunction
  exact ⟨hnot, hindexed, htypes.trans htypeCount, hfunctions.trans hfunctionCount, htype, hfunction⟩

end Registry

end StackLowering
