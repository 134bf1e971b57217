import Mathlib.Data.List.Nodup
import StackLowering.Lowering.Construction
import StackLowering.Proofs.Symbols.Instances

/-!
# Slots and frames

A frame maps names to variables and lists the types of the slots, and nothing in its definition ties the
two together. What does is how it is built: a slot is only added together with a name that is new. So
declaring takes nothing away from a frame (`Frame.Extends`), and the names of its variables can be put in
a row in which the slots follow each other (`Frame.Enumerated`).

This holds of every frame, however large. A variable however knows its slot as a number of 32 bits, so
that the row only tells variables apart by their slots while there are numbers left. Then variables and
slots correspond one to one (`Frame.OneToOne`), which is derived from the row at the very end, where the
size of the frame is known (`Frame.Sequential.oneToOne`). On the way no bound has to be carried along.

## Main definitions

* `Frame.Enumerated`: the slots are those of the given names, in this order.
* `Frame.Sequential`: there is such a row of names. Every step of lowering keeps this.
* `Frame.OneToOne`: no two variables share a slot, and each slot is that of a variable.
* `Frame.Paired`: both temporaries of buffers are declared, or none is. They are declared together, and
  so have different slots even where the numbers are used up, provided that nothing else is declared
  under their names.
-/

namespace StackLowering

open Std

/-- A name that the lowering itself declares. -/
def IsTemporary (name : String) : Prop := name = countTemporary ∨ name = addressTemporary

/-! ### Growth -/

/-- The variables of one frame are variables of the other, and the slots of one come first among those
of the other. -/
structure Frame.Extends (f f' : Frame) : Prop where
  find? : ∀ {name : String} {v : LocalVariable}, f.find? name = some v → f'.find? name = some v
  slots : f.slots.toList <+: f'.slots.toList

namespace Frame

variable {f f' f'' : Frame}

theorem Extends.refl (f : Frame) : f.Extends f :=
  ⟨fun h ↦ h, List.prefix_rfl⟩

theorem Extends.trans (h : f.Extends f') (h' : f'.Extends f'') : f.Extends f'' :=
  ⟨fun hv ↦ h'.find? (h.find? hv), h.slots.trans h'.slots⟩

theorem Extends.size_le (h : f.Extends f') : f.slots.size ≤ f'.slots.size := by
  have hle := h.slots.length_le
  simpa using hle

theorem find?_allocate (f : Frame) (name name' : String) (type : Fingerprint) (span : Span) :
    (f.allocate name type span).2.find? name' =
      if name = name' then some ⟨type, f.size, span⟩ else f.find? name' := by
  simp [allocate, find?, ExtTreeMap.getElem?_insert]

/-- A new variable is found under its name. -/
theorem find?_allocate_self (f : Frame) (name : String) (type : Fingerprint) (span : Span) :
    (f.allocate name type span).2.find? name = some ⟨type, f.size, span⟩ := by
  rw [find?_allocate, if_pos rfl]

/-- A name that is taken cannot be declared. -/
theorem declare_eq_of_some {name : String} {v : LocalVariable} (h : f.find? name = some v)
    (type : Fingerprint) (span : Span) :
    f.declare name type span = (.error (.variableRedeclaration name span), f) := by
  rw [declare, h]

/-- A name that is new gets the next slot. -/
theorem declare_eq_of_none {name : String} (h : f.find? name = none) (type : Fingerprint)
    (span : Span) : f.declare name type span = (.ok f.size, (f.allocate name type span).2) := by
  rw [declare, h]
  rfl

/-- A temporary that is declared keeps its slot. -/
theorem temporary_eq_of_some {name : String} {v : LocalVariable} (h : f.find? name = some v)
    (type : Fingerprint) : f.temporary name type = (v.slot, f) := by
  rw [temporary, h]

/-- A temporary that is new is declared. -/
theorem temporary_eq_of_none {name : String} (h : f.find? name = none) (type : Fingerprint) :
    f.temporary name type = f.allocate name type .nowhere := by
  rw [temporary, h]

theorem size_slots_allocate (f : Frame) (name : String) (type : Fingerprint) (span : Span) :
    (f.allocate name type span).2.slots.size = f.slots.size + 1 :=
  Array.size_push ..

/-- As long as slots have numbers, the next one is numbered by how many there are. -/
theorem toNat_size (h : f.slots.size < UInt32.size) : f.size.toNat = f.slots.size :=
  UInt32.toNat_ofNat_of_lt' h

/-- A new name gets a new slot. -/
theorem Extends.allocate {name : String} (hnew : f.find? name = none) (type : Fingerprint)
    (span : Span) : f.Extends (f.allocate name type span).2 :=
  ⟨getElem?_insert_of_eq_none hnew, by simp [Frame.allocate]⟩

theorem Extends.declare (f : Frame) (name : String) (type : Fingerprint) (span : Span) :
    f.Extends (f.declare name type span).2 := by
  unfold Frame.declare
  cases hnew : f.find? name with
  | some v => exact .refl f
  | none => exact .allocate hnew type span

theorem Extends.temporary (f : Frame) (name : String) (type : Fingerprint) :
    f.Extends (f.temporary name type).2 := by
  unfold Frame.temporary
  cases hnew : f.find? name with
  | some v => exact .refl f
  | none => exact .allocate hnew type .nowhere

end Frame

/-! ### Slots in order -/

/-- The variables of the frame have the given names, and their slots follow each other in this order.
What a variable knows of its slot are the low 32 bits of the position. -/
structure Frame.Enumerated (f : Frame) (names : List String) : Prop where
  nodup : names.Nodup
  isSome_find?_iff : ∀ {name : String}, (f.find? name).isSome ↔ name ∈ names
  size : f.slots.size = names.length
  slot : ∀ {n : ℕ} {name : String} {v : LocalVariable}, names[n]? = some name →
    f.find? name = some v → v.slot = n.toUInt32 ∧ f.slots[n]? = some v.type

namespace Frame

variable {f : Frame} {names : List String} {name : String}

/-- No names, no slots. -/
theorem enumerated_empty : empty.Enumerated [] :=
  ⟨List.nodup_nil, by simp [find?, empty], rfl, by simp⟩

theorem Enumerated.find?_eq_none (h : f.Enumerated names) (hnew : name ∉ names) :
    f.find? name = none := by
  rw [← Option.not_isSome_iff_eq_none, h.isSome_find?_iff]
  exact hnew

theorem Enumerated.exists_find? (h : f.Enumerated names) (hname : name ∈ names) :
    ∃ v, f.find? name = some v :=
  Option.isSome_iff_exists.1 (h.isSome_find?_iff.2 hname)

/-- A new variable comes last. -/
theorem Enumerated.allocate (h : f.Enumerated names) (hnew : name ∉ names) (type : Fingerprint)
    (span : Span) : (f.allocate name type span).2.Enumerated (names ++ [name]) where
  nodup := by
    rw [← List.concat_eq_append]
    exact h.nodup.concat hnew
  isSome_find?_iff {name'} := by
    rw [find?_allocate, List.mem_append, List.mem_singleton]
    by_cases hname : name = name'
    · simp [hname]
    · simp [hname, Ne.symm hname, h.isSome_find?_iff]
  size := by rw [size_slots_allocate, h.size, List.length_append, List.length_singleton]
  slot {n name' v} hn hv := by
    have hslots : (f.allocate name type span).2.slots = f.slots.push type := rfl
    rw [find?_allocate] at hv
    rw [hslots, Array.getElem?_push, h.size]
    rcases Nat.lt_or_ge n names.length with hlt | hge
    · -- an old variable keeps its position
      rw [List.getElem?_append_left hlt] at hn
      have hne : name ≠ name' := fun heq ↦ hnew (heq ▸ List.mem_of_getElem? hn)
      rw [if_neg hne] at hv
      rw [if_neg (Nat.ne_of_lt hlt)]
      exact h.slot hn hv
    · rw [List.getElem?_append_right hge, List.getElem?_singleton] at hn
      split at hn
      next hpos =>
        have hlast : n = names.length := Nat.le_antisymm (Nat.sub_eq_zero_iff_le.1 hpos) hge
        rw [if_pos (Option.some.inj hn)] at hv
        obtain rfl := Option.some.inj hv
        rw [if_pos hlast, hlast, ← h.size]
        exact ⟨rfl, rfl⟩
      next => exact absurd hn nofun

end Frame

/-! ### Numbers of slots -/

/-- Variables and slots correspond one to one: each slot is that of exactly one variable, different
variables have different slots, and the type of the slot is that of the variable. -/
structure Frame.OneToOne (f : Frame) : Prop where
  existsUnique : ∀ n < f.slots.size, ∃! name, ∃ v, f.find? name = some v ∧ v.slot.toNat = n
  slot_inj : ∀ {name name' : String} {v v' : LocalVariable}, f.find? name = some v →
    f.find? name' = some v' → v.slot = v'.slot → name = name'
  type : ∀ {name : String} {v : LocalVariable}, f.find? name = some v →
    f.slots[v.slot.toNat]? = some v.type

namespace Frame

variable {f : Frame} {names : List String} {name : String} {v : LocalVariable}

/-- As long as the numbers do not start anew, the number of a slot is its position. -/
theorem Enumerated.toNat_slot (h : f.Enumerated names) (hfits : names.length ≤ UInt32.size) {n : ℕ}
    (hn : names[n]? = some name) (hv : f.find? name = some v) : v.slot.toNat = n := by
  have hlt : n < names.length := (List.getElem?_eq_some_iff.1 hn).1
  rw [(h.slot hn hv).1]
  exact UInt32.toNat_ofNat_of_lt' (Nat.lt_of_lt_of_le hlt hfits)

/-- The number of a slot leads back to the variable and to its type. -/
theorem Enumerated.getElem?_slot (h : f.Enumerated names) (hfits : names.length ≤ UInt32.size)
    (hv : f.find? name = some v) :
    names[v.slot.toNat]? = some name ∧ f.slots[v.slot.toNat]? = some v.type := by
  have hname : name ∈ names := h.isSome_find?_iff.1 (Option.isSome_of_mem hv)
  obtain ⟨n, hn⟩ := List.mem_iff_getElem?.1 hname
  rw [h.toNat_slot hfits hn hv]
  exact ⟨hn, (h.slot hn hv).2⟩

/-- As long as the numbers do not start anew, variables and slots correspond one to one. -/
theorem Enumerated.oneToOne (h : f.Enumerated names) (hfits : names.length ≤ UInt32.size) :
    f.OneToOne where
  existsUnique n hn := by
    rw [h.size] at hn
    obtain ⟨v, hv⟩ := h.exists_find? (List.getElem_mem hn)
    refine ⟨names[n], ⟨v, hv, h.toNat_slot hfits (List.getElem?_eq_getElem hn) hv⟩, ?_⟩
    rintro name' ⟨v', hv', rfl⟩
    obtain ⟨_, hname⟩ := List.getElem?_eq_some_iff.1 (h.getElem?_slot hfits hv').1
    exact hname.symm
  slot_inj {name name' v v'} hv hv' heq := by
    obtain ⟨hname, -⟩ := h.getElem?_slot hfits hv
    obtain ⟨hname', -⟩ := h.getElem?_slot hfits hv'
    rw [heq, hname'] at hname
    exact (Option.some.inj hname).symm
  type hv := (h.getElem?_slot hfits hv).2

/-- The number of a slot is below the number of slots. -/
theorem OneToOne.slot_lt (h : f.OneToOne) (hv : f.find? name = some v) :
    v.slot.toNat < f.slots.size :=
  (Array.getElem?_eq_some_iff.1 (h.type hv)).1

end Frame

/-! ### Frames of a function -/

/-- The variables of the frame have slots that follow each other. Every frame of a function is like
this, however many slots it has. -/
def Frame.Sequential (f : Frame) : Prop := ∃ names, f.Enumerated names

namespace Frame

variable {f : Frame}

theorem sequential_empty : empty.Sequential := ⟨[], enumerated_empty⟩

theorem Sequential.allocate (hf : f.Sequential) {name : String} (hnew : f.find? name = none)
    (type : Fingerprint) (span : Span) : (f.allocate name type span).2.Sequential := by
  obtain ⟨names, h⟩ := hf
  refine ⟨names ++ [name], h.allocate (fun hname ↦ ?_) type span⟩
  obtain ⟨v, hv⟩ := h.exists_find? hname
  exact nomatch hnew.symm.trans hv

theorem Sequential.declare (hf : f.Sequential) (name : String) (type : Fingerprint) (span : Span) :
    (f.declare name type span).2.Sequential := by
  unfold Frame.declare
  cases hfind : f.find? name with
  | some v => exact hf
  | none => exact hf.allocate hfind type span

theorem Sequential.temporary (hf : f.Sequential) (name : String) (type : Fingerprint) :
    (f.temporary name type).2.Sequential := by
  unfold Frame.temporary
  cases hfind : f.find? name with
  | some v => exact hf
  | none => exact hf.allocate hfind type .nowhere

/-- As long as the slots have numbers, they correspond to the variables one to one. -/
theorem Sequential.oneToOne (hf : f.Sequential) (hsize : f.slots.size ≤ UInt32.size) : f.OneToOne := by
  obtain ⟨names, h⟩ := hf
  exact h.oneToOne (h.size ▸ hsize)

/-- A temporary is found under its name. -/
theorem find?_temporary (f : Frame) (name : String) (type : Fingerprint) :
    ∃ v, (f.temporary name type).2.find? name = some v ∧ v.slot = (f.temporary name type).1 := by
  unfold Frame.temporary
  cases hfind : f.find? name with
  | some v => exact ⟨v, hfind, rfl⟩
  | none =>
    exact ⟨⟨type, f.size, .nowhere⟩, find?_allocate_self f name type .nowhere, rfl⟩

/-- A temporary takes no other name. -/
theorem eq_or_find?_of_temporary {name name' : String} {type : Fingerprint} {v : LocalVariable}
    (h : (f.temporary name type).2.find? name' = some v) : name' = name ∨ f.find? name' = some v := by
  unfold Frame.temporary at h
  cases hfind : f.find? name with
  | some _ => exact .inr (by simpa [hfind] using h)
  | none =>
    simp only [hfind, find?_allocate] at h
    split at h
    next heq => exact .inl heq.symm
    next => exact .inr h

/-- A declared name is found, and no other name is new. -/
theorem isSome_find?_declare (f : Frame) (name name' : String) (type : Fingerprint) (span : Span) :
    ((f.declare name type span).2.find? name').isSome ↔ name' = name ∨ (f.find? name').isSome := by
  unfold Frame.declare
  cases hfind : f.find? name with
  | some v =>
    refine ⟨.inr, ?_⟩
    rintro (rfl | h)
    · exact Option.isSome_of_mem hfind
    · exact h
  | none =>
    rw [find?_allocate]
    by_cases hname : name = name'
    · simp [hname]
    · simp [hname, Ne.symm hname]

/-- Two temporaries with different names have different slots. -/
theorem Sequential.temporary_slot_ne (hf : f.Sequential) {name name' : String} (hne : name ≠ name')
    (type type' : Fingerprint)
    (hsize : ((f.temporary name type).2.temporary name' type').2.slots.size ≤ UInt32.size) :
    (f.temporary name type).1 ≠ ((f.temporary name type).2.temporary name' type').1 := by
  intro heq
  have hone : ((f.temporary name type).2.temporary name' type').2.OneToOne :=
    ((hf.temporary name type).temporary name' type').oneToOne hsize
  have hext := Extends.temporary (f.temporary name type).2 name' type'
  obtain ⟨v, hv, hslot⟩ := f.find?_temporary name type
  obtain ⟨v', hv', hslot'⟩ := (f.temporary name type).2.find?_temporary name' type'
  exact hne (hone.slot_inj (hext.find? hv) hv' (by rw [hslot, hslot', heq]))

end Frame

/-! ### The temporaries of buffers -/

/-- Either both temporaries are declared, with different slots, or none is. -/
structure Frame.Paired (f : Frame) : Prop where
  none_iff : f.find? countTemporary = none ↔ f.find? addressTemporary = none
  slot_ne : ∀ {v v' : LocalVariable}, f.find? countTemporary = some v →
    f.find? addressTemporary = some v' → v.slot ≠ v'.slot

namespace Frame

variable {f : Frame}

theorem paired_empty : empty.Paired :=
  ⟨by simp [find?, empty], by simp [find?, empty]⟩

theorem Paired.allocate (hf : f.Paired) {name : String} (hname : ¬ IsTemporary name)
    (type : Fingerprint) (span : Span) : (f.allocate name type span).2.Paired := by
  obtain ⟨hcount, haddress⟩ := not_or.1 hname
  refine ⟨?_, fun {v v'} hv hv' ↦ ?_⟩
  · rw [find?_allocate, find?_allocate, if_neg hcount, if_neg haddress]
    exact hf.none_iff
  · rw [find?_allocate, if_neg hcount] at hv
    rw [find?_allocate, if_neg haddress] at hv'
    exact hf.slot_ne hv hv'

theorem Paired.declare (hf : f.Paired) {name : String} (hname : ¬ IsTemporary name)
    (type : Fingerprint) (span : Span) : (f.declare name type span).2.Paired := by
  unfold Frame.declare
  cases f.find? name with
  | some v => exact hf
  | none => exact hf.allocate hname type span

/-- The slot of the count and the slot of the address differ, whether they are new or not. -/
theorem Paired.temporary_slot_ne (hf : f.Paired) (type type' : Fingerprint) :
    (f.temporary countTemporary type).1 ≠
      ((f.temporary countTemporary type).2.temporary addressTemporary type').1 := by
  cases hcount : f.find? countTemporary with
  | some v =>
    obtain ⟨v', hv'⟩ := Option.ne_none_iff_exists'.1 fun haddress ↦ by
      simp [hf.none_iff.2 haddress] at hcount
    rw [temporary_eq_of_some hcount, temporary_eq_of_some hv']
    exact hf.slot_ne hcount hv'
  | none =>
    have hne : countTemporary ≠ addressTemporary := by decide
    have haddress : (f.allocate countTemporary type .nowhere).2.find? addressTemporary = none := by
      rw [find?_allocate, if_neg hne]
      exact hf.none_iff.1 hcount
    rw [temporary_eq_of_none hcount, temporary_eq_of_none haddress]
    -- two slots in a row have different numbers, also where the numbers start anew
    intro heq
    have hnat : f.slots.size % 2 ^ 32 = (f.slots.push type).size % 2 ^ 32 :=
      congrArg UInt32.toNat heq
    rw [Array.size_push] at hnat
    omega

theorem Paired.temporaries (hf : f.Paired) (type type' : Fingerprint) :
    ((f.temporary countTemporary type).2.temporary addressTemporary type').2.Paired := by
  obtain ⟨v, hv, hslot⟩ := f.find?_temporary countTemporary type
  obtain ⟨v', hv', hslot'⟩ :=
    (f.temporary countTemporary type).2.find?_temporary addressTemporary type'
  have hext := Extends.temporary (f.temporary countTemporary type).2 addressTemporary type'
  refine ⟨by simp [hext.find? hv, hv'], fun {u u'} hu hu' ↦ ?_⟩
  obtain rfl := Option.some.inj (hu.symm.trans (hext.find? hv))
  obtain rfl := Option.some.inj (hu'.symm.trans hv')
  rw [hslot, hslot']
  exact hf.temporary_slot_ne type type'

end Frame

end StackLowering
