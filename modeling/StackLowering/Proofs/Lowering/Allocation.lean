import Mathlib.Data.List.Induction
import Mathlib.Data.List.Nodup
import StackLowering.Proofs.Lowering.Frame

/-!
# Histories of a frame

Declared variables and temporaries get their slots from one frame, under different rules: a declaration
of a name that is known is refused, whereas a temporary that is known is used again. Whatever is
requested of a new frame in a row, its slots are those of the different names, in the order in which the
names were first requested (`Frame.Enumerated`), and nothing that was told is changed later.

A slot is told as a number of 32 bits, so that the numbers start anew after 2³² slots. Variables and
slots correspond one to one (`Frame.OneToOne`) as long as that does not happen, and no longer
(`Frame.performAll_oneToOne_iff`).

## Positions and numbers

The proof keeps the two apart. A frame is a list of names in which each has a position, and positions
are natural numbers that never run out. This is what a request keeps (`Frame.Enumerated.perform`) and
what therefore holds after every history (`Frame.enumerated_performAll`), without a bound. The number
of a slot is the position modulo 2³², which is where the bound comes in, and only there
(`Frame.Enumerated.oneToOne_iff`).
-/

namespace StackLowering

/-- A request for a slot. -/
inductive SlotRequest where
  /-- A variable is declared. -/
  | declare (name : String) (type : Fingerprint) (span : Span)
  /-- A temporary is needed. -/
  | temporary (name : String) (type : Fingerprint)
deriving DecidableEq, Repr

namespace SlotRequest

/-- The name that a slot is requested for. -/
def name : SlotRequest → String
  | declare name _ _ => name
  | temporary name _ => name

/-- The different names, in the order in which they are first requested. -/
def names (requests : List SlotRequest) : List String := (requests.map name).eraseDups

variable {requests : List SlotRequest} {q : SlotRequest}

theorem mem_names {name : String} : name ∈ names requests ↔ name ∈ requests.map (·.name) :=
  List.mem_eraseDups

/-- A name that was requested before is nothing new. -/
theorem names_append_of_mem (h : q.name ∈ names requests) :
    names (requests ++ [q]) = names requests := by
  have hfilter : [q.name].removeAll (requests.map name) = [] := by
    simpa [List.removeAll] using mem_names.1 h
  rw [names, List.map_append, List.eraseDups_append, List.map_singleton, hfilter]
  exact List.append_nil _

/-- A name that was not requested before comes last. -/
theorem names_append_of_not_mem (h : q.name ∉ names requests) :
    names (requests ++ [q]) = names requests ++ [q.name] := by
  have hfilter : [q.name].removeAll (requests.map name) = [q.name] := by
    simpa [List.removeAll] using mt mem_names.2 h
  rw [names, List.map_append, List.eraseDups_append, List.map_singleton, hfilter]
  rfl

end SlotRequest

namespace Frame

variable {f : Frame} {v : LocalVariable}

/-- The frame after a request. -/
def perform (f : Frame) : SlotRequest → Frame
  | .declare name type span => (f.declare name type span).2
  | .temporary name type => (f.temporary name type).2

/-- The frame after requests in a row. -/
def performAll (f : Frame) (requests : List SlotRequest) : Frame := requests.foldl perform f

theorem performAll_append (f : Frame) (requests later : List SlotRequest) :
    f.performAll (requests ++ later) = (f.performAll requests).performAll later :=
  List.foldl_append

/-! ### One request -/

/-- A request for a known name changes nothing. -/
theorem perform_of_some {q : SlotRequest} (h : f.find? q.name = some v) : f.perform q = f := by
  cases q with
  | declare name type span => exact congrArg Prod.snd (declare_eq_of_some h type span)
  | temporary name type => exact congrArg Prod.snd (temporary_eq_of_some h type)

/-- A request for a new name allocates a slot for it. -/
theorem perform_of_none {q : SlotRequest} (h : f.find? q.name = none) :
    ∃ type span, f.perform q = (f.allocate q.name type span).2 := by
  cases q with
  | declare name type span => exact ⟨type, span, congrArg Prod.snd (declare_eq_of_none h type span)⟩
  | temporary name type => exact ⟨type, .nowhere, congrArg Prod.snd (temporary_eq_of_none h type)⟩

theorem Extends.perform (f : Frame) (q : SlotRequest) : f.Extends (f.perform q) := by
  cases q with
  | declare name type span => exact .declare f name type span
  | temporary name type => exact .temporary f name type

/-- Requests take nothing away. -/
theorem Extends.performAll (f : Frame) (requests : List SlotRequest) :
    f.Extends (f.performAll requests) := by
  induction requests generalizing f with
  | nil => exact .refl f
  | cons q requests ih => exact (Extends.perform f q).trans (ih (f.perform q))

end Frame

/-! ### Slots in order -/

namespace Frame

variable {f : Frame} {names : List String} {name : String} {v : LocalVariable}

theorem Enumerated.perform {requests : List SlotRequest}
    (h : f.Enumerated (SlotRequest.names requests)) (q : SlotRequest) :
    (f.perform q).Enumerated (SlotRequest.names (requests ++ [q])) := by
  by_cases hq : q.name ∈ SlotRequest.names requests
  · obtain ⟨v, hv⟩ := h.exists_find? hq
    rw [perform_of_some hv, SlotRequest.names_append_of_mem hq]
    exact h
  · obtain ⟨type, span, heq⟩ := perform_of_none (h.find?_eq_none hq)
    rw [heq, SlotRequest.names_append_of_not_mem hq]
    exact h.allocate hq type span

/-- Whatever is requested of a new frame, each of the different names has one slot, and the slots are in
the order of the names. -/
theorem enumerated_performAll (requests : List SlotRequest) :
    (empty.performAll requests).Enumerated (SlotRequest.names requests) := by
  -- the last request decides whether there is one more name
  induction requests using List.reverseRecOn with
  | nil => exact enumerated_empty
  | append_singleton requests q ih =>
    rw [performAll_append]
    exact ih.perform q

/-! ### Numbers of slots -/

/-- After 2³² slots the numbers start anew, and the next variable shares its slot with the first one. -/
theorem Enumerated.oneToOne_iff (h : f.Enumerated names) :
    f.OneToOne ↔ names.length ≤ UInt32.size := by
  refine ⟨fun hone ↦ ?_, h.oneToOne⟩
  by_contra hmore
  have hfirst : 0 < names.length := by omega
  have hnext : UInt32.size < names.length := by omega
  obtain ⟨v, hv⟩ := h.exists_find? (List.getElem_mem hfirst)
  obtain ⟨v', hv'⟩ := h.exists_find? (List.getElem_mem hnext)
  obtain ⟨hslot, -⟩ := h.slot (List.getElem?_eq_getElem hfirst) hv
  obtain ⟨hslot', -⟩ := h.slot (List.getElem?_eq_getElem hnext) hv'
  have hname : names[0] = names[UInt32.size] := hone.slot_inj hv hv' (by rw [hslot, hslot']; rfl)
  have hpos : 0 = UInt32.size := h.nodup.getElem_inj_iff.1 hname
  exact absurd hpos (by decide)

/-- The next slot is no one's, as long as there is a number for it. -/
theorem Enumerated.slot_ne_size (h : f.Enumerated names) (hfits : names.length < UInt32.size)
    (hv : f.find? name = some v) : v.slot ≠ f.size := by
  obtain ⟨hname, -⟩ := h.getElem?_slot (Nat.le_of_lt hfits) hv
  have hlt : v.slot.toNat < names.length := (List.getElem?_eq_some_iff.1 hname).1
  have hsize : f.size.toNat = names.length := by
    rw [← h.size] at hfits ⊢
    exact toNat_size hfits
  intro heq
  rw [heq, hsize] at hlt
  exact Nat.lt_irrefl _ hlt

end Frame

/-! ### The next request -/

/-- How a frame that knows the given names, and no others, answers the next request. -/
structure Frame.Answers (f : Frame) (names : List String) : Prop where
  declare_fails_iff : ∀ {name : String} {type : Fingerprint} {span : Span},
    (∃ e, (f.declare name type span).1 = .error e) ↔ name ∈ names
  declare_known : ∀ {name : String} {type : Fingerprint} {span : Span}, name ∈ names →
    f.declare name type span = (.error (.variableRedeclaration name span), f)
  declare_new : ∀ {name : String} {type : Fingerprint} {span : Span}, name ∉ names →
    (f.declare name type span).1 = .ok f.size ∧
      (f.declare name type span).2.find? name = some ⟨type, f.size, span⟩
  temporary_known_iff : ∀ {name : String} {type : Fingerprint},
    (∃ v, f.find? name = some v ∧ f.temporary name type = (v.slot, f)) ↔ name ∈ names
  temporary_new : ∀ {name : String} {type : Fingerprint}, name ∉ names →
    (f.temporary name type).1 = f.size ∧
      (f.temporary name type).2.find? name = some ⟨type, f.size, .nowhere⟩

namespace Frame

variable {f : Frame} {names : List String}

theorem Enumerated.answers (h : f.Enumerated names) : f.Answers names where
  declare_fails_iff {name type span} := by
    refine ⟨fun ⟨e, he⟩ ↦ ?_, fun hname ↦ ?_⟩
    · by_contra hnew
      rw [declare_eq_of_none (h.find?_eq_none hnew)] at he
      exact absurd he nofun
    · obtain ⟨v, hv⟩ := h.exists_find? hname
      exact ⟨_, congrArg Prod.fst (declare_eq_of_some hv type span)⟩
  declare_known {name type span} hname := by
    obtain ⟨v, hv⟩ := h.exists_find? hname
    exact declare_eq_of_some hv type span
  declare_new {name type span} hnew := by
    rw [declare_eq_of_none (h.find?_eq_none hnew)]
    exact ⟨rfl, find?_allocate_self f name type span⟩
  temporary_known_iff {name type} := by
    refine ⟨fun ⟨v, hv, _⟩ ↦ h.isSome_find?_iff.1 (Option.isSome_of_mem hv), fun hname ↦ ?_⟩
    obtain ⟨v, hv⟩ := h.exists_find? hname
    exact ⟨v, hv, temporary_eq_of_some hv type⟩
  temporary_new {name type} hnew := by
    rw [temporary_eq_of_none (h.find?_eq_none hnew)]
    exact ⟨rfl, find?_allocate_self f name type .nowhere⟩

/-- Whatever is requested of a new frame, each of the different names has one slot, in the order of the
first requests, and variables and slots correspond one to one exactly if there are at most 2³² names.
The next declaration fails exactly if its name is known, the next temporary is told a slot that is there
exactly if its name is known, and in this case neither changes the frame. A new name gets the next slot,
which no variable has as long as there is a number for it. Later requests change neither the slot nor
the type nor the position of a variable. -/
theorem performAll_oneToOne_iff (requests : List SlotRequest) :
    let f := empty.performAll requests
    let names := SlotRequest.names requests
    f.Enumerated names ∧
    (f.OneToOne ↔ names.length ≤ UInt32.size) ∧
    f.size = names.length.toUInt32 ∧
    f.Answers names ∧
    (names.length < UInt32.size → ∀ name v, f.find? name = some v → v.slot ≠ f.size) ∧
    (∀ later name v, f.find? name = some v →
      (empty.performAll (requests ++ later)).find? name = some v) := by
  intro f names
  have h : f.Enumerated names := enumerated_performAll requests
  refine ⟨h, h.oneToOne_iff, congrArg Nat.toUInt32 h.size, h.answers,
    fun hfits name v hv ↦ h.slot_ne_size hfits hv, fun later name v hv ↦ ?_⟩
  rw [performAll_append]
  exact (Extends.performAll f later).find? hv

/-- A temporary is used again, also if another type is requested, and a name is declared once. -/
example : (empty.performAll [.declare "n" Primitive.int32.fingerprint .nowhere,
    .temporary countTemporary addressType, .temporary countTemporary Primitive.int32.fingerprint,
    .declare "n" addressType .nowhere]).slots = #[Primitive.int32.fingerprint, addressType] := by
  decide +kernel

end Frame

end StackLowering
