import Mathlib.Data.Nat.Bitwise
import Mathlib.Order.Bounds.Basic
import StackLowering.Symbols.Registry

/-!
# Packed fields

The fields of an object are packed in 32-bit words: a place is rounded up by clearing its low bits, and
every sum may wrap. Here the same packing is described in exact numbers. Each field is to lie at the
least multiple of its alignment that the fields before it leave free (`Packing.Lays`), and the object
is to end at the least multiple of the largest alignment (`Packing.Packs`).

The two agree if all alignments are powers of two and the exact size of the object leaves room for one
more alignment below 2 ^ 32 (`Packing.packs_ofFields`). No sum wraps then, which is said by a packing
that stops at the first sum that would (`Packing.ofFields?`).

Clearing low bits rounds to multiples of an alignment only if that is a power of two (`toNat_alignUp`).
All layouts that a registry tells are of this kind (`Registry.isPowerOfTwo_align`), so that the
condition is about layouts that are put together by hand. The room for one more alignment is needed
because rounding up adds an alignment before it clears the bits: close to the end of the range the sum
would wrap although its result fits.
-/

namespace StackLowering

/-! ### Rounding up -/

/-- The least multiple of `align` at or after `n`. -/
def roundUp (n align : ℕ) : ℕ := (n + (align - 1)) / align * align

/-- Rounding up does not go back. -/
theorem le_roundUp (n : ℕ) {align : ℕ} (h : 0 < align) : n ≤ roundUp n align := by
  have hdiv := Nat.lt_div_mul_add (a := n + (align - 1)) h
  unfold roundUp
  omega

/-- Rounding up leads to the least multiple that is not before the start. -/
theorem isLeast_roundUp (n : ℕ) {align : ℕ} (h : 0 < align) :
    IsLeast {m | n ≤ m ∧ align ∣ m} (roundUp n align) := by
  refine ⟨⟨le_roundUp n h, Nat.dvd_mul_left _ _⟩, ?_⟩
  rintro _ ⟨hle, m, rfl⟩
  -- a multiple that is not too small has no smaller factor than the quotient
  have hquotient : (n + (align - 1)) / align ≤ m := by
    rw [← Nat.lt_add_one_iff, Nat.div_lt_iff_lt_mul h, Nat.add_mul, Nat.mul_comm m]
    omega
  exact Nat.mul_comm align m ▸ Nat.mul_le_mul_right align hquotient

/-- Clearing the low bits of a word rounds it down. -/
theorem and_not_mask {n k : ℕ} (hn : n < UInt32.size) (hk : k < 32) :
    n &&& (UInt32.size - 1 - (2 ^ k - 1)) = n / 2 ^ k * 2 ^ k := by
  have hmask : 2 ^ k - 1 < 2 ^ 32 :=
    Nat.lt_of_le_of_lt (Nat.sub_le _ _) (Nat.pow_lt_pow_right (by omega) hk)
  have hword : UInt32.size - 1 - (2 ^ k - 1) = 2 ^ 32 - ((2 ^ k - 1) + 1) := by
    have : UInt32.size = 2 ^ 32 := rfl
    omega
  rw [hword, ← Nat.shiftRight_eq_div_pow, ← Nat.shiftLeft_eq]
  refine Nat.eq_of_testBit_eq fun i ↦ ?_
  rw [Nat.testBit_and, Nat.testBit_two_pow_sub_succ hmask, Nat.testBit_two_pow_sub_one,
    Nat.testBit_shiftLeft, Nat.testBit_shiftRight]
  by_cases hlow : i < k
  · simp [hlow, Nat.not_le.2 hlow]
  · by_cases hword : i < 32
    · simp [hlow, hword, Nat.not_lt.1 hlow, Nat.add_sub_cancel' (Nat.not_lt.1 hlow)]
    · have hhigh : n.testBit i = false :=
        Nat.testBit_lt_two_pow (hn.trans_le (Nat.pow_le_pow_right Nat.two_pos (Nat.not_lt.1 hword)))
      simp [hhigh, Nat.add_sub_cancel' (Nat.not_lt.1 hlow)]

/-! ### Words -/

/-- A sum of words, unless it wraps. -/
def checkedAdd (a b : UInt32) : Option UInt32 :=
  if a.toNat + b.toNat < UInt32.size then some (a + b) else none

/-- A word rounded up, unless a sum wraps. -/
def alignUp? (offset align : UInt32) : Option UInt32 :=
  if align ≤ 1 then some offset
  else (checkedAdd offset align).map fun sum ↦ (sum - 1) &&& ~~~(align - 1)

variable {a b offset align : UInt32}

/-- A sum that fits into a word does not stop the packing. -/
theorem checkedAdd_of_lt (h : a.toNat + b.toNat < UInt32.size) : checkedAdd a b = some (a + b) :=
  if_pos h

/-- A sum that fits into a word is exact. -/
theorem toNat_add_of_lt (h : a.toNat + b.toNat < UInt32.size) :
    (a + b).toNat = a.toNat + b.toNat := by
  rw [UInt32.toNat_add, Nat.mod_eq_of_lt h]

/-- Rounding up does not stop the packing if there is room for one more alignment. -/
theorem alignUp?_of_lt (h : offset.toNat + align.toNat < UInt32.size) :
    alignUp? offset align = some (alignUp offset align) := by
  unfold alignUp? alignUp
  split
  · rfl
  · rw [checkedAdd_of_lt h]
    rfl

/-- For a power of two, clearing low bits is rounding up. -/
theorem toNat_alignUp (hpow : align.toNat.isPowerOfTwo)
    (h : offset.toNat + align.toNat < UInt32.size) :
    (alignUp offset align).toNat = roundUp offset.toNat align.toNat := by
  obtain ⟨k, hk⟩ := hpow
  unfold alignUp roundUp
  split
  next hle =>
    have hone : align.toNat = 1 := by
      have hpos := Nat.two_pow_pos k
      have : align.toNat ≤ 1 := hle
      omega
    simp [hone]
  next hgt =>
    have hone : (1 : UInt32).toNat = 1 := rfl
    have hlt : 1 < align.toNat := Nat.not_le.1 hgt
    have hk32 : k < 32 := by
      rw [← Nat.pow_lt_pow_iff_right (a := 2) (by omega), ← hk]
      exact align.toNat_lt
    have hle : 1 ≤ offset + align :=
      UInt32.le_iff_toNat_le.2 (by rw [toNat_add_of_lt h, hone]; omega)
    have hsum : (offset + align - 1).toNat = offset.toNat + (align.toNat - 1) := by
      rw [UInt32.toNat_sub_of_le _ _ hle, toNat_add_of_lt h, hone]
      omega
    have hmask : (~~~(align - 1)).toNat = UInt32.size - 1 - (2 ^ k - 1) := by
      rw [UInt32.toNat_not, UInt32.toNat_sub_of_le _ _ (UInt32.le_iff_toNat_le.2 (hone ▸ hlt.le)), hk,
        hone]
    rw [UInt32.toNat_and, hsum, hmask, and_not_mask (by omega) hk32, hk]

/-! ### Packing in exact numbers -/

namespace Packing

/-- Where fields end that are placed from `start` on. -/
def exactStop (start : ℕ) : List Layout → ℕ
  | [] => start
  | field :: fields => exactStop (roundUp start field.align.toNat + field.size.toNat) fields

/-- The largest alignment among the fields, and at least 1. -/
def largestAlignment (fields : List Layout) : ℕ :=
  fields.foldr (fun field align ↦ max field.align.toNat align) 1

/-- The size of an object with the given fields. -/
def exactSize (fields : List Layout) : ℕ := roundUp (exactStop 0 fields) (largestAlignment fields)

/-- Offsets at which fields lie one after the other from `start` on, each at the first place that
suits its alignment, and where the last one ends. -/
inductive Lays : ℕ → List Layout → List UInt32 → ℕ → Prop
  | nil (stop : ℕ) : Lays stop [] [] stop
  | cons {start stop : ℕ} {field : Layout} {fields : List Layout} {offset : UInt32}
      {offsets : List UInt32}
      (least : IsLeast {n | start ≤ n ∧ field.align.toNat ∣ n} offset.toNat)
      (rest : Lays (offset.toNat + field.size.toNat) fields offsets stop) :
      Lays start (field :: fields) (offset :: offsets) stop

/-- What a packing of fields is to be. -/
structure Packs (fields : List Layout) (p : Packing) : Prop where
  /-- Every field lies at the first place after the one before it, and the object is padded. -/
  lays : ∃ stop, Lays 0 fields p.offsets stop ∧
    IsLeast {n | stop ≤ n ∧ p.align.toNat ∣ n} p.size.toNat
  length : p.offsets.length = fields.length
  aligned (i : ℕ) (field : Layout) (offset : UInt32) (hfield : fields[i]? = some field)
    (hoffset : p.offsets[i]? = some offset) : field.align.toNat ∣ offset.toNat
  /-- No field reaches into one that comes after it. -/
  disjoint (i j : ℕ) (hij : i < j) (field : Layout) (offset offset' : UInt32)
    (hfield : fields[i]? = some field) (hoffset : p.offsets[i]? = some offset)
    (hoffset' : p.offsets[j]? = some offset') : offset.toNat + field.size.toNat ≤ offset'.toNat
  inside (i : ℕ) (field : Layout) (offset : UInt32) (hfield : fields[i]? = some field)
    (hoffset : p.offsets[i]? = some offset) : offset.toNat + field.size.toNat ≤ p.size.toNat
  align : IsGreatest (insert 1 {n | ∃ field ∈ fields, field.align.toNat = n}) p.align.toNat
  nil : fields = [] → p.size = 0

/-- Places fields in order, unless a sum wraps. -/
def place? (offset : UInt32) : List Layout → Option (List UInt32 × UInt32)
  | [] => some ([], offset)
  | field :: fields => do
    let start ← alignUp? offset field.align
    let (offsets, stop) ← place? (← checkedAdd start field.size) fields
    return (start :: offsets, stop)

/-- Packs fields, unless a sum wraps. -/
def ofFields? (fields : List Layout) : Option Packing := do
  let (offsets, stop) ← place? 0 fields
  return ⟨offsets, ← alignUp? stop (alignment fields), alignment fields⟩

/-! ### Consequences of the places -/

variable {start stop : ℕ} {fields : List Layout} {offsets : List UInt32}

/-- Fields are laid one behind the other. -/
theorem Lays.start_le_stop (h : Lays start fields offsets stop) : start ≤ stop := by
  induction h with
  | nil => exact Nat.le_refl _
  | cons least rest ih => exact least.1.1.trans ((Nat.le_add_right _ _).trans ih)

/-- No fields take up no room. -/
theorem Lays.stop_le_start (h : Lays start [] offsets stop) : stop ≤ start := by
  cases h
  exact Nat.le_refl _

/-- Every field gets one offset. -/
theorem Lays.length_eq (h : Lays start fields offsets stop) : offsets.length = fields.length := by
  induction h with
  | nil => rfl
  | cons least rest ih => exact congrArg (· + 1) ih

/-- Each field lies at a multiple of its alignment, after the start and before the end. -/
theorem Lays.place (h : Lays start fields offsets stop) {i : ℕ} {field : Layout} {offset : UInt32}
    (hfield : fields[i]? = some field) (hoffset : offsets[i]? = some offset) :
    start ≤ offset.toNat ∧ field.align.toNat ∣ offset.toNat ∧
      offset.toNat + field.size.toNat ≤ stop := by
  induction h generalizing i with
  | nil => simp at hfield
  | cons least rest ih =>
    cases i with
    | zero =>
      obtain rfl := Option.some.inj hfield
      obtain rfl := Option.some.inj hoffset
      exact ⟨least.1.1, least.1.2, rest.start_le_stop⟩
    | succ i =>
      obtain ⟨hstart, hrest⟩ := ih hfield hoffset
      exact ⟨least.1.1.trans ((Nat.le_add_right _ _).trans hstart), hrest⟩

/-- A field ends before every later field starts. -/
theorem Lays.disjoint (h : Lays start fields offsets stop) {i j : ℕ} {field : Layout}
    {offset offset' : UInt32} (hij : i < j) (hfield : fields[i]? = some field)
    (hoffset : offsets[i]? = some offset) (hoffset' : offsets[j]? = some offset') :
    offset.toNat + field.size.toNat ≤ offset'.toNat := by
  induction h generalizing i j with
  | nil => simp at hfield
  | cons least rest ih =>
    obtain ⟨j, rfl⟩ := Nat.exists_eq_add_one_of_ne_zero (Nat.ne_zero_of_lt hij)
    cases i with
    | zero =>
      obtain rfl := Option.some.inj hfield
      obtain rfl := Option.some.inj hoffset
      obtain ⟨hj, -⟩ := List.getElem?_eq_some_iff.1 hoffset'
      rw [List.length_cons, rest.length_eq, Nat.add_lt_add_iff_right] at hj
      exact (rest.place (List.getElem?_eq_getElem hj) hoffset').1
    | succ i => exact ih (Nat.lt_of_succ_lt_succ hij) hfield hoffset hoffset'

/-! ### Alignments -/

/-- An object has an alignment, also without fields. -/
theorem largestAlignment_pos (fields : List Layout) : 0 < largestAlignment fields := by
  induction fields with
  | nil => exact Nat.one_pos
  | cons field fields ih => exact ih.trans_le (Nat.le_max_right _ _)

/-- The alignment of an object is the greatest of those of its fields, and 1 without fields. -/
theorem isGreatest_largestAlignment (fields : List Layout) :
    IsGreatest (insert 1 {n | ∃ field ∈ fields, field.align.toNat = n}) (largestAlignment fields) := by
  induction fields with
  | nil => simp [largestAlignment]
  | cons field fields ih =>
    obtain ⟨hmem, hupper⟩ := ih
    constructor
    · show max field.align.toNat (largestAlignment fields) ∈ _
      rcases Nat.le_total field.align.toNat (largestAlignment fields) with hle | hle
      · rw [max_eq_right hle]
        refine hmem.imp_right ?_
        rintro ⟨field', hfield', heq⟩
        exact ⟨field', List.mem_cons_of_mem field hfield', heq⟩
      · rw [max_eq_left hle]
        exact .inr ⟨field, List.mem_cons_self, rfl⟩
    · rintro n (rfl | ⟨field', hfield', rfl⟩)
      · exact (hupper (.inl rfl)).trans (Nat.le_max_right _ _)
      · rcases List.mem_cons.1 hfield' with rfl | hfield'
        · exact Nat.le_max_left _ _
        · exact (hupper (.inr ⟨field', hfield', rfl⟩)).trans (Nat.le_max_right _ _)

/-- The largest alignment does not depend on the order in which alignments are compared. -/
theorem toNat_alignment (fields : List Layout) :
    (alignment fields).toNat = largestAlignment fields := by
  have hmax (a b : UInt32) : (max a b).toNat = max a.toNat b.toNat := by
    show (if a ≤ b then b else a).toNat = _
    split
    next hle => exact (max_eq_right (UInt32.le_iff_toNat_le.1 hle)).symm
    next hlt => exact (max_eq_left (Nat.le_of_not_le (hlt ∘ UInt32.le_iff_toNat_le.2))).symm
  have hfold (align : UInt32) :
      (fields.foldl (fun align field ↦ max align field.align) align).toNat =
        fields.foldr (fun field align ↦ max field.align.toNat align) align.toNat := by
    induction fields generalizing align with
    | nil => rfl
    | cons field fields ih =>
      rw [List.foldl_cons, List.foldr_cons, ih, hmax]
      clear ih
      induction fields with
      | nil => exact Nat.max_comm _ _
      | cons field' fields ih => rw [List.foldr_cons, List.foldr_cons, ih, max_left_comm]
  exact hfold 1

/-- The largest of some powers of two is one of them, or 1. -/
theorem isPowerOfTwo_alignment (h : ∀ field ∈ fields, field.align.toNat.isPowerOfTwo) :
    (alignment fields).toNat.isPowerOfTwo := by
  rw [toNat_alignment]
  rcases (isGreatest_largestAlignment fields).1 with hone | ⟨field, hfield, heq⟩
  · exact hone ▸ ⟨0, rfl⟩
  · exact heq ▸ h field hfield

/-! ### Packing in words -/

/-- The exact end is not before the start. -/
theorem le_exactStop (start : ℕ) (h : ∀ field ∈ fields, 0 < field.align.toNat) :
    start ≤ exactStop start fields := by
  induction fields generalizing start with
  | nil => exact Nat.le_refl _
  | cons field fields ih =>
    exact (le_roundUp start (h field List.mem_cons_self)).trans ((Nat.le_add_right _ _).trans
      (ih _ fun field' hfield' ↦ h field' (List.mem_cons_of_mem field hfield')))

/-- Fields that end early enough lie where they should, and no sum wraps on the way. -/
theorem place_lays {bound : ℕ} (offset : UInt32)
    (hpow : ∀ field ∈ fields, field.align.toNat.isPowerOfTwo)
    (hbound : ∀ field ∈ fields, field.align.toNat ≤ bound)
    (hfits : exactStop offset.toNat fields + bound < UInt32.size) :
    place? offset fields = some (place offset fields) ∧
      (place offset fields).2.toNat = exactStop offset.toNat fields ∧
      Lays offset.toNat fields (place offset fields).1 (exactStop offset.toNat fields) := by
  induction fields generalizing offset with
  | nil => exact ⟨rfl, rfl, .nil _⟩
  | cons field fields ih =>
    have hpos (field' : Layout) (hfield' : field' ∈ field :: fields) : 0 < field'.align.toNat :=
      Nat.pos_of_isPowerOfTwo (hpow field' hfield')
    have hrest (field' : Layout) (hfield' : field' ∈ fields) : field' ∈ field :: fields :=
      List.mem_cons_of_mem field hfield'
    have hfield := hpos field List.mem_cons_self
    have halign := hbound field List.mem_cons_self
    have hle := le_roundUp offset.toNat hfield
    -- the end of this field comes before that of the last one, which leaves room for an alignment
    have hend : roundUp offset.toNat field.align.toNat + field.size.toNat + bound < UInt32.size :=
      (Nat.add_le_add_right (le_exactStop _ fun field' hfield' ↦ hpos field' (hrest field' hfield'))
        bound).trans_lt hfits
    have hround : offset.toNat + field.align.toNat < UInt32.size := by omega
    have hstart := toNat_alignUp (hpow field List.mem_cons_self) hround
    have hsum : (alignUp offset field.align).toNat + field.size.toNat < UInt32.size := by omega
    have hstop := toNat_add_of_lt hsum
    rw [hstart] at hstop
    obtain ⟨hplace, htoNat, hlays⟩ := ih (alignUp offset field.align + field.size)
      (fun field' hfield' ↦ hpow field' (hrest field' hfield'))
      (fun field' hfield' ↦ hbound field' (hrest field' hfield')) (by rw [hstop]; exact hfits)
    rw [hstop] at htoNat hlays
    refine ⟨?_, htoNat, .cons (hstart ▸ isLeast_roundUp offset.toNat hfield) (hstart ▸ hlays)⟩
    rw [place?, alignUp?_of_lt hround, Option.bind_eq_bind, Option.bind_some, checkedAdd_of_lt hsum,
      Option.bind_eq_bind, Option.bind_some, hplace]
    rfl

/-- Fields that lie where they should make a packing, if the end is padded. -/
theorem Lays.packs {p : Packing} (h : Lays 0 fields p.offsets stop)
    (halign : p.align.toNat = largestAlignment fields)
    (hsize : IsLeast {n | stop ≤ n ∧ p.align.toNat ∣ n} p.size.toNat) : Packs fields p where
  lays := ⟨stop, h, hsize⟩
  length := h.length_eq
  aligned _ _ _ hfield hoffset := (h.place hfield hoffset).2.1
  disjoint _ _ hij _ _ _ hfield hoffset hoffset' := h.disjoint hij hfield hoffset hoffset'
  inside _ _ _ hfield hoffset := (h.place hfield hoffset).2.2.trans hsize.1.1
  align := halign ▸ isGreatest_largestAlignment fields
  nil hnil := by
    subst hnil
    exact UInt32.toNat_inj.1 (Nat.le_zero.1 (hsize.2 ⟨h.stop_le_start, Nat.dvd_zero _⟩))

end Packing

/-! ### Alignments of registered types -/

/-- Addresses are aligned to a power of two. -/
theorem Width.isPowerOfTwo_align (w : Width) : w.layout.align.toNat.isPowerOfTwo := by
  cases w with
  | w32 => exact ⟨2, rfl⟩
  | w64 => exact ⟨3, rfl⟩

/-- Primitive types are aligned to powers of two. -/
theorem Primitive.isPowerOfTwo_align {p : Primitive} {pointer : Width} {layout : Layout}
    (h : p.layout pointer = some layout) : layout.align.toNat.isPowerOfTwo := by
  cases p with
  | void => simp [Primitive.layout] at h
  | bool | int8 | uint8 => exact Option.some.inj h ▸ ⟨0, rfl⟩
  | int16 | uint16 => exact Option.some.inj h ▸ ⟨1, rfl⟩
  | int32 | uint32 | float => exact Option.some.inj h ▸ ⟨2, rfl⟩
  | int64 | uint64 | double => exact Option.some.inj h ▸ ⟨3, rfl⟩
  | uintptr => exact Option.some.inj h ▸ pointer.isPowerOfTwo_align

/-- Whatever is registered, values are aligned to powers of two: an object is held by its address. -/
theorem Registry.isPowerOfTwo_align {r : Registry} {id : Fingerprint} {layout : Layout}
    (h : r.layout? id = some layout) : layout.align.toNat.isPowerOfTwo := by
  unfold Registry.layout? at h
  split at h
  · exact Primitive.isPowerOfTwo_align h
  · exact Option.some.inj h ▸ r.width.isPowerOfTwo_align
  · simp at h
  · simp at h

/-! ### Objects -/

/-- Fields are packed as they should be, and no sum wraps, if their alignments are powers of two and
the exact size of the object leaves room for the largest of them. The alignments of all registered
types are powers of two. -/
theorem Packing.packs_ofFields :
    (∀ fields : List Layout, (∀ field ∈ fields, field.align.toNat.isPowerOfTwo) →
      exactSize fields + largestAlignment fields < UInt32.size →
        ofFields? fields = some (ofFields fields) ∧ Packs fields (ofFields fields) ∧
          (ofFields fields).size.toNat = exactSize fields) ∧
    ∀ (r : Registry) (id : Fingerprint) (layout : Layout), r.layout? id = some layout →
      layout.align.toNat.isPowerOfTwo := by
  refine ⟨fun fields hpow hfits ↦ ?_, fun _ _ _ ↦ Registry.isPowerOfTwo_align⟩
  have hle : exactStop 0 fields ≤ exactSize fields := le_roundUp _ (largestAlignment_pos fields)
  obtain ⟨hplace, hstop, hlays⟩ := place_lays 0 hpow
    (fun field hfield ↦ (isGreatest_largestAlignment fields).2 (.inr ⟨field, hfield, rfl⟩))
    ((Nat.add_le_add_right hle _).trans_lt hfits)
  -- the end of the last field is rounded up as the fields are
  have hround : (place 0 fields).2.toNat + (alignment fields).toNat < UInt32.size := by
    rw [hstop, toNat_alignment]
    exact (Nat.add_le_add_right hle _).trans_lt hfits
  have hsize : (ofFields fields).size.toNat = exactSize fields := by
    have hword := toNat_alignUp (isPowerOfTwo_alignment hpow) hround
    rw [hstop, toNat_alignment] at hword
    exact hword
  have halign : (ofFields fields).align.toNat = largestAlignment fields := toNat_alignment fields
  have hlays' : Lays 0 fields (ofFields fields).offsets (exactStop 0 fields) := hlays
  refine ⟨?_, hlays'.packs halign ?_, hsize⟩
  · rw [ofFields?, hplace, Option.bind_eq_bind, Option.bind_some]
    dsimp only
    rw [alignUp?_of_lt hround]
    rfl
  · rw [hsize, halign]
    exact isLeast_roundUp _ (largestAlignment_pos fields)

/-- A byte and a large field, in an object of the largest size that leaves room for its alignment. -/
theorem Packing.packs_ofFields_large :
    let fields : List Layout := [⟨1, 1, .i32⟩, ⟨0xffffffe7, 8, .i64⟩]
    let p : Packing := ⟨[0, 8], 0xfffffff0, 8⟩
    (∀ field ∈ fields, field.align.toNat.isPowerOfTwo) ∧
      exactSize fields + largestAlignment fields < UInt32.size ∧ ofFields? fields = some p ∧
        Packs fields p := by
  intro fields p
  have hpow : ∀ field ∈ fields, field.align.toNat.isPowerOfTwo := by
    simp only [fields, List.forall_mem_cons]
    exact ⟨⟨0, rfl⟩, ⟨3, rfl⟩, nofun⟩
  have hfits : exactSize fields + largestAlignment fields < UInt32.size := by decide
  have hp : ofFields fields = p := by decide
  obtain ⟨hchecked, hpacks, -⟩ := packs_ofFields.1 fields hpow hfits
  rw [hp] at hchecked hpacks
  exact ⟨hpow, hfits, hchecked, hpacks⟩

/-- Without room for one more alignment, padding the end takes a sum that wraps. -/
example : Packing.ofFields? [⟨0xfffffff8, 8, .i64⟩] = none := by decide

end StackLowering
