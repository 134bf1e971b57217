import Mathlib.Data.List.Dedup
import Mathlib.Data.List.Forall2
import StackLowering.Proofs.Machine.Emission

/-!
# Histories of a constant pool

Constants come into a pool one by one, in any order and any number of times. The pool keeps the entries
in a list and their places in an index that goes by kind, bits and name. Whatever is added to a new
pool, both tell the same story and each constant is there once; a place that was told once holds its
constant from then on, and two additions are told the same place exactly if they are of the same kind
and have the same bits (`ConstantPool.performAll_places`).

That holds as long as there are at most 2³² different constants, since a place has 32 bits. The bound
is on what is in the pool in the end and not on the number of requests, of which there may be more.

Floating-point constants are compared by their bits and not as numbers, so that the two zeros are
different constants, and a NaN is found again by its payload. What a place tells is described by the
pool at the end of the whole history (`ConstantPool.performAll_fst`), from which stability follows at
once.
-/

namespace StackLowering

/-- What can be added to a pool. -/
inductive Addition where
  /-- Any constant. -/
  | constant (c : Constant)
  /-- A 32-bit integer. -/
  | i32 (value : Int32)
  /-- A 64-bit integer. -/
  | i64 (value : Int64)
  /-- The name of a function. -/
  | symbol (name : String)
deriving DecidableEq, Repr

/-- The constant that is added. -/
def Addition.added : Addition → Constant
  | constant c => c
  | i32 value => .i32 value
  | i64 value => .i64 value
  | symbol name => .symbol name

namespace ConstantPool

variable {p q : ConstantPool} {c : Constant} {cs : List Constant}

/-- The place that is told for an addition, and the pool after it. -/
def perform (p : ConstantPool) : Addition → UInt32 × ConstantPool
  | .constant c => p.add c
  | .i32 value => p.addI32 value
  | .i64 value => p.addI64 value
  | .symbol name => p.addSymbol name

/-- However a constant is asked for, it is added as what it stands for. -/
theorem perform_eq (p : ConstantPool) (a : Addition) : p.perform a = p.add a.added := by
  cases a <;> rfl

/-- The places that are told for additions in a row, and the pool after them. -/
def performAll (p : ConstantPool) : List Addition → List UInt32 × ConstantPool
  | [] => ([], p)
  | a :: as =>
    let (place, p') := p.perform a
    let (places, p'') := p'.performAll as
    (place :: places, p'')

theorem performAll_cons (p : ConstantPool) (a : Addition) (as : List Addition) :
    p.performAll (a :: as) = ((p.add a.added).1 :: ((p.add a.added).2.performAll as).1,
      ((p.add a.added).2.performAll as).2) := by
  rw [← perform_eq]
  rfl

/-! ### The pool in the end -/

/-- The pool after a history does not depend on how its constants were asked for. -/
theorem performAll_snd (p : ConstantPool) (as : List Addition) :
    (p.performAll as).2 = p.addAll (as.map (·.added)) := by
  induction as generalizing p with
  | nil => rfl
  | cons a as ih =>
    rw [performAll_cons]
    exact ih (p.add a.added).2

/-- Adding constants in a row takes nothing away and moves nothing. -/
theorem Extends.addAll (p : ConstantPool) (cs : List Constant) : p.Extends (p.addAll cs) := by
  induction cs generalizing p with
  | nil => exact .refl p
  | cons c cs ih => exact (Extends.add p c).trans (ih (p.add c).2)

/-- The entries in the end are those of the start and the constants that were added. -/
theorem Listed.mem_entries_addAll (h : p.Listed) :
    c ∈ (p.addAll cs).entries.toList ↔ c ∈ p.entries.toList ∨ c ∈ cs := by
  induction cs generalizing p with
  | nil => simp [ConstantPool.addAll]
  | cons c' cs ih =>
    have hrest : c ∈ (p.addAll (c' :: cs)).entries.toList ↔
        c ∈ (p.add c').2.entries.toList ∨ c ∈ cs := ih (h.add c')
    rw [hrest, h.mem_entries_add, or_assoc, List.mem_cons]

/-- A new pool gets one entry for each constant that is added, however often it is added. -/
theorem size_addAll (cs : List Constant) : (empty.addAll cs).size = cs.dedup.length := by
  have hperm : (empty.addAll cs).entries.toList.Perm cs.dedup := by
    refine (List.perm_ext_iff_of_nodup (listed_empty.addAll cs).nodup cs.nodup_dedup).2 fun c ↦ ?_
    rw [listed_empty.mem_entries_addAll, List.mem_dedup]
    exact or_iff_right (List.not_mem_nil (a := c))
  rw [size, ← Array.length_toList, hperm.length_eq]

/-- A history may be cut anywhere. -/
theorem addAll_append (p : ConstantPool) (cs cs' : List Constant) :
    p.addAll (cs ++ cs') = (p.addAll cs).addAll cs' :=
  List.foldl_append

/-- What is held has a place. -/
theorem Listed.index_eq (h : p.Listed) (hc : c ∈ p.entries.toList) :
    p.index[c]? = some (p.place c) := by
  have hindex := h.index_iff.2 ⟨hc, rfl⟩
  rw [hindex, ConstantPool.place_eq hindex]

/-- In a pool that fits into 32 bits, each position is the place of its entry. -/
theorem Indexed.index_getElem (h : p.Indexed) (hsize : p.size ≤ UInt32.size) {i : Nat}
    (hi : i < p.entries.size) : p.index[p.entries[i]]? = some i.toUInt32 := by
  have hplace : i.toUInt32.toNat = i := UInt32.toNat_ofNat_of_lt' (Nat.lt_of_lt_of_le hi hsize)
  rw [h.index_iff, get?, hplace]
  exact Array.getElem?_eq_getElem hi

/-- What is at a place is there in every later pool. -/
theorem Extends.get? (h : p.Extends q) (hp : p.Indexed) (hq : q.Indexed) {place : UInt32}
    (hc : p.get? place = some c) : q.get? place = some c :=
  hq.index_iff.1 (h.index (hp.index_iff.2 hc))

/-! ### The places that are told -/

/-- The places that are told are those of every later pool. -/
theorem performAll_fst {as : List Addition} (h : (p.performAll as).2.Extends q) :
    (p.performAll as).1 = as.map fun a ↦ q.place a.added := by
  induction as generalizing p with
  | nil => rfl
  | cons a as ih =>
    rw [performAll_cons] at h ⊢
    have hfirst : (p.add a.added).2.Extends q := by
      rw [performAll_snd] at h
      exact (Extends.addAll _ _).trans h
    rw [List.map_cons, ih h, place_eq (hfirst.index (p.index_add a.added))]

/-- At each place that was told there is what was added. -/
theorem performAll_held (as : List Addition) (h : (empty.performAll as).2.Indexed) :
    List.Forall₂ (fun a place ↦ (empty.performAll as).2.get? place = some a.added) as
      (empty.performAll as).1 := by
  rw [performAll_fst (.refl _), List.forall₂_map_right_iff, List.forall₂_same]
  intro a ha
  rw [performAll_snd] at h ⊢
  have hmem : a.added ∈ (empty.addAll (as.map (·.added))).entries.toList := by
    rw [listed_empty.mem_entries_addAll]
    exact .inr (List.mem_map_of_mem ha)
  exact h.index_iff.1 ((listed_empty.addAll _).index_eq hmem)

/-- A constant has one place only. -/
theorem Indexed.place_eq_iff_key (h : p.Indexed) {place place' : UInt32} {c' : Constant}
    (hc : p.get? place = some c) (hc' : p.get? place' = some c') :
    place = place' ↔ c.key = c'.key := by
  refine ⟨fun heq ↦ ?_, fun heq ↦ ?_⟩
  · rw [heq, hc'] at hc
    rw [Option.some.inj hc]
  · have hindex := h.index_iff.2 hc
    rw [Constant.key_injective heq, h.index_iff.2 hc'] at hindex
    exact (Option.some.inj hindex).symm

/-- What is at a place after some of the additions is there after all of them, if the pool in the end
fits into 32 bits. -/
theorem get?_performAll_append (as as' : List Addition)
    (hfits : (empty.performAll (as ++ as')).2.size ≤ UInt32.size) {place : UInt32}
    (hc : (empty.performAll as).2.get? place = some c) :
    (empty.performAll (as ++ as')).2.get? place = some c := by
  rw [performAll_snd, List.map_append, addAll_append] at hfits ⊢
  rw [performAll_snd] at hc
  have hlisted := listed_empty.addAll (as.map (·.added))
  have hextends := Extends.addAll (empty.addAll (as.map (·.added))) (as'.map (·.added))
  exact hextends.get? ((listed_iff_indexed (Nat.le_trans hextends.size_le hfits)).1 hlisted)
    ((listed_iff_indexed hfits).1 (hlisted.addAll _)) hc

/-- Whatever is added to a new pool in a row, the index leads from each entry to its position and knows
no other constant, no two entries are of the same kind and have the same bits, and there are as many
entries as different constants were added. At each place that was told there is what was added, bit by
bit, and two places are the same exactly if what was added is of the same kind and has the same bits.
What is at a place at any time stays there. -/
theorem performAll_places (as : List Addition)
    (hcount : (as.map (·.added)).dedup.length ≤ UInt32.size) :
    let places := (empty.performAll as).1
    let p := (empty.performAll as).2
    (∀ i (hi : i < p.entries.size), (p.index[p.entries[i]]?).map (·.toNat) = some i) ∧
    (∀ c place, p.index[c]? = some place → p.get? place = some c) ∧
    (∀ i j (hi : i < p.entries.size) (hj : j < p.entries.size),
      p.entries[i].key = p.entries[j].key → i = j) ∧
    p.size = (as.map (·.added)).dedup.length ∧
    List.Forall₂ (fun a place ↦ p.get? place = some a.added) as places ∧
    (∀ told ∈ as.zip places, ∀ told' ∈ as.zip places,
      told.2 = told'.2 ↔ told.1.added.key = told'.1.added.key) ∧
    (∀ earlier later, as = earlier ++ later → ∀ place c,
      (empty.performAll earlier).2.get? place = some c → p.get? place = some c) := by
  intro places p
  have hp : p = empty.addAll (as.map (·.added)) := performAll_snd empty as
  have hsize : p.size = (as.map (·.added)).dedup.length := hp ▸ size_addAll _
  have hlisted : p.Listed := hp ▸ listed_empty.addAll _
  have hfits : p.size ≤ UInt32.size := hsize ▸ hcount
  have hindexed : p.Indexed := (listed_iff_indexed hfits).1 hlisted
  have hheld : List.Forall₂ (fun a place ↦ p.get? place = some a.added) as places :=
    performAll_held as hindexed
  refine ⟨fun i hi ↦ ?_, fun c place ↦ hindexed.index_iff.1, fun i j hi hj h ↦ ?_, hsize, hheld,
    fun told h told' h' ↦ ?_, fun earlier later h place c hc ↦ ?_⟩
  · rw [hindexed.index_getElem hfits hi, Option.map_some]
    exact congrArg some (UInt32.toNat_ofNat_of_lt' (Nat.lt_of_lt_of_le hi hfits))
  · have hentry : p.entries.toList[i] = p.entries.toList[j] := Constant.key_injective h
    exact (hlisted.nodup.getElem_inj_iff).1 hentry
  · obtain ⟨-, hzip⟩ := List.forall₂_iff_zip.1 hheld
    exact hindexed.place_eq_iff_key (hzip h) (hzip h')
  · subst h
    exact get?_performAll_append earlier later hfits hc

/-- The two zeros, two NaNs, the same number as integers of both widths, and a number that was added
before. -/
def zerosAndNaNs : List Addition :=
  [.constant (.f64 0), .constant (.f64 0x8000000000000000), .constant (.f64 0x7ff8000000000001),
    .constant (.f64 0x7ff8000000000002), .i32 4, .i64 4, .symbol "malloc", .i32 4]

/-- All of them but the last one get places of their own. -/
theorem performAll_places_zerosAndNaNs :
    (zerosAndNaNs.map (·.added)).dedup.length ≤ UInt32.size ∧
      (empty.performAll zerosAndNaNs).1 = [0, 1, 2, 3, 4, 5, 6, 4] ∧
      (empty.performAll zerosAndNaNs).2.size = 7 ∧
      (empty.performAll zerosAndNaNs).2.get? 2 = some (.f64 0x7ff8000000000001) := by
  have hdedup : (zerosAndNaNs.map (·.added)).dedup.length = 7 := by decide +kernel
  have hcount : (zerosAndNaNs.map (·.added)).dedup.length ≤ UInt32.size := by
    rw [hdedup]
    decide
  have hplaces : (empty.performAll zerosAndNaNs).1 = [0, 1, 2, 3, 4, 5, 6, 4] := by decide +kernel
  obtain ⟨-, -, -, hsize, htold, -, -⟩ := performAll_places zerosAndNaNs hcount
  rw [hplaces] at htold
  exact ⟨hcount, hplaces, hsize.trans hdedup, htold.get (i := 2) (by decide) (by decide)⟩

end ConstantPool

end StackLowering
