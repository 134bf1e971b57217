import Mathlib.Data.List.Nodup
import StackLowering.Machine.Assembler
import StackLowering.Proofs.Machine.Encoding

/-!
# Assembled code

A pool that is filled constant by constant holds every constant that it was given once, and tells the
low 32 bits of its position (`ConstantPool.Listed`). As long as positions fit into 32 bits, the index
and the entries tell the same story (`ConstantPool.Indexed`).

The assembler refers to a constant while the pool is still growing, and the code is read with the pool
in the end. What makes the two agree is that nothing in a pool ever moves (`ConstantPool.Extends`), so
that every statement about code is made about an arbitrary later pool. Since nothing moves, the code
that an assembler writes can be described without the assembler: it is the encoding of the instructions
that refer to the places of that pool, with the line of each byte (`Assembler.bytes_pushAll`).

No bound on the size of the pool is needed for this. A place of a large pool is written with its low
bits only, and which of the bits are lost is a matter of the encoding and not of the assembler; where
the bounds come in, they are hypotheses of the theorems that read code back.
-/

namespace StackLowering

open Std

namespace ConstantPool

variable {p p' p'' : ConstantPool} {c c' : Constant}

/-! ### Filling a pool -/

/-- Adding a constant that has a place changes nothing; a new constant is put at the end. -/
theorem add_eq (p : ConstantPool) (c : Constant) :
    (∃ place, p.index[c]? = some place ∧ p.add c = (place, p)) ∨
      p.index[c]? = none ∧
        p.add c = (p.size.toUInt32, ⟨p.entries.push c, p.index.insert c p.size.toUInt32⟩) := by
  unfold add
  cases h : p.index[c]? with
  | some place => exact .inl ⟨place, rfl, rfl⟩
  | none => exact .inr ⟨rfl, rfl⟩

/-- The places of one pool are places of the other, with the same constants. -/
structure Extends (p p' : ConstantPool) : Prop where
  index : ∀ {c : Constant} {place : UInt32}, p.index[c]? = some place → p'.index[c]? = some place
  size_le : p.size ≤ p'.size

namespace Extends

theorem refl (p : ConstantPool) : p.Extends p :=
  ⟨fun h ↦ h, Nat.le_refl _⟩

theorem trans (h : p.Extends p') (h' : p'.Extends p'') : p.Extends p'' :=
  ⟨fun hc ↦ h'.index (h.index hc), Nat.le_trans h.size_le h'.size_le⟩

/-- A constant is added at the end, if it is added at all. -/
theorem add (p : ConstantPool) (c : Constant) : p.Extends (p.add c).2 := by
  rcases p.add_eq c with ⟨place, -, heq⟩ | ⟨hnone, heq⟩
  · rw [heq]
    exact .refl p
  · rw [heq]
    refine ⟨fun {c' place} hc ↦ ?_, by simp [size]⟩
    have hne : c ≠ c' := by
      rintro rfl
      simp [hnone] at hc
    simpa [ExtTreeMap.getElem?_insert, hne] using hc

end Extends

/-- The place that adding a constant tells is that of the constant from then on. -/
theorem index_add (p : ConstantPool) (c : Constant) :
    (p.add c).2.index[c]? = some (p.add c).1 := by
  rcases p.add_eq c with ⟨place, hplace, heq⟩ | ⟨-, heq⟩
  · rw [heq]
    exact hplace
  · rw [heq]
    simp

/-! ### Index and entries -/

/-- The position of a constant among the entries. -/
def position (p : ConstantPool) (c : Constant) : Nat := p.entries.toList.idxOf c

/-- Every constant is held once, and its place is the low 32 bits of its position. -/
structure Listed (p : ConstantPool) : Prop where
  nodup : p.entries.toList.Nodup
  index_iff : ∀ {c : Constant} {place : UInt32}, p.index[c]? = some place ↔
    c ∈ p.entries.toList ∧ (p.position c).toUInt32 = place

/-- A pool without constants tells no positions. -/
theorem listed_empty : empty.Listed :=
  ⟨List.nodup_nil, by simp [empty]⟩

/-- What is held is at its position. -/
theorem getElem?_position (h : c ∈ p.entries.toList) : p.entries[p.position c]? = some c := by
  rw [← Array.getElem?_toList]
  exact List.getElem?_idxOf h

/-- A constant of the pool lies within the pool. -/
theorem position_lt (h : c ∈ p.entries.toList) : p.position c < p.size := by
  have hlt : p.position c < p.entries.toList.length := List.idxOf_lt_length_of_mem h
  rwa [Array.length_toList] at hlt

/-- The index knows no constants but those of the pool. -/
theorem Listed.mem (h : p.Listed) (hc : (p.index[c]?).isSome) : c ∈ p.entries.toList := by
  obtain ⟨place, hplace⟩ := Option.isSome_iff_exists.1 hc
  exact (h.index_iff.1 hplace).1

/-- What the index does not know is not in the pool. -/
theorem Listed.index_eq_none (h : p.Listed) (hc : p.index[c]? = none) : c ∉ p.entries.toList := by
  intro hmem
  have hplace := h.index_iff.2 ⟨hmem, rfl⟩
  simp [hc] at hplace

/-- The index and the entries stay in step, however many constants there are. -/
theorem Listed.add (h : p.Listed) (c : Constant) : (p.add c).2.Listed := by
  rcases p.add_eq c with ⟨place, -, heq⟩ | ⟨hnone, heq⟩
  · rw [heq]
    exact h
  · rw [heq]
    have hnew : c ∉ p.entries.toList := h.index_eq_none hnone
    refine ⟨?_, fun {c' place} ↦ ?_⟩
    · rw [Array.toList_push]
      exact List.nodup_append.2 ⟨h.nodup, List.nodup_singleton c, by grind⟩
    · simp only [ExtTreeMap.getElem?_insert, LawfulEqCmp.compare_eq_iff_eq, Array.toList_push,
        position, List.mem_append, List.mem_singleton]
      by_cases hc : c = c'
      · subst hc
        -- the new constant is at the end, and what was there before keeps its position
        rw [if_pos rfl, List.idxOf_append_of_notMem hnew, List.idxOf_cons_self, Nat.add_zero,
          Array.length_toList]
        simp [size]
      · rw [if_neg hc, h.index_iff]
        have hiff : c' ∈ p.entries.toList ∨ c' = c ↔ c' ∈ p.entries.toList := by
          simp [Ne.symm hc]
        rw [hiff]
        refine and_congr_right fun hmem ↦ ?_
        rw [List.idxOf_append_of_mem hmem]
        rfl

/-- What is held afterwards is what was held before and the constant that is added. -/
theorem Listed.mem_entries_add (h : p.Listed) :
    c' ∈ (p.add c).2.entries.toList ↔ c' ∈ p.entries.toList ∨ c' = c := by
  rcases p.add_eq c with ⟨place, hplace, heq⟩ | ⟨-, heq⟩
  · have hc : c ∈ p.entries.toList := h.mem (Option.isSome_of_mem hplace)
    rw [heq]
    exact ⟨.inl, fun hc' ↦ hc'.elim id fun heq' ↦ heq' ▸ hc⟩
  · rw [heq, Array.toList_push, List.mem_append, List.mem_singleton]

/-- The place of a constant holds that constant, and a constant that is held has this place. -/
structure Indexed (p : ConstantPool) : Prop where
  index_iff : ∀ {c : Constant} {place : UInt32}, p.index[c]? = some place ↔ p.get? place = some c

/-- A pool without constants is indexed. -/
theorem indexed_empty : empty.Indexed :=
  ⟨by simp [empty, get?]⟩

/-- As long as positions fit into 32 bits, a place tells one. -/
theorem get?_eq_some_iff (hnodup : p.entries.toList.Nodup) (hsize : p.size ≤ UInt32.size)
    {place : UInt32} :
    p.get? place = some c ↔ c ∈ p.entries.toList ∧ (p.position c).toUInt32 = place := by
  rw [get?]
  constructor
  · intro hget
    rw [← Array.getElem?_toList] at hget
    obtain ⟨hlt, rfl⟩ := List.getElem?_eq_some_iff.1 hget
    refine ⟨List.getElem_mem hlt, ?_⟩
    rw [position, hnodup.idxOf_getElem]
    exact UInt32.ofNat_toNat
  · rintro ⟨hmem, rfl⟩
    have hlt := position_lt hmem
    rw [show (p.position c).toUInt32.toNat = p.position c from UInt32.toNat_ofNat_of_lt' (by omega)]
    exact getElem?_position hmem

/-- No constant is in the pool twice, as long as each position has its own number: the index has one
number for each constant. -/
theorem Indexed.nodup (h : p.Indexed) (hsize : p.size ≤ UInt32.size) : p.entries.toList.Nodup := by
  refine List.nodup_iff_getElem?_ne_getElem?.2 fun i j hij hj heq ↦ ?_
  rw [Array.length_toList] at hj
  have hsize' : p.entries.size ≤ UInt32.size := hsize
  -- two positions with one constant are two places of it
  have hindex (k : Nat) (hk : k < p.entries.size) :
      p.index[p.entries[k]]? = some k.toUInt32 := by
    rw [h.index_iff, get?, show k.toUInt32.toNat = k from UInt32.toNat_ofNat_of_lt' (by omega)]
    exact Array.getElem?_eq_getElem hk
  rw [Array.getElem?_toList, Array.getElem?_toList, Array.getElem?_eq_getElem hj,
    Array.getElem?_eq_getElem (by omega)] at heq
  have hplaces := hindex i (by omega)
  rw [Option.some.inj heq, hindex j hj] at hplaces
  have hnat := congrArg UInt32.toNat (Option.some.inj hplaces)
  rw [show j.toUInt32.toNat = j from UInt32.toNat_ofNat_of_lt' (by omega),
    show i.toUInt32.toNat = i from UInt32.toNat_ofNat_of_lt' (by omega)] at hnat
  omega

/-- In a pool that fits into 32 bits, the positions are the places. -/
theorem listed_iff_indexed (hsize : p.size ≤ UInt32.size) : p.Listed ↔ p.Indexed :=
  ⟨fun h ↦ ⟨h.index_iff.trans (get?_eq_some_iff h.nodup hsize).symm⟩,
    fun h ↦ ⟨h.nodup hsize, h.index_iff.trans (get?_eq_some_iff (h.nodup hsize) hsize)⟩⟩

/-- The place of a constant, if it has one. -/
def place (p : ConstantPool) (c : Constant) : UInt32 := p.index[c]?.getD 0

/-- The place of a constant that the index knows is the one that it tells. -/
theorem place_eq {place : UInt32} (h : p.index[c]? = some place) : p.place c = place := by
  rw [ConstantPool.place, h, Option.getD_some]

/-- The place of a constant is the low 32 bits of its position. -/
theorem Listed.place_eq (h : p.Listed) (hc : (p.index[c]?).isSome) :
    p.place c = (p.position c).toUInt32 :=
  ConstantPool.place_eq (h.index_iff.2 ⟨h.mem hc, rfl⟩)

end ConstantPool

/-! ### Interning instructions -/

namespace Instruction

/-- The constant that an instruction refers to, which is a symbol in a call. -/
def constant? : SymbolicInstruction → Option Constant
  | const c => some c
  | call callee _ => some (.symbol callee)
  | _ => none

/-- The slot that an instruction refers to. -/
def slot? : SymbolicInstruction → Option UInt32
  | getLocal slot | setLocal slot | teeLocal slot => some slot
  | _ => none

/-- The instruction with the places of a pool in the place of constants. -/
def indexed (p : ConstantPool) : SymbolicInstruction → IndexedInstruction UInt32 :=
  map p.place (fun callee ↦ p.place (.symbol callee)) id

/-- The instruction with the low 16 bits of the positions of constants and of slots. -/
def shortened (p : ConstantPool) : SymbolicInstruction → IndexedInstruction UInt16 :=
  map (fun c ↦ (p.position c).toUInt16) (fun callee ↦ (p.position (.symbol callee)).toUInt16)
    (·.toUInt16)

/-- What remains of an instruction in code, if the pool has a place for what it refers to. -/
theorem truncated_indexed {p : ConstantPool} (h : p.Listed) {i : SymbolicInstruction}
    (hi : ∀ c, i.constant? = some c → (p.index[c]?).isSome) :
    (i.indexed p).truncated = i.shortened p := by
  have hplace {c : Constant} (hc : i.constant? = some c) :
      (p.place c).toUInt16 = (p.position c).toUInt16 := by
    rw [h.place_eq (hi c hc)]
    exact UInt32.toUInt16_ofNat
  cases i with
  | const c => exact congrArg const (hplace rfl)
  | call callee argc => exact congrArg (call · argc) (hplace rfl)
  | _ => rfl

end Instruction

namespace ConstantPool

variable {p q : ConstantPool} {i : SymbolicInstruction} {c : Constant}

/-- The pool is only asked for the constant of an instruction, if it has one. -/
theorem intern_snd (p : ConstantPool) (i : SymbolicInstruction) :
    (p.intern i).2 = i.constant?.elim p fun c ↦ (p.add c).2 := by
  cases i <;> rfl

/-- Nothing in the pool moves when an instruction is written. -/
theorem extends_intern (p : ConstantPool) (i : SymbolicInstruction) :
    p.Extends (p.intern i).2 := by
  rw [intern_snd]
  cases i.constant? with
  | none => exact .refl p
  | some c => exact .add p c

/-- An interned constant has a place. -/
theorem index_intern (hc : i.constant? = some c) : ((p.intern i).2.index[c]?).isSome := by
  rw [intern_snd, hc, Option.elim_some, index_add]
  rfl

/-- Writing an instruction keeps the index true to the entries. -/
theorem Listed.intern (h : p.Listed) (i : SymbolicInstruction) : (p.intern i).2.Listed := by
  rw [intern_snd]
  cases i.constant? with
  | none => exact h
  | some c => exact h.add c

/-- Writing an instruction adds its constant to the pool, and no other. -/
theorem Listed.mem_entries_intern (h : p.Listed) :
    c ∈ (p.intern i).2.entries.toList ↔ c ∈ p.entries.toList ∨ i.constant? = some c := by
  rw [intern_snd]
  cases i.constant? with
  | none => simp
  | some c' => simp [h.mem_entries_add, eq_comm]

/-- An interned instruction refers to the places of every later pool. -/
theorem intern_fst (h : (p.intern i).2.Extends q) : (p.intern i).1 = i.indexed q := by
  have hplace (c : Constant) (hc : (p.add c).2.Extends q) : (p.add c).1 = q.place c :=
    (place_eq (hc.index (p.index_add c))).symm
  cases i with
  | const c => exact congrArg Instruction.const (hplace c h)
  | call callee argc => exact congrArg (Instruction.call · argc) (hplace _ h)
  | _ => rfl

end ConstantPool

/-! ### Assembling code -/

namespace Assembler

/-- An instruction adds its bytes on its line. -/
theorem bytes_pushLocated (a : Assembler) (i : LocatedInstruction) :
    (a.pushLocated i).chunk.bytes.toList =
      a.chunk.bytes.toList ++ (a.pool.intern i.instruction).1.encode.map (⟨·, i.line⟩) :=
  Chunk.toList_bytes_append ..

theorem pushAll_cons (a : Assembler) (i : LocatedInstruction) (code : List LocatedInstruction) :
    a.pushAll (i :: code) = (a.pushLocated i).pushAll code := rfl

/-- Nothing in the pool moves while code is written, so places that were told stay valid. -/
theorem extends_pushAll (code : List LocatedInstruction) (a : Assembler) :
    a.pool.Extends (a.pushAll code).pool := by
  induction code generalizing a with
  | nil => exact .refl _
  | cons i code ih => exact (a.pool.extends_intern i.instruction).trans (ih (a.pushLocated i))

/-- Every constant that code refers to has a place in the pool in the end. -/
theorem index_pushAll {code : List LocatedInstruction} {a : Assembler} {i : LocatedInstruction}
    (hi : i ∈ code) {c : Constant} (hc : i.instruction.constant? = some c) :
    ((a.pushAll code).pool.index[c]?).isSome := by
  induction code generalizing a with
  | nil => simp at hi
  | cons i' code ih =>
    rw [pushAll_cons]
    rcases List.mem_cons.1 hi with rfl | hi
    · obtain ⟨place, hplace⟩ := Option.isSome_iff_exists.1
        (ConstantPool.index_intern (p := a.pool) hc)
      exact Option.isSome_of_mem ((extends_pushAll code (a.pushLocated i)).index hplace)
    · exact ih hi

/-- Writing code keeps the index true to the entries. -/
theorem listed_pushAll (code : List LocatedInstruction) {a : Assembler} (h : a.pool.Listed) :
    (a.pushAll code).pool.Listed := by
  induction code generalizing a with
  | nil => exact h
  | cons i code ih => exact ih (h.intern i.instruction)

/-- What the pool holds in the end is what it held before and what the code refers to. -/
theorem mem_entries_pushAll {code : List LocatedInstruction} {a : Assembler} (h : a.pool.Listed)
    {c : Constant} : c ∈ (a.pushAll code).pool.entries.toList ↔
      c ∈ a.pool.entries.toList ∨ ∃ i ∈ code, i.instruction.constant? = some c := by
  induction code generalizing a with
  | nil => exact ⟨.inl, fun hc ↦ hc.elim id fun ⟨_, hi, _⟩ ↦ nomatch hi⟩
  | cons i code ih =>
    have hfirst : c ∈ (a.pushLocated i).pool.entries.toList ↔
        c ∈ a.pool.entries.toList ∨ i.instruction.constant? = some c := h.mem_entries_intern
    rw [pushAll_cons, ih (h.intern i.instruction), hfirst, or_assoc]
    simp

/-- A run of instructions is written as its encoding with the places of any later pool, each
instruction on its line. -/
theorem bytes_pushAll {code : List LocatedInstruction} {a : Assembler} {q : ConstantPool}
    (h : (a.pushAll code).pool.Extends q) :
    (a.pushAll code).chunk.bytes.toList = a.chunk.bytes.toList ++
      code.flatMap fun i ↦ (i.instruction.indexed q).encode.map (⟨·, i.line⟩) := by
  induction code generalizing a with
  | nil => exact (List.append_nil _).symm
  | cons i code ih =>
    have hi : (a.pool.intern i.instruction).2.Extends q :=
      (extends_pushAll code (a.pushLocated i)).trans h
    rw [pushAll_cons, ih h, bytes_pushLocated, ConstantPool.intern_fst hi, List.append_assoc,
      List.flatMap_cons]

/-- The bytes are the encodings of the instructions, which refer to the pool in the end. Any later pool
will do, since the places stay the same. -/
theorem code_pushAll {code : List LocatedInstruction} {a : Assembler} {q : ConstantPool}
    (h : (a.pushAll code).pool.Extends q) :
    (a.pushAll code).chunk.code =
      a.chunk.code ++ encodeAll (code.map (·.instruction.indexed q)) := by
  simp [Chunk.code, bytes_pushAll h, encodeAll, List.map_flatMap, List.flatMap_map,
    Function.comp_def]

/-- Every byte of an instruction has its line, one entry for each byte. -/
theorem lines_pushAll {code : List LocatedInstruction} {a : Assembler} {q : ConstantPool}
    (h : (a.pushAll code).pool.Extends q) :
    (a.pushAll code).chunk.lines = a.chunk.lines ++
      code.flatMap fun i ↦ List.replicate (i.instruction.indexed q).encode.length i.line := by
  simp [Chunk.lines, bytes_pushAll h, List.map_flatMap, Function.comp_def, List.map_const']

end Assembler

end StackLowering
