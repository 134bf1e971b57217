import Mathlib.Data.List.Perm.Subperm
import StackLowering.Proofs.Machine.Assembly

/-!
# What code refers to

An instruction in code refers to constants, symbols and slots by 16 bits. Looking up the constants and
symbols in a pool tells what the code refers to in the end (`Instruction.resolve`). This is what was
meant exactly if every position and every slot fits into 16 bits (`ConstantPool.renders_iff`);
otherwise the code refers to something else.

There are two bounds, and neither follows from the other. The positions that matter are those of the
constants of this code in the final pool, which is shared by all functions, so that a function may be
rendered truly while a later one with fewer instructions is not. The slots are those of the function.

That a bound is exceeded is not reported, and the instruction is well formed all the same: it refers to
the constant or the slot with the same low 16 bits. What is found there need not be of the same kind,
and the symbol of a call may turn into a number, so that looking it up may fail as well
(`Instruction.resolve_shortened_iff`).
-/

namespace StackLowering

namespace ConstantPool

variable {p : ConstantPool}

/-- The low 16 bits of a position lead to the constant exactly if the position fits into them. -/
theorem Listed.get?_toUInt16_iff (h : p.Listed) {c : Constant} (hc : c ∈ p.entries.toList) :
    p.get? (p.position c).toUInt16.toUInt32 = some c ↔ p.position c < 65536 := by
  have hplace : (p.position c).toUInt16.toUInt32.toNat = p.position c % 65536 :=
    UInt16.toNat_toUInt32 _
  have hposition : p.entries.toList[p.position c]? = some c := by
    rw [Array.getElem?_toList]
    exact getElem?_position hc
  rw [get?, hplace, ← Array.getElem?_toList, ← hposition]
  have hlt : p.position c < p.entries.toList.length := by
    rw [Array.length_toList]
    exact position_lt hc
  have hle : p.position c % 65536 ≤ p.position c := Nat.mod_le _ _
  -- a constant has no other position than its own
  rw [List.getElem?_inj (Nat.lt_of_le_of_lt hle hlt) h.nodup]
  omega

/-- In a pool that fits into 16 bits, a constant is found by the low 16 bits of its position. -/
theorem Listed.get?_toUInt16 (h : p.Listed) (hsize : p.size ≤ 65536) {c : Constant}
    (hc : c ∈ p.entries.toList) : p.get? (p.position c).toUInt16.toUInt32 = some c :=
  (h.get?_toUInt16_iff hc).2 (Nat.lt_of_lt_of_le (position_lt hc) hsize)

/-- Of more constants than there are places within 16 bits, one has no such place. -/
theorem exists_le_position {cs : List Constant} (hnodup : cs.Nodup)
    (hmem : ∀ c ∈ cs, c ∈ p.entries.toList) (hlength : 65536 < cs.length) :
    ∃ c ∈ cs, 65536 ≤ p.position c := by
  by_contra hall
  have hlt : ∀ c ∈ cs, p.position c < 65536 := fun c hc ↦
    Nat.lt_of_not_le fun hle ↦ hall ⟨c, hc, hle⟩
  have hpositions : (cs.map p.position).Nodup := by
    refine hnodup.map_on fun c hc c' hc' heq ↦ ?_
    have hget := getElem?_position (hmem c hc)
    rw [heq, getElem?_position (hmem c' hc')] at hget
    exact (Option.some.inj hget).symm
  have hsubset : cs.map p.position ⊆ List.range 65536 := by
    intro n hn
    obtain ⟨c, hc, rfl⟩ := List.mem_map.1 hn
    exact List.mem_range.2 (hlt c hc)
  have hle := (hpositions.subperm hsubset).length_le
  rw [List.length_map, List.length_range] at hle
  omega

/-- A place holds a symbol, and not a number. -/
theorem symbol?_eq_some_iff {place : UInt32} {name : String} :
    p.symbol? place = some name ↔ p.get? place = some (.symbol name) := by
  unfold symbol?
  split
  next name' h => simp [h]
  next h => exact ⟨nofun, fun hget ↦ absurd hget (h name)⟩

end ConstantPool

namespace Instruction

/-- What an instruction in code refers to: the constant or the symbol at its place in a pool, if there
is one, or the slot. -/
def resolve (p : ConstantPool) :
    IndexedInstruction UInt16 → Instruction (Option Constant) (Option String) UInt32 :=
  map (fun index ↦ p.get? index.toUInt32) (fun index ↦ p.symbol? index.toUInt32) (·.toUInt32)

/-- What a symbolic instruction refers to. -/
def meant : SymbolicInstruction → Instruction (Option Constant) (Option String) UInt32 :=
  map some some id

/-- What an instruction refers to has a place within 16 bits. -/
structure Fits (p : ConstantPool) (i : SymbolicInstruction) : Prop where
  constant : ∀ c, i.constant? = some c → p.position c < 65536
  slot : ∀ slot, i.slot? = some slot → slot.toNat < 65536

/-- A slot survives the cut to 16 bits exactly if it is below 65536. -/
theorem toUInt16_toUInt32_eq_iff {slot : UInt32} :
    slot.toUInt16.toUInt32 = slot ↔ slot.toNat < 65536 := by
  rw [← UInt32.toNat_inj, UInt16.toNat_toUInt32, UInt32.toNat_toUInt16]
  omega

/-- An instruction is resolved to what was meant exactly if all that it refers to fits. -/
theorem resolve_shortened_iff {p : ConstantPool} (h : p.Listed) {i : SymbolicInstruction}
    (hi : ∀ c, i.constant? = some c → c ∈ p.entries.toList) :
    (i.shortened p).resolve p = i.meant ↔ i.Fits p := by
  have hslot (slot : UInt32) (heq : i.slot? = some slot) (hnone : i.constant? = none) :
      slot.toUInt16.toUInt32 = slot ↔ i.Fits p := by
    rw [toUInt16_toUInt32_eq_iff]
    exact ⟨fun hlt ↦ ⟨by simp [hnone], by simpa [heq] using hlt⟩, fun hfits ↦ hfits.slot slot heq⟩
  cases i with
  | const c =>
    refine Iff.trans ?_ (Iff.trans (h.get?_toUInt16_iff (hi c rfl)) ?_)
    · exact ⟨const.inj, congrArg const⟩
    · exact ⟨fun hlt ↦ ⟨fun _ heq ↦ Option.some.inj heq ▸ hlt, nofun⟩, fun hfits ↦ hfits.constant c rfl⟩
  | call callee argc =>
    refine Iff.trans ?_ (Iff.trans (h.get?_toUInt16_iff (hi (.symbol callee) rfl)) ?_)
    · rw [← ConstantPool.symbol?_eq_some_iff]
      exact ⟨fun heq ↦ (call.inj heq).1, congrArg (call · argc)⟩
    · exact ⟨fun hlt ↦ ⟨fun _ heq ↦ Option.some.inj heq ▸ hlt, nofun⟩,
        fun hfits ↦ hfits.constant _ rfl⟩
  | getLocal slot => exact Iff.trans ⟨getLocal.inj, congrArg getLocal⟩ (hslot slot rfl rfl)
  | setLocal slot => exact Iff.trans ⟨setLocal.inj, congrArg setLocal⟩ (hslot slot rfl rfl)
  | teeLocal slot => exact Iff.trans ⟨teeLocal.inj, congrArg teeLocal⟩ (hslot slot rfl rfl)
  | _ => exact ⟨fun _ ↦ ⟨nofun, nofun⟩, fun _ ↦ rfl⟩

end Instruction

namespace ConstantPool

/-- The code refers to what was meant by some instructions, one by one. -/
def Renders (p : ConstantPool) (code : List UInt8) (is : List SymbolicInstruction) : Prop :=
  ∃ decoded, decode code = .ok decoded ∧
    decoded.map (Instruction.resolve p) = is.map Instruction.meant

/-- The code that is written for some instructions refers to what was meant exactly if every position
and every slot fits. -/
theorem renders_iff {p : ConstantPool} (h : p.Listed) {code : List UInt8}
    {is : List SymbolicInstruction}
    (his : ∀ i ∈ is, ∀ c, i.constant? = some c → c ∈ p.entries.toList)
    (hcode : decode code = .ok (is.map (·.shortened p))) :
    p.Renders code is ↔ ∀ i ∈ is, i.Fits p := by
  have hdecoded : p.Renders code is ↔
      (is.map (·.shortened p)).map (Instruction.resolve p) = is.map Instruction.meant := by
    refine ⟨fun ⟨decoded, hok, heq⟩ ↦ ?_, fun heq ↦ ⟨_, hcode, heq⟩⟩
    rwa [Except.ok.inj (hcode.symm.trans hok)]
  rw [hdecoded, List.map_map, List.map_inj_left]
  exact forall₂_congr fun i hi ↦ Instruction.resolve_shortened_iff h (his i hi)

end ConstantPool

end StackLowering
