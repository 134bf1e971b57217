import StackLowering.Proofs.Lowering.Construction
import StackLowering.Proofs.Machine.Execution

/-!
# Buffers at run time

The code of a buffer pushes the sizes of the header and of an element, runs the code of the count,
computes the number of bytes, calls the allocator, writes the count into the header and pushes the
address (`ConstructionPlan.code_lowerBuffer`). It is run here piece by piece, on a machine with
whatever host functions (`Host`), and the pieces are put together: after its count, a buffer makes one
call and one store (`ConstructionPlan.run_lowerBuffer`).

## What is asked of the count

Nothing but that its code completes and leaves one value on the two sizes
(`ConstructionPlan.CountRuns`). It may call functions, write to memory and use the same temporaries:
the slots are written after the count was run. That the two temporaries have different slots is shown
of every state in the body of a function, as long as slots have different numbers.

## Whether the elements fit

The number of bytes is computed modulo the width of pointers, while the header gets the low 32 bits of
the count. Neither is checked. So for large counts the header may claim more elements than there is
room for, and `ConstructionPlan.run_lowerBuffer_le_bytes_iff` says for which: in 32 bits exactly when
the number of bytes does not fit, and in 64 bits exactly when the rest of the size of the elements
leaves no room for the header.
-/

namespace StackLowering

/-! ### Slots -/

namespace LoweringState

variable {s s' : LoweringState}

/-- A state that is reached while the body of a function is lowered. -/
def InBody (s : LoweringState) : Prop := ∃ s₀ : LoweringState, Steps { s₀ with frame := .empty } s

/-- Later states are in the same body. -/
theorem InBody.steps (h : s.InBody) (hsteps : s.Steps s') : s'.InBody := by
  obtain ⟨s₀, h⟩ := h
  exact ⟨s₀, h.trans hsteps⟩

/-- In a body the slots follow each other, since it starts without any. -/
theorem InBody.sequential (h : s.InBody) : s.frame.Sequential := by
  obtain ⟨s₀, hsteps⟩ := h
  exact hsteps.sequential Frame.sequential_empty

end LoweringState

namespace ConstructionPlan

/-! ### The code of a buffer -/

variable {options : CompilerOptions} {size : UInt32} {count : Operand} {s : LoweringState}

/-- The code of the count of a buffer. -/
def countCode (count : Operand) (s : LoweringState) : List SymbolicInstruction :=
  (count.checkOrTrap addressType).code (countState s)

/-- The code of a buffer: the sizes, the count, the allocation and the header. -/
theorem code_lowerBuffer (options : CompilerOptions) (size : UInt32) (count : Operand)
    (s : LoweringState) :
    (lowerBuffer options size count).code s =
      [.const (.ofPointer headerSize.toUInt64 s.symbols.registry.width),
        .const (.ofPointer size.toUInt64 s.symbols.registry.width)] ++
      (countCode count s ++
      ([.teeLocal (countSlot s), .mul s.symbols.registry.width, .add s.symbols.registry.width,
        .call options.allocator 1, .teeLocal (addressSlot s), .getLocal (countSlot s)] ++
      (narrowCount s.symbols.registry.width ++
        [.store .i32 0 headerSize.toUInt8, .getLocal (addressSlot s)]))) := by
  simp only [lowerBuffer, Lower.code_bind, Lower.code_emitAll, Lower.code_discard]
  rfl

/-! ### Running the code -/

section Run

variable {h : Host} {c : Configuration} {w : Width} {stack : List Cell} {slots : UInt32 → Cell}
  {events : List Event}

theorem run_sizes (c : Configuration) (a b : UInt64) (w : Width) :
    h.run [.const (.ofPointer a w), .const (.ofPointer b w)] c =
      .ok ((c.push (.ofPointer a w)).push (.ofPointer b w)) := by
  simp only [Host.run, Host.step, Cell.ofConstant?_ofPointer]

/-- The slots after a count and an address were kept. -/
def keep (countSlot addressSlot : UInt32) (v p : UInt64) (w : Width) (slots : UInt32 → Cell) :
    UInt32 → Cell :=
  fun slot ↦ if slot = addressSlot then .ofPointer p w
    else if slot = countSlot then .ofPointer v w else slots slot

/-- The number of bytes is computed and passed to the allocator. The count and the address are kept,
and the count is pushed again. -/
theorem run_allocate {countSlot addressSlot : UInt32} (hne : countSlot ≠ addressSlot)
    {allocator : String} {base size v p : UInt64}
    (hcall : h.call? events allocator [.ofPointer (base + size * v) w] =
      some (some (.ofPointer p w))) :
    h.run [.teeLocal countSlot, .mul w, .add w, .call allocator 1, .teeLocal addressSlot,
        .getLocal countSlot]
      ⟨.ofPointer v w :: .ofPointer size w :: .ofPointer base w :: stack, slots, events⟩ =
      .ok ⟨.ofPointer v w :: .ofPointer p w :: stack, keep countSlot addressSlot v p w slots,
        events ++ [.call allocator [.ofPointer (base + size * v) w] (some (.ofPointer p w))]⟩ := by
  simp [Host.run, Host.step, Host.combine, Host.callWith, Configuration.setSlot,
    Configuration.push, Cell.mul?_ofPointer, Cell.add?_ofPointer, hcall, hne]
  rfl

/-- The count is cut off to 32 bits. -/
theorem run_narrowCount (v : UInt64) :
    h.run (narrowCount w) ⟨.ofPointer v w :: stack, slots, events⟩ =
      .ok ⟨.i32 v.toUInt32 :: stack, slots, events⟩ := by
  cases w <;> rfl

/-- The header is written to the address, which is then pushed again. -/
theorem run_storeHeader {addressSlot : UInt32} {address : UInt64} {a : Cell}
    (haddress : a.address? = some address) (header : UInt32) :
    h.run [.store .i32 0 headerSize.toUInt8, .getLocal addressSlot]
      ⟨.i32 header :: a :: stack, slots, events⟩ =
      .ok ⟨slots addressSlot :: stack, slots, events ++ [.store address (.i32 header)]⟩ := by
  simp [Host.run, Host.step, Host.storeAt, haddress, Cell.category, Configuration.record,
    Configuration.push]

/-- Run with the two sizes of a buffer on the stack, the code of the count completes and leaves one
value on top of them. -/
structure CountRuns (h : Host) (size : UInt32) (count : Operand) (s : LoweringState)
    (c c' : Configuration) (v : UInt64) : Prop where
  run : h.run (countCode count s)
    ((c.push (.ofPointer headerSize.toUInt64 s.symbols.registry.width)).push
      (.ofPointer size.toUInt64 s.symbols.registry.width)) = .ok c'
  stack : c'.stack = .ofPointer v s.symbols.registry.width ::
    .ofPointer size.toUInt64 s.symbols.registry.width ::
    .ofPointer headerSize.toUInt64 s.symbols.registry.width :: c.stack

/-- The number of bytes that are allocated for a buffer. -/
def bytes (size : UInt32) (v : UInt64) (w : Width) : Cell :=
  .ofPointer (headerSize.toUInt64 + size.toUInt64 * v) w

/-- After its count, a buffer is allocated, and its header is written. Its address is on the stack in
the end, and the count and the address are in the slots of the temporaries. -/
theorem run_code_lowerBuffer {options : CompilerOptions} {size : UInt32} {count : Operand}
    {s : LoweringState} (hne : countSlot s ≠ addressSlot s) {c' : Configuration} {v p address : UInt64}
    (hcount : CountRuns h size count s c c' v)
    (hcall : h.call? c'.events options.allocator [bytes size v s.symbols.registry.width] =
      some (some (.ofPointer p s.symbols.registry.width)))
    (haddress : (Cell.ofPointer p s.symbols.registry.width).address? = some address) :
    h.run ((lowerBuffer options size count).code s) c =
      .ok ⟨.ofPointer p s.symbols.registry.width :: c.stack,
        keep (countSlot s) (addressSlot s) v p s.symbols.registry.width c'.slots,
        c'.events ++ [.call options.allocator [bytes size v s.symbols.registry.width]
          (some (.ofPointer p s.symbols.registry.width)), .store address (.i32 v.toUInt32)]⟩ := by
  obtain ⟨stack, slots, events⟩ := c'
  obtain ⟨hrun, rfl⟩ := hcount
  rw [code_lowerBuffer, Host.run_append_ok (run_sizes c _ _ _), Host.run_append_ok hrun,
    Host.run_append_ok (run_allocate hne hcall), Host.run_append_ok (run_narrowCount v),
    run_storeHeader haddress, List.append_assoc]
  simp [keep, bytes]

/-- After its count, a buffer is allocated, and its header is written. Its address is on the stack in
the end. -/
theorem run_lowerBuffer {options : CompilerOptions} {size : UInt32} {count : Operand}
    {s : LoweringState} (hne : countSlot s ≠ addressSlot s) {c' : Configuration} {v p : UInt64}
    (hcount : CountRuns h size count s c c' v)
    (hcall : h.call? c'.events options.allocator [bytes size v s.symbols.registry.width] =
      some (some (.ofPointer p s.symbols.registry.width))) :
    ∃ c'' address, h.run ((lowerBuffer options size count).code s) c = .ok c'' ∧
      (Cell.ofPointer p s.symbols.registry.width).address? = some address ∧
      c''.stack = .ofPointer p s.symbols.registry.width :: c.stack ∧
      c''.events = c'.events ++
        [.call options.allocator [bytes size v s.symbols.registry.width]
          (some (.ofPointer p s.symbols.registry.width)), .store address (.i32 v.toUInt32)] := by
  have haddress := Cell.address?_ofPointer p s.symbols.registry.width
  exact ⟨_, _, run_code_lowerBuffer hne hcount hcall haddress, haddress, rfl, rfl⟩

end Run

/-! ### Enough room -/

/-- Whether the bytes for a number of elements and the header can be counted without the header going
past the end. In 64 bits this is asked of what is left of the size of the elements. -/
def HasRoom (size n : Nat) : Width → Prop
  | .w32 => 4 + size * n < UInt32.size
  | .w64 => 4 + size * n % UInt64.size < UInt64.size

/-- The number of elements in the header goes with the allocated bytes exactly if there is room. -/
theorem le_bytes_iff {size : UInt32} (hsize : size ∈ [1, 2, 4, 8]) (v : UInt64) (w : Width) :
    headerSize.toNat + size.toNat * v.toUInt32.toNat ≤ (bytes size v w).toNat ↔
      HasRoom size.toNat (Cell.ofPointer v w).toNat w := by
  have hv := v.toNat_lt
  rw [bytes, Cell.toNat_ofPointer, Cell.toNat_ofPointer, UInt64.toNat_add, UInt64.toNat_mul,
    UInt64.toNat_toUInt32, UInt32.toNat_toUInt64, show headerSize.toNat = 4 from rfl]
  simp only [List.mem_cons, List.not_mem_nil, or_false] at hsize
  cases w with
  | w32 =>
    simp only [Width.modulus, HasRoom, UInt32.size]
    rcases hsize with rfl | rfl | rfl | rfl <;> simp <;> omega
  | w64 =>
    -- the size divides the modulus, so what wraps around is more than what the header cuts off
    simp only [Width.modulus, HasRoom, UInt64.size]
    rcases hsize with rfl | rfl | rfl | rfl <;> simp <;> omega

/-- At run time, a buffer is allocated with as many bytes as its header claims exactly if there is
room for them. Otherwise the size wraps around, and the elements lie outside of the block. -/
theorem run_lowerBuffer_le_bytes_iff (options : CompilerOptions) {span : Span}
    {element : BufferElement} {count : Operand} {size : UInt32} {s s' : LoweringState} {o : Output}
    (hs : s.InBody)
    (hplan : (ofConstruction span (.buffer element count)).run.run s =
      ⟨.ok (.buffer size count), s', o⟩)
    (hslots : (countState s').frame.slots.size ≤ UInt32.size) {h : Host} {c c' : Configuration}
    {v p : UInt64} (hcount : CountRuns h size count s' c c' v)
    (hcall : h.call? c'.events options.allocator [bytes size v s'.symbols.registry.width] =
      some (some (.ofPointer p s'.symbols.registry.width))) :
    ∃ c'' address, h.run ((lowerBuffer options size count).code s') c = .ok c'' ∧
      (Cell.ofPointer p s'.symbols.registry.width).address? = some address ∧
      c''.events = c'.events ++
        [.call options.allocator [bytes size v s'.symbols.registry.width]
          (some (.ofPointer p s'.symbols.registry.width)), .store address (.i32 v.toUInt32)] ∧
      (headerSize.toNat + size.toNat * v.toUInt32.toNat ≤
          (bytes size v s'.symbols.registry.width).toNat ↔
        HasRoom size.toNat (Cell.ofPointer v s'.symbols.registry.width).toNat
          s'.symbols.registry.width) := by
  have hvalue : ((ofConstruction span (.buffer element count)).run.run s).value =
      .ok (.buffer size count) := by
    rw [hplan]
  have hsteps : s.Steps s' := by
    have h := steps_ofConstruction span (.buffer element count) s
    rwa [hplan] at h
  -- the two temporaries have different names, and so do not share a slot
  have hne : countSlot s' ≠ addressSlot s' :=
    (hs.steps hsteps).sequential.temporary_slot_ne (by decide) addressType addressType hslots
  obtain ⟨c'', address, hrun, haddress, -, hevents⟩ := run_lowerBuffer hne hcount hcall
  exact ⟨c'', address, hrun, haddress, hevents,
    le_bytes_iff (size_ofConstruction hvalue) v s'.symbols.registry.width⟩

/-- A string of almost two billion code units gets two bytes. -/
theorem run_lowerBuffer_le_bytes_iff_string :
    let s : LoweringState := { symbols := { registry := .withPrimitives .w32 } }
    let count := Operand.literal (.int 2147483647) .nowhere
    let h : Host := ⟨fun _ _ _ ↦ some (some (.i32 8)), fun _ _ _ v ↦ v⟩
    ∃ c, h.run ((lowerBuffer {} codeUnitSize count).code s) ⟨[], fun _ ↦ .i32 0, []⟩ = .ok c ∧
      c.events = [.call "malloc" [.i32 2] (some (.i32 8)), .store 8 (.i32 2147483647)] ∧
      ¬ headerSize.toNat + codeUnitSize.toNat * 2147483647 ≤ 2 := by
  intro s count h
  have hcode : countCode count s = [.const (.i32 2147483647)] := by
    decide +kernel
  have hcount : CountRuns h codeUnitSize count s ⟨[], fun _ ↦ .i32 0, []⟩
      ⟨[.i32 2147483647, .i32 2, .i32 4], fun _ ↦ .i32 0, []⟩ 2147483647 := by
    refine ⟨?_, rfl⟩
    rw [hcode]
    rfl
  have hplan : (ofConstruction .nowhere (.buffer .codeUnit count)).run.run s =
      ⟨.ok (.buffer codeUnitSize count), s, .empty⟩ := rfl
  obtain ⟨c, address, hrun, haddress, hevents, hbytes⟩ := run_lowerBuffer_le_bytes_iff {}
    (p := 8) ⟨s, .refl⟩ hplan (by decide +kernel) hcount rfl
  obtain rfl : 8 = address := Option.some.inj haddress
  have hroom : ¬ 4 + codeUnitSize.toNat * 2147483647 < UInt32.size := by decide
  exact ⟨c, hrun, hevents, fun hle ↦ hroom (hbytes.1 hle)⟩

end ConstructionPlan

end StackLowering
