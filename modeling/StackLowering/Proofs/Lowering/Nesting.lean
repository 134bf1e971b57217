import StackLowering.Proofs.Lowering.Buffer
import StackLowering.Proofs.Lowering.Trace

/-!
# Buffers inside of buffers

All buffers of a function keep their counts and their addresses in the same two slots, and the count of
a buffer may construct other buffers. Since a buffer writes the slots only after its count was run, and
reads them before anything else is, what its code does can be told from what the code of the count does
(`Operand.run_construct`), and by induction from what that of the innermost count does
(`Operand.Nest.run`).

The two slots have to be different. They are if the function declares nothing under the names of the
temporaries, since both are then declared together (`Trace.paired`). A name is any text, so that this
is not excluded by itself. They also are if the slots of the function have different numbers, whatever
its names are (`Trace.countSlot_ne`).

A construction may stand anywhere in a function, so that the statements start from a row of actions
from the beginning of the body (`Trace`), and not from the beginning itself. The effects of the count
are arbitrary: its calls and stores come first, and then those of the buffer, in this order.
-/

namespace StackLowering

open ConstructionPlan Relation

variable {options : CompilerOptions} {Uses : NameUse → Prop}

/-! ### The slots of the temporaries -/

/-- An action declares both temporaries of buffers or none. -/
theorem Action.paired (hnames : ∀ name, Uses (.declare name) → ¬ IsTemporary name) {p p' : Progress}
    (h : Action options Uses p p') (hp : p.state.frame.Paired) : p'.state.frame.Paired := by
  cases h with
  | line | symbols | report | annotate | write => exact hp
  | parameter name hname type span => exact hp.declare (hnames name hname) type span
  | declare name hname hnew type span => exact hp.allocate (hnames name hname) type span
  | temporaries => exact hp.temporaries addressType addressType

/-- Some actions declare both temporaries of buffers or none. -/
theorem Trace.paired (hnames : ∀ name, Uses (.declare name) → ¬ IsTemporary name) {p p' : Progress}
    (h : Trace options Uses p p') (hp : p.state.frame.Paired) : p'.state.frame.Paired := by
  induction h with
  | refl => exact hp
  | tail _ haction ih => exact haction.paired hnames ih

/-- Wherever a function is lowered, the count and the address of a buffer have different slots, if the
function declares nothing under the names of the temporaries, or if the slots have different
numbers. -/
theorem Trace.countSlot_ne {s₀ : LoweringState} {p : Progress}
    (hp : Trace options Uses ⟨Callable.bodyStart s₀, .empty⟩ p)
    (hslots : (∀ name, Uses (.declare name) → ¬ IsTemporary name) ∨
      (countState p.state).frame.slots.size ≤ UInt32.size) :
    countSlot p.state ≠ addressSlot p.state := by
  rcases hslots with hnames | hsize
  · exact (Trace.paired hnames hp Frame.paired_empty).temporary_slot_ne addressType addressType
  · have hsequential : p.state.frame.Sequential := (Trace.steps hp).sequential Frame.sequential_empty
    exact hsequential.temporary_slot_ne (by decide) addressType addressType hsize

/-! ### The code of a construction -/

namespace Operand

variable {name : String} {typeArgs : Option (List TypeExpr)} {args : Option (List Operand)}
  {element : BufferElement} {count : Operand} {span : Span} {s s' : LoweringState} {size : UInt32}
  {o : Output}

/-- A planned buffer is lowered as such, and its value is an address. -/
theorem run_infer_construct (options : CompilerOptions)
    (hshape : bufferShape? name typeArgs args = some (element, count))
    (hplan : (ofConstruction span (.buffer element count)).run.run { s with line := span.line } =
      ⟨.ok (.buffer size count), s', .empty⟩) (node : NodeId) :
    (construct options node (some name) typeArgs args span).infer.run.run s =
      ⟨.ok (.computed addressType), ((lowerBuffer options size count).run s').state,
        { findings := [(node, addressType)] } ++
          ((lowerBuffer options size count).run s').output⟩ := by
  have hclass : Construction.classify s.symbols.registry s.frame (some name) typeArgs args =
      .buffer element count := by
    simp [Construction.classify, hshape]
  have hlower : (ConstructionPlan.lower options (args.getD []) span (.buffer size count)).run s' =
      ⟨(), ((lowerBuffer options size count).run s').state,
        ((lowerBuffer options size count).run s').output⟩ := rfl
  unfold construct ofInference
  rw [Attempt.run_lift_bind (x := Lower.setLine span.line) _ (s := s) rfl,
    Attempt.run_lift_bind (x := Lower.annotate node addressType) _ rfl,
    Attempt.run_lift_bind (x := Lower.get) _ rfl]
  dsimp only
  rw [hclass, Attempt.run_lift_bind _ hplan]
  dsimp only
  rw [Attempt.run_lift_bind _ hlower]
  show Outcome.mk _ _ ({ findings := [(node, addressType)] } ++ (_ ++ Output.empty)) = _
  rw [Output.append_empty]
  rfl

/-- A value of the expected type needs no conversion. -/
theorem code_checkOrTrap {x : Attempt ValueInfo} {expected : Fingerprint}
    (hrun : (ofInference span x).infer.run.run s = ⟨.ok (.computed expected), s', o⟩) :
    ((ofInference span x).checkOrTrap expected).code s = o.instructions := by
  have hconvert : convert span expected (.computed expected) = pure (.computed expected) := if_pos rfl
  have hcheck : ((ofInference span x).check expected).run.run s =
      ⟨.ok (.computed expected), s', o⟩ := by
    show ((ofInference span x).infer >>= convert span expected).run.run s = _
    rw [Attempt.run_bind_ok _ hrun, hconvert]
    show Outcome.mk _ _ (o ++ Output.empty) = _
    rw [Output.append_empty]
    rfl
  rw [checkOrTrap, Lower.code_bind, hcheck, Lower.code, hcheck]
  exact List.append_nil _

/-- The code of a buffer is the same whether an address is expected in its place or not. -/
theorem code_construct (options : CompilerOptions)
    (hshape : bufferShape? name typeArgs args = some (element, count))
    (hplan : (ofConstruction span (.buffer element count)).run.run { s with line := span.line } =
      ⟨.ok (.buffer size count), s', .empty⟩) (node : NodeId) :
    Lower.code (construct options node (some name) typeArgs args span).infer.run s =
        (lowerBuffer options size count).code s' ∧
      ((construct options node (some name) typeArgs args span).checkOrTrap addressType).code s =
        (lowerBuffer options size count).code s' := by
  have hrun := run_infer_construct options hshape hplan node
  have hcode : Output.instructions ({ findings := [(node, addressType)] } ++
      ((lowerBuffer options size count).run s').output) =
        (lowerBuffer options size count).code s' := rfl
  refine ⟨?_, ?_⟩
  · rw [Lower.code, hrun, hcode]
  · rw [construct, code_checkOrTrap hrun, hcode]

end Operand

/-! ### Running the code -/

/-- The number of bytes of a buffer is computed at pointer width. -/
theorem ConstructionPlan.bytes_eq_ofSize (size : UInt32) (v : UInt64) (w : Width) :
    bytes size v w = .ofSize (4 + size.toNat * (Cell.ofPointer v w).toNat) w := by
  have hdvd : w.modulus ∣ 2 ^ 64 := by cases w <;> decide
  refine Cell.eq_of_toNat_eq (by cases w <;> rfl) ?_
  rw [Cell.toNat_ofSize, bytes, Cell.toNat_ofPointer, Cell.toNat_ofPointer, UInt64.toNat_add,
    UInt64.toNat_mul, UInt32.toNat_toUInt64, Nat.add_mod_mod, Nat.mod_mod_of_dvd _ hdvd,
    ← Nat.add_mod_mod 4, Nat.mul_mod_mod, Nat.add_mod_mod]
  rfl

/-- Code completes and leaves one more integer of a width on the stack. -/
structure Host.Leaves (h : Host) (w : Width) (code : List SymbolicInstruction) (c : Configuration)
    (v : Cell) (c' : Configuration) : Prop where
  run : h.run code c = .ok c'
  stack : c'.stack = v :: c.stack
  category : v.category = w.category

/-- The sizes of a header and of an element on top of the stack. -/
def Configuration.pushSizes (c : Configuration) (size : UInt32) (w : Width) : Configuration :=
  (c.push (.ofPointer headerSize.toUInt64 w)).push (.ofPointer size.toUInt64 w)

/-- The events of a buffer after those of its count: one call of the allocator, and one write of the
number of elements. -/
def bufferEvents (allocator : String) (size : UInt32) (w : Width) (v q : Cell) : List Event :=
  [.call allocator [.ofSize (4 + size.toNat * v.toNat) w] (some q),
    .store (UInt64.ofNat q.toNat) (.i32 (UInt32.ofNat v.toNat))]

namespace Operand

variable {name : String} {typeArgs : Option (List TypeExpr)} {args : Option (List Operand)}
  {element : BufferElement} {count : Operand} {span : Span} {s s' : LoweringState} {size : UInt32}
  {o : Output} {h : Host} {c c' : Configuration} {v q : Cell}

/-- If the code of its count leaves a number of elements on the stack, the code of a buffer then
allocates it and writes its header, and leaves its address on the stack. -/
theorem leaves_lowerBuffer (options : CompilerOptions) (hne : countSlot s ≠ addressSlot s)
    (hcount : h.Leaves s.symbols.registry.width (countCode count s)
      (c.pushSizes size s.symbols.registry.width) v c')
    (hq : q.category = s.symbols.registry.width.category)
    (hcall : h.call? c'.events options.allocator
      [.ofSize (4 + size.toNat * v.toNat) s.symbols.registry.width] = some (some q)) :
    ∃ c'', h.Leaves s.symbols.registry.width ((lowerBuffer options size count).code s) c q c'' ∧
      c''.events = c'.events ++ bufferEvents options.allocator size s.symbols.registry.width v q ∧
      ∀ slot, slot ≠ countSlot s → slot ≠ addressSlot s → c''.slots slot = c'.slots slot := by
  obtain ⟨value, rfl⟩ := Cell.category_eq_iff_ofPointer.1 hcount.category
  obtain ⟨address, rfl⟩ := Cell.category_eq_iff_ofPointer.1 hq
  rw [← bytes_eq_ofSize] at hcall
  have hrun := run_code_lowerBuffer hne ⟨hcount.run, hcount.stack⟩ hcall (Cell.address?_ofPointer _ _)
  refine ⟨_, ⟨hrun, rfl, hq⟩, ?_, fun slot hcountSlot haddressSlot ↦ ?_⟩
  · rw [bufferEvents, ← bytes_eq_ofSize, ← Cell.toUInt32_eq_ofNat]
  · exact (if_neg haddressSlot).trans (if_neg hcountSlot)

/-- Wherever a function constructs a buffer, its code runs the code of the count, calls the allocator
once and writes the header of the buffer, whatever the code of the count does. It leaves the address
of the buffer on the stack, and writes no slots but the two that the buffers of the function share. The
bytes are counted with the size of a code unit, or with that of the layout of the element type. -/
theorem run_construct {s₀ : LoweringState} {p : Progress}
    (hp : Trace options Uses ⟨Callable.bodyStart s₀, .empty⟩ p)
    (hslots : (∀ name, Uses (.declare name) → ¬ IsTemporary name) ∨
      (countState p.state).frame.slots.size ≤ UInt32.size)
    (hshape : bufferShape? name typeArgs args = some (element, count))
    (hplan : (ofConstruction span (.buffer element count)).run.run
      { p.state with line := span.line } = ⟨.ok (.buffer size count), s', o⟩) (node : NodeId)
    (hcount : h.Leaves s'.symbols.registry.width (countCode count s')
      (c.pushSizes size s'.symbols.registry.width) v c')
    (hq : q.category = s'.symbols.registry.width.category)
    (hcall : h.call? c'.events options.allocator
      [.ofSize (4 + size.toNat * v.toNat) s'.symbols.registry.width] = some (some q)) :
    element.Sized p.state.symbols s'.symbols size ∧
    ∃ c'', h.Leaves s'.symbols.registry.width
        (Lower.code (construct options node (some name) typeArgs args span).infer.run p.state)
        c q c'' ∧
      h.Leaves s'.symbols.registry.width
        (((construct options node (some name) typeArgs args span).checkOrTrap addressType).code p.state)
        c q c'' ∧
      c''.events = c'.events ++ bufferEvents options.allocator size s'.symbols.registry.width v q ∧
      ∀ slot, slot ≠ countSlot s' → slot ≠ addressSlot s' → c''.slots slot = c'.slots slot := by
  have hsized : element.Sized p.state.symbols s'.symbols size := by
    have h := sized_ofConstruction (s := { p.state with line := span.line }) (congrArg Outcome.value hplan)
    rwa [hplan] at h
  -- planning does not touch the frame
  obtain ⟨-, hframe, rfl⟩ := (quiet_ofConstruction span (.buffer element count)).of_run hplan
  have hne : countSlot s' ≠ addressSlot s' := by
    rw [countSlot, addressSlot, hframe]
    exact Trace.countSlot_ne hp hslots
  obtain ⟨c'', hleaves, hevents, hkept⟩ := leaves_lowerBuffer options hne hcount hq hcall
  obtain ⟨hinfer, hcheck⟩ := code_construct options hshape hplan node
  rw [hinfer, hcheck]
  exact ⟨hsized, c'', hleaves, hleaves, hevents, hkept⟩

/-- An array of as many floats as the address of a string says. It overwrites the two slots that the
string uses, and its elements have eight bytes each. -/
theorem run_construct_array :
    let double : TypeExpr := .apply ⟨"double", .nowhere⟩ [] .nowhere
    let s : LoweringState := Callable.bodyStart { symbols := { registry := .withPrimitives .w32 } }
    let inner := construct {} 0 (some "String") none (some [.literal (.int 3) .nowhere]) .nowhere
    let outer := construct {} 1 (some "Array") (some [double]) (some [inner]) .nowhere
    let h : Host := ⟨fun events _ _ ↦ some (some (.i32 (8 + 8 * events.length.toUInt32))),
      fun _ _ _ v ↦ v⟩
    (BufferElement.declared double).Sized s.symbols s.symbols 8 ∧
    ∃ c, h.Leaves .w32 (Lower.code outer.infer.run s) ⟨[], fun _ ↦ .i32 0, []⟩ (.i32 24) c ∧
      c.events = [.call "malloc" [.i32 10] (some (.i32 8)), .store 8 (.i32 3),
        .call "malloc" [.i32 68] (some (.i32 24)), .store 24 (.i32 8)] := by
  intro double s inner outer h
  have hplan : (ofConstruction .nowhere (.buffer (.declared double) inner)).run.run
      { s with line := Span.nowhere.line } =
        ⟨.ok (.buffer 8 inner), { s with line := Span.nowhere.line }, .empty⟩ := rfl
  have hcode : countCode inner { s with line := Span.nowhere.line } = [.const (.i32 4), .const (.i32 2),
      .const (.i32 3), .teeLocal 0, .mul .w32, .add .w32, .call "malloc" 1, .teeLocal 1, .getLocal 0,
      .store .i32 0 4, .getLocal 1] := by
    decide +kernel
  have hcount : h.Leaves .w32 (countCode inner { s with line := Span.nowhere.line })
      (Configuration.pushSizes ⟨[], fun _ ↦ .i32 0, []⟩ 8 .w32) (.i32 8)
      ⟨[.i32 8, .i32 8, .i32 4], fun slot ↦ if slot = 1 then .i32 8 else if slot = 0 then .i32 3
        else .i32 0, [.call "malloc" [.i32 10] (some (.i32 8)), .store 8 (.i32 3)]⟩ := by
    refine ⟨?_, rfl, rfl⟩
    rw [hcode]
    rfl
  have hstart : Trace {} (fun _ ↦ False) ⟨s, .empty⟩ ⟨s, .empty⟩ := .refl
  obtain ⟨hsized, c, hleaves, -, hevents, -⟩ := run_construct (q := .i32 24) hstart
    (.inl fun _ h ↦ h.elim) (show bufferShape? "Array" (some [double]) (some [inner]) =
      some (.declared double, inner) from rfl) hplan 1 hcount rfl rfl
  exact ⟨hsized, c, hleaves, hevents⟩

end Operand

/-! ### Nested buffers -/

namespace ConstructionPlan

theorem countSlot_countState (s : LoweringState) : countSlot (countState s) = countSlot s := by
  obtain ⟨v, hv, hslot⟩ := find?_countSlot (.refl : (countState s).Steps (countState s))
  rw [countSlot, Frame.temporary_eq_of_some hv, hslot]

theorem addressSlot_countState (s : LoweringState) : addressSlot (countState s) = addressSlot s := by
  obtain ⟨v, hv, -⟩ := find?_countSlot (.refl : (countState s).Steps (countState s))
  obtain ⟨v', hv', hslot⟩ := find?_addressSlot (.refl : (countState s).Steps (countState s))
  rw [addressSlot, Frame.temporary_eq_of_some hv, Frame.temporary_eq_of_some hv', hslot]

end ConstructionPlan

/-- A buffer, the count of which is a buffer, and so on. The sizes of the elements are listed from the
outside to the inside; the innermost count may be anything. -/
inductive Operand.Nest (options : CompilerOptions) :
    Operand → LoweringState → List UInt32 → Operand → LoweringState → Prop
  | count (count : Operand) (s : LoweringState) : Nest options count s [] count s
  | buffer {name : String} {typeArgs : Option (List TypeExpr)} {args : Option (List Operand)}
      {element : BufferElement} {inner count : Operand} {span : Span} {s s' s'' : LoweringState}
      {size : UInt32} {sizes : List UInt32}
      (hshape : bufferShape? name typeArgs args = some (element, inner))
      (hplan : (ofConstruction span (.buffer element inner)).run.run { s with line := span.line } =
        ⟨.ok (.buffer size inner), s', .empty⟩) (node : NodeId)
      (hinner : Nest options inner (countState s') sizes count s'') :
      Nest options (construct options node (some name) typeArgs args span) s (size :: sizes) count s''

/-- Nested buffers are allocated from the inside to the outside, each with the address of the one
before for its count. The events and the count before lead to the events and the address after. -/
inductive Host.Allocates (h : Host) (allocator : String) (w : Width) :
    List UInt32 → List Event → Cell → List Event → Cell → Prop
  | nil (events : List Event) (v : Cell) : Allocates h allocator w [] events v events v
  | cons {size : UInt32} {sizes : List UInt32} {events events' : List Event} {v v' q : Cell}
      (hinner : Allocates h allocator w sizes events v events' v')
      (hcall : h.call? events' allocator [.ofSize (4 + size.toNat * v'.toNat) w] = some (some q))
      (hq : q.category = w.category) :
      Allocates h allocator w (size :: sizes) events v (events' ++ bufferEvents allocator size w v' q) q

/-- After the innermost count, the code of nested buffers allocates one after the other, and leaves the
address of the outermost one on the stack. -/
theorem Operand.Nest.leaves {o count : Operand} {s s' : LoweringState} {sizes : List UInt32}
    (hnest : Nest options o s sizes count s') (hs : s.symbols.registry.Built)
    (hne : countSlot s ≠ addressSlot s) {w : Width} (hw : s.symbols.registry.width = w) {h : Host}
    {c c' : Configuration} {v q : Cell} {events : List Event}
    (hcount : h.Leaves w ((count.checkOrTrap addressType).code s')
      (sizes.foldl (·.pushSizes · w) c) v c')
    (hallocates : h.Allocates options.allocator w sizes c'.events v events q) :
    ∃ c'', h.Leaves w ((o.checkOrTrap addressType).code s) c q c'' ∧ c''.events = events := by
  induction hnest generalizing c events q with
  | count count s =>
    cases hallocates
    exact ⟨c', hcount, rfl⟩
  | @buffer name typeArgs args element inner count span s s' s'' size sizes hshape hplan node hinner ih =>
    subst hw
    obtain ⟨hsteps, hframe, -⟩ := (quiet_ofConstruction span (.buffer element inner)).of_run hplan
    have hbuilt : s'.symbols.registry.Built := Symbols.Steps.built hsteps hs
    have hwidth : s'.symbols.registry.width = s.symbols.registry.width :=
      (Symbols.Steps.extends hsteps hs).registry.width_eq
    have hne' : countSlot s' ≠ addressSlot s' := by
      rwa [countSlot, addressSlot, hframe]
    cases hallocates with
    | cons hbefore hcall hq =>
      -- the inner buffers use the same two slots
      obtain ⟨c₁, hcount₁, rfl⟩ := ih hbuilt
        (by rwa [countSlot_countState, addressSlot_countState]) hwidth hcount hbefore
      rw [← hwidth] at hcount₁ hq hcall ⊢
      obtain ⟨c'', hleaves, hevents, -⟩ := leaves_lowerBuffer options hne' hcount₁ hq hcall
      rw [(code_construct options hshape hplan node).2]
      exact ⟨c'', hleaves, hevents⟩

end StackLowering
