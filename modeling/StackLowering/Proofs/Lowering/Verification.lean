import StackLowering.Lowering.Compilation
import StackLowering.Proofs.Machine.Assembly
import StackLowering.Proofs.Machine.Shape

/-!
# Verification of compiled functions

A compiled function can be verified: its bytes are decoded, and the instructions are checked for
their use of the stack (`CompiledFunction.verify`). What they refer to is found in the pool, among the
types of the slots and in the registry.

Lowering knows its instructions before they have bytes and places. As long as the pool and the frame
fit into 16 bits, the check of the symbolic code is as good as that of the bytes
(`CodeContext.check?_indexed`).

## What the check has to know

The check asks what a constant, a slot and a callee stand for, and `CodeContext` answers: once for
symbolic instructions and once for those that code is decoded to. A function has a signature only if
its parameters and its result can be stored, `void` as the result apart (`Registry.signature?`), so
that code that calls any other function does not pass. The allocator is known by its symbol, whatever
is registered there.

A place in code is the low half of a number of 32 bits. In an indexed pool of at most 65536 entries the
low half leads to the constant that was meant (`CodeContext.get?_place`); for slots the number of slots
plays that part. Nothing else is different in the two forms of an instruction.
-/

namespace StackLowering

/-! ### What code refers to -/

namespace Registry

/-- The category of the values of a type. -/
def category? (r : Registry) (type : Fingerprint) : Option Category :=
  (r.layout? type).map (·.category)

/-- The category of the result of a function, if it has one. -/
def resultCategory? (r : Registry) (returns : Fingerprint) : Option Category :=
  if returns = voidType then none else r.category? returns

/-- What a function takes and leaves; a constructor takes an address before its parameters. A type
without a layout is allowed for no parameter, and only `void` is for the result. -/
def signature? (r : Registry) (f : Callable) : Option Signature :=
  if f.returns = voidType ∨ (r.category? f.returns).isSome then
    (f.params.mapM fun p ↦ r.category? p.type).map fun params ↦
      ⟨if f.isConstructor then r.width.category :: params else params, r.resultCategory? f.returns⟩
  else none

/-- What the function with a symbol takes and leaves. The allocator turns a size into an address,
whatever is registered under its symbol. -/
def calleeSignature? (r : Registry) (allocator symbol : String) : Option Signature :=
  if symbol = allocator then some ⟨[r.width.category], some r.width.category⟩
  else (r.functionNamed? symbol).bind r.signature?

end Registry

/-- What the code of a function is checked against. -/
structure CodeContext where
  /-- The symbol of the allocator. -/
  allocator : String
  /-- The registered types and functions. -/
  registry : Registry
  /-- The types of the slots. -/
  locals : Array Fingerprint
  /-- The type of the result. -/
  returns : Fingerprint

namespace CodeContext

/-- What symbolic instructions refer to. -/
def symbolic (c : CodeContext) : StackContext Constant String UInt32 where
  constant? := Constant.category?
  callee? := c.registry.calleeSignature? c.allocator
  slot? slot := c.locals[slot.toNat]?.bind c.registry.category?
  result? := c.registry.resultCategory? c.returns
  address := c.registry.width.category

/-- What decoded instructions refer to. -/
def indexed (c : CodeContext) (pool : ConstantPool) : StackContext UInt16 UInt16 UInt16 where
  constant? index := (pool.get? index.toUInt32).bind Constant.category?
  callee? index := (pool.symbol? index.toUInt32).bind (c.registry.calleeSignature? c.allocator)
  slot? slot := c.locals[slot.toNat]?.bind c.registry.category?
  result? := c.registry.resultCategory? c.returns
  address := c.registry.width.category

end CodeContext

/-- Whether the code of a compiled function can be decoded and uses the stack as its instructions
demand. The function itself has to be registered, so that the category of its result is known. -/
def CompiledFunction.verify (allocator : String) (r : Registry) (pool : ConstantPool)
    (f : CompiledFunction) : Bool :=
  match decode f.chunk.code, r.functionNamed? f.name with
  | .ok code, some callee =>
    (CodeContext.indexed ⟨allocator, r, f.locals, callee.returns⟩ pool).check? code
  | _, _ => false

/-! ### From symbols to places -/

/-- The low half of a number below 65536 is that number. -/
private theorem toUInt32_toUInt16_of_lt {n : UInt32} (h : n.toNat < 65536) :
    n.toUInt16.toUInt32 = n := by
  apply UInt32.toNat_inj.1
  simp only [UInt16.toNat_toUInt32, UInt32.toNat_toUInt16]
  omega

namespace CodeContext

variable {c : CodeContext} {pool : ConstantPool}

/-- The place of a constant still leads to it after it was cut off, if the pool is small enough. -/
theorem get?_place (hpool : pool.Indexed) (hsize : pool.size ≤ 65536) {constant : Constant}
    (hplace : (pool.index[constant]?).isSome) :
    pool.get? (pool.place constant).toUInt16.toUInt32 = some constant := by
  obtain ⟨place, hplace⟩ := Option.isSome_iff_exists.1 hplace
  have hget : pool.get? place = some constant := hpool.index_iff.1 hplace
  have hlt : place.toNat < pool.size := by
    obtain ⟨hlt, -⟩ := Array.getElem?_eq_some_iff.1 hget
    exact hlt
  rw [ConstantPool.place_eq hplace, toUInt32_toUInt16_of_lt (by omega), hget]

/-- A symbolic instruction runs as what is left of it in code. -/
theorem step?_indexed (hpool : pool.Indexed) (hsize : pool.size ≤ 65536)
    (hlocals : c.locals.size ≤ 65536) {i : SymbolicInstruction}
    (hplace : ∀ constant, i.constant? = some constant → (pool.index[constant]?).isSome)
    {s s' : Shape} (h : c.symbolic.step? i s = some s') :
    (c.indexed pool).step? (i.indexed pool).truncated s = some s' := by
  have hslot {slot : UInt32} {category : Category} (hc : c.symbolic.slot? slot = some category) :
      (c.indexed pool).slot? slot.toUInt16 = some category := by
    obtain ⟨type, htype, hcategory⟩ := Option.bind_eq_some_iff.1 hc
    obtain ⟨hlt, -⟩ := Array.getElem?_eq_some_iff.1 htype
    have hnat : slot.toUInt16.toNat = slot.toNat := by
      rw [UInt32.toNat_toUInt16]
      omega
    exact Option.bind_eq_some_iff.2 ⟨type, by rw [hnat, htype], hcategory⟩
  -- instructions without a reference are the same in both forms
  cases i with
  | const constant =>
    obtain ⟨category, hc, rfl⟩ := Option.map_eq_some_iff.1 h
    refine Option.map_eq_some_iff.2 ⟨category, ?_, rfl⟩
    exact Option.bind_eq_some_iff.2 ⟨constant, get?_place hpool hsize (hplace _ rfl), hc⟩
  | call callee argc =>
    obtain ⟨signature, hc, hcall⟩ := Option.bind_eq_some_iff.1 h
    refine Option.bind_eq_some_iff.2 ⟨signature, ?_, hcall⟩
    refine Option.bind_eq_some_iff.2 ⟨callee, ?_, hc⟩
    change pool.symbol? (pool.place (.symbol callee)).toUInt16.toUInt32 = some callee
    rw [ConstantPool.symbol?, get?_place hpool hsize (hplace _ rfl)]
  | getLocal slot =>
    obtain ⟨category, hc, rfl⟩ := Option.map_eq_some_iff.1 h
    exact Option.map_eq_some_iff.2 ⟨category, hslot hc, rfl⟩
  | setLocal slot =>
    obtain ⟨category, hc, hpop⟩ := Option.bind_eq_some_iff.1 h
    exact Option.bind_eq_some_iff.2 ⟨category, hslot hc, hpop⟩
  | teeLocal slot =>
    obtain ⟨category, hc, hpop⟩ := Option.bind_eq_some_iff.1 h
    exact Option.bind_eq_some_iff.2 ⟨category, hslot hc, hpop⟩
  | _ => exact h

/-- Symbolic code that passes the check passes it in its decoded form. -/
theorem check?_indexed (hpool : pool.Indexed) (hsize : pool.size ≤ 65536)
    (hlocals : c.locals.size ≤ 65536) {code : List SymbolicInstruction}
    (hplace : ∀ i ∈ code, ∀ constant, i.constant? = some constant →
      (pool.index[constant]?).isSome)
    (h : c.symbolic.check? code = true) :
    (c.indexed pool).check? (code.map fun i ↦ (i.indexed pool).truncated) = true :=
  StackContext.check?_map
    (fun i hi _ _ hstep ↦ step?_indexed hpool hsize hlocals (hplace i hi) hstep) h

end CodeContext

end StackLowering
