import StackLowering.Machine.Instruction

/-!
# Execution

What code does when it runs. A configuration holds the stack, the slots of the function and the events
so far, which are the calls and the writes to memory. Integers are held by their bits, and arithmetic
wraps around. What a call returns is up to a host, which knows all earlier events, and so is the
arithmetic of floating-point numbers.

Code runs instruction by instruction (`Host.run`), up to a return, a trap or a fault. It has neither
jumps nor loops, so that running is a recursion on the code, and running two pieces of code in a row is
running one and then the other (`Host.run_append_ok`).

A host is a function of the events and of the arguments, so that it answers in the same way whenever
the same has happened. It is a parameter of all statements about running code: they hold whatever the
called functions do to the memory, as long as they return.

Cells of pointer width come up wherever addresses are computed. They are made from 64-bit numbers by
cutting off (`Cell.ofPointer`), and arithmetic on them is that on the numbers.
-/

namespace StackLowering

/-- The number of sizes and addresses of a width. -/
def Width.modulus : Width → Nat
  | .w32 => UInt32.size
  | .w64 => UInt64.size

/-! ### Cells -/

/-- What a cell of the stack or a slot holds, as bits. -/
inductive Cell where
  | i32 (bits : UInt32)
  | i64 (bits : UInt64)
  | f32 (bits : UInt32)
  | f64 (bits : UInt64)
deriving DecidableEq, Repr

namespace Cell

/-- The category of the value. -/
def category : Cell → Category
  | i32 _ => .i32
  | i64 _ => .i64
  | f32 _ => .f32
  | f64 _ => .f64

/-- The bits as a number. -/
def toNat : Cell → Nat
  | i32 bits | f32 bits => bits.toNat
  | i64 bits | f64 bits => bits.toNat

/-- The cell that a constant is pushed as; a symbol is no value. -/
def ofConstant? : Constant → Option Cell
  | .i32 value => some (i32 value.toUInt32)
  | .i64 value => some (i64 value.toUInt64)
  | .f32 bits => some (f32 bits)
  | .f64 bits => some (f64 bits)
  | .symbol _ => none

/-- The low bits of a number as a size or an address. -/
def ofPointer (value : UInt64) : Width → Cell
  | .w32 => i32 value.toUInt32
  | .w64 => i64 value

/-- A number as a size or an address, of which the low bits are kept. -/
def ofSize (n : Nat) (w : Width) : Cell := ofPointer (UInt64.ofNat n) w

/-- The address that an integer stands for. -/
def address? : Cell → Option UInt64
  | i32 bits => some bits.toUInt64
  | i64 bits => some bits
  | f32 _ | f64 _ => none

/-- The sum of two integers of a width. -/
def add? : Width → Cell → Cell → Option Cell
  | .w32, i32 a, i32 b => some (i32 (a + b))
  | .w64, i64 a, i64 b => some (i64 (a + b))
  | _, _, _ => none

/-- The product of two integers of a width. -/
def mul? : Width → Cell → Cell → Option Cell
  | .w32, i32 a, i32 b => some (i32 (a * b))
  | .w64, i64 a, i64 b => some (i64 (a * b))
  | _, _, _ => none

/-- A 32-bit integer after a change of its bits. -/
def map32? (f : UInt32 → UInt32) : Cell → Option Cell
  | i32 bits => some (i32 (f bits))
  | _ => none

/-- Whether an integer of a width is not zero. -/
def nonZero? : Width → Cell → Option Cell
  | .w32, i32 bits => some (i32 (if bits = 0 then 0 else 1))
  | .w64, i64 bits => some (i32 (if bits = 0 then 0 else 1))
  | _, _ => none

/-- An integer as an integer of another category: its low bits, or its bits extended by the sign or by
zeros. -/
def convertInteger? (isSigned : Bool) : Cell → Category → Option Cell
  | i32 bits, .i64 =>
    some (i64 (if isSigned then bits.toInt32.toInt64.toUInt64 else bits.toUInt64))
  | i64 bits, .i32 => some (i32 bits.toUInt32)
  | i32 bits, .i32 => some (i32 bits)
  | i64 bits, .i64 => some (i64 bits)
  | _, _ => none

/-! #### Pointers -/

/-- The pointers are the integers of pointer width. -/
theorem category_eq_iff_ofPointer {c : Cell} {w : Width} :
    c.category = w.category ↔ ∃ value, c = ofPointer value w := by
  constructor
  · intro h
    cases w with
    | w32 =>
      cases c with
      | i32 bits => exact ⟨bits.toUInt64, congrArg i32 bits.toUInt32_toUInt64.symm⟩
      | _ => simp [category, Width.category] at h
    | w64 =>
      cases c with
      | i64 bits => exact ⟨bits, rfl⟩
      | _ => simp [category, Width.category] at h
  · rintro ⟨value, rfl⟩
    cases w <;> rfl

/-- A pointer stands for the address that is its value. -/
theorem address?_ofPointer (value : UInt64) (w : Width) :
    (ofPointer value w).address? = some (UInt64.ofNat (ofPointer value w).toNat) := by
  cases w with
  | w32 => exact congrArg some (UInt64.ofNat_uInt32ToNat _).symm
  | w64 => exact congrArg some UInt64.ofNat_toNat.symm

/-- A cell of pointer width holds a number up to the modulus of the width. -/
theorem toNat_ofPointer (value : UInt64) (w : Width) :
    (ofPointer value w).toNat = value.toNat % w.modulus := by
  cases w with
  | w32 => exact value.toNat_toUInt32
  | w64 => exact (Nat.mod_eq_of_lt value.toNat_lt).symm

/-- The low half of a pointer is the low half of its value. -/
theorem toUInt32_eq_ofNat (value : UInt64) (w : Width) :
    value.toUInt32 = UInt32.ofNat (ofPointer value w).toNat := by
  rw [← UInt32.toNat_inj, UInt64.toNat_toUInt32, UInt32.toNat_ofNat', toNat_ofPointer]
  cases w with
  | w32 => exact (Nat.mod_mod _ _).symm
  | w64 => rw [show value.toNat % Width.w64.modulus = value.toNat from Nat.mod_eq_of_lt value.toNat_lt]

/-- A size that is larger than a cell of pointer width wraps around. -/
theorem toNat_ofSize (n : Nat) (w : Width) : (ofSize n w).toNat = n % w.modulus := by
  rw [ofSize, toNat_ofPointer, UInt64.toNat_ofNat']
  cases w with
  | w32 => exact Nat.mod_mod_of_dvd n (by decide)
  | w64 => exact Nat.mod_mod n _

/-- An integer is told by its category and its value. -/
theorem eq_of_toNat_eq {a b : Cell} (hcategory : a.category = b.category) (h : a.toNat = b.toNat) :
    a = b := by
  cases a <;> cases b <;> simp_all [category, toNat, UInt32.toNat_inj, UInt64.toNat_inj]

/-- The constant of pointer width is loaded as the cell of pointer width. -/
theorem ofConstant?_ofPointer (value : UInt64) (w : Width) :
    ofConstant? (.ofPointer value w) = some (ofPointer value w) := by
  cases w <;> simp [Constant.ofPointer, ofConstant?, ofPointer]

/-- Cutting off to pointer width commutes with addition. -/
theorem add?_ofPointer (a b : UInt64) (w : Width) :
    add? w (ofPointer a w) (ofPointer b w) = some (ofPointer (a + b) w) := by
  cases w <;> simp [add?, ofPointer]

/-- Cutting off to pointer width commutes with multiplication. -/
theorem mul?_ofPointer (a b : UInt64) (w : Width) :
    mul? w (ofPointer a w) (ofPointer b w) = some (ofPointer (a * b) w) := by
  cases w <;> simp [mul?, ofPointer]

end Cell

/-! ### Configurations -/

/-- Something that code does to the outside. -/
inductive Event where
  /-- A call with its arguments and its result. -/
  | call (callee : String) (args : List Cell) (result? : Option Cell)
  /-- A value that was written to memory. -/
  | store (address : UInt64) (value : Cell)
deriving DecidableEq, Repr

/-- What code is in the middle of. -/
structure Configuration where
  /-- The stack, top first. -/
  stack : List Cell
  /-- The slots of the function. -/
  slots : UInt32 → Cell
  /-- What was done to the outside, oldest first. -/
  events : List Event

namespace Configuration

/-- Pushes a cell. -/
def push (c : Configuration) (v : Cell) : Configuration := { c with stack := v :: c.stack }

/-- Writes a cell into a slot. -/
def setSlot (c : Configuration) (slot : UInt32) (v : Cell) : Configuration :=
  { c with slots := fun slot' ↦ if slot' = slot then v else c.slots slot' }

/-- Records an event. -/
def record (c : Configuration) (e : Event) : Configuration := { c with events := c.events ++ [e] }

end Configuration

/-- How code comes to an end. -/
inductive Stop where
  /-- It returned, perhaps with a result. -/
  | returned (result? : Option Cell)
  /-- It trapped. -/
  | trapped
  /-- It found something else than it needed, or a call did not come back. -/
  | faulted
deriving DecidableEq, Repr

/-- What code depends on besides its configuration. -/
structure Host where
  /-- What a function returns, perhaps nothing, after some events; it may not come back. -/
  call? : List Event → String → List Cell → Option (Option Cell)
  /-- A conversion from or to a floating-point number. -/
  convertFloat : Category → Category → Bool → Cell → Cell

namespace Host

/-- What a conversion makes of a cell of the source category. -/
def convert? (h : Host) (source target : Category) (isSigned : Bool) (v : Cell) : Option Cell :=
  if v.category = source then
    some ((v.convertInteger? isSigned target).getD (h.convertFloat source target isSigned v))
  else none

/-- Replaces the top of the stack by something that may depend on it. -/
def replace (f : Cell → Option Cell) (c : Configuration) : Except Stop Configuration :=
  match c.stack with
  | v :: stack =>
    match f v with
    | some v => .ok { c with stack := v :: stack }
    | none => .error .faulted
  | [] => .error .faulted

/-- Replaces the two uppermost cells by one that may depend on them. -/
def combine (f : Cell → Cell → Option Cell) (c : Configuration) : Except Stop Configuration :=
  match c.stack with
  | b :: a :: stack =>
    match f a b with
    | some v => .ok { c with stack := v :: stack }
    | none => .error .faulted
  | _ => .error .faulted

/-- Calls a function with the uppermost cells of the stack. -/
def callWith (h : Host) (callee : String) (argc : Nat) (c : Configuration) :
    Except Stop Configuration :=
  if argc ≤ c.stack.length then
    let args := (c.stack.take argc).reverse
    match h.call? c.events callee args with
    | some result? =>
      .ok { c with
        stack := result?.toList ++ c.stack.drop argc
        events := c.events ++ [.call callee args result?] }
    | none => .error .faulted
  else .error .faulted

/-- Writes the top of the stack to the address below it. -/
def storeAt (category : Category) (offset : UInt32) (c : Configuration) :
    Except Stop Configuration :=
  match c.stack with
  | v :: a :: stack =>
    match a.address? with
    | some address =>
      if v.category = category then
        .ok ({ c with stack }.record (.store (address + offset.toUInt64) v))
      else .error .faulted
    | none => .error .faulted
  | _ => .error .faulted

/-- One instruction. -/
def step (h : Host) : SymbolicInstruction → Configuration → Except Stop Configuration
  | .const constant, c =>
    match Cell.ofConstant? constant with
    | some v => .ok (c.push v)
    | none => .error .faulted
  | .pop, c =>
    match c.stack with
    | _ :: stack => .ok { c with stack }
    | [] => .error .faulted
  | .getLocal slot, c => .ok (c.push (c.slots slot))
  | .setLocal slot, c =>
    match c.stack with
    | v :: stack => .ok ({ c with stack }.setSlot slot v)
    | [] => .error .faulted
  | .teeLocal slot, c =>
    match c.stack with
    | v :: _ => .ok (c.setSlot slot v)
    | [] => .error .faulted
  | .add width, c => combine (Cell.add? width) c
  | .mul width, c => combine (Cell.mul? width) c
  | .convert source target isSigned, c => replace (h.convert? source target isSigned) c
  | .extend8S, c => replace (Cell.map32? fun bits ↦ bits.toInt32.toInt8.toInt32.toUInt32) c
  | .extend16S, c => replace (Cell.map32? fun bits ↦ bits.toInt32.toInt16.toInt32.toUInt32) c
  | .mask8, c => replace (Cell.map32? (· &&& 0xff)) c
  | .mask16, c => replace (Cell.map32? (· &&& 0xffff)) c
  | .nonZero width, c => replace (Cell.nonZero? width) c
  | .store category offset _, c => storeAt category offset c
  | .call callee argc, c => h.callWith callee argc.toNat c
  | .ret, c =>
    match c.stack with
    | v :: _ => .error (.returned (some v))
    | [] => .error .faulted
  | .retVoid, _ => .error (.returned none)
  | .trap, _ => .error .trapped

/-- Instructions in a row. Code that stops tells what it did until then. -/
def run (h : Host) : List SymbolicInstruction → Configuration →
    Except (Stop × List Event) Configuration
  | [], c => .ok c
  | i :: is, c =>
    match h.step i c with
    | .ok c => h.run is c
    | .error stop => .error (stop, c.events)

variable {h : Host} {c : Configuration}

/-- Code in a row is run one part after the other. -/
theorem run_append (code code' : List SymbolicInstruction) (c : Configuration) :
    h.run (code ++ code') c = (h.run code c).bind (h.run code') := by
  induction code generalizing c with
  | nil => rfl
  | cons i is ih =>
    rw [List.cons_append, run, run]
    cases h.step i c with
    | ok c' => exact ih c'
    | error stop => rfl

/-- The code behind a part that completes goes on from there. -/
theorem run_append_ok {code code' : List SymbolicInstruction} {c' : Configuration}
    (hrun : h.run code c = .ok c') : h.run (code ++ code') c = h.run code' c' := by
  rw [run_append, hrun]
  rfl

end Host

end StackLowering
