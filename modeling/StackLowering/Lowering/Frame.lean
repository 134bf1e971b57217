import StackLowering.Report.Error
import StackLowering.Symbols.Class

/-!
# Frames

The local variables of a function. A variable gets the next slot when it is declared; a name is declared
at most once in a function, and there is no inner scope. Temporaries are variables that the lowering
itself declares: asking for one again gives the same slot.

Variables and temporaries are found in one table under their names. The names of temporaries start with
a dot, so that a parser would not read them in a script. Nothing in the syntax enforces this: a variable
that is called like a temporary is declared like any other one, and a buffer is then built in its slot.

A slot is numbered by 32 bits, and the number is not checked: after 2³² slots it would start anew.
-/

namespace StackLowering

/-- A local variable. Its name is not repeated here, since it is the key of the table of variables. -/
structure LocalVariable where
  /-- Its type. -/
  type : Fingerprint
  /-- Its slot. -/
  slot : UInt32
  /-- Where it is declared. -/
  span : Span
deriving DecidableEq, Repr

/-- The local variables of a function. -/
structure Frame where
  /-- The variables by name. -/
  bindings : Std.ExtTreeMap String LocalVariable := ∅
  /-- The type of each slot. -/
  slots : Array Fingerprint := #[]

namespace Frame

/-- The frame without variables. -/
def empty : Frame := {}

/-- The variable with the given name. -/
def find? (f : Frame) (name : String) : Option LocalVariable := f.bindings[name]?

/-- The number of slots. -/
def size (f : Frame) : UInt32 := f.slots.size.toUInt32

/-- Gives a name a new slot, also if it had one before. -/
def allocate (f : Frame) (name : String) (type : Fingerprint) (span : Span) : UInt32 × Frame :=
  (f.size, { bindings := f.bindings.insert name ⟨type, f.size, span⟩, slots := f.slots.push type })

/-- Declares a variable and tells its slot. A name that is taken changes nothing. -/
def declare (f : Frame) (name : String) (type : Fingerprint) (span : Span) :
    Except CompileError UInt32 × Frame :=
  match f.find? name with
  | some _ => (.error (.variableRedeclaration name span), f)
  | none =>
    let (slot, f) := f.allocate name type span
    (.ok slot, f)

/-- The slot of a temporary, which is declared if it is new. -/
def temporary (f : Frame) (name : String) (type : Fingerprint) : UInt32 × Frame :=
  match f.find? name with
  | some v => (v.slot, f)
  | none => f.allocate name type .nowhere

end Frame

end StackLowering
