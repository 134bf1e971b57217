/-!
# Storage layouts

How values are held on the stack and in memory. A value on the stack has one of four categories; a type
that can be stored has a size, an alignment and a category. Pointers come in two widths. The fields of
an object are placed one after the other, each at the next offset that its alignment allows, and the
object is padded to its largest alignment.

Offsets and sizes are numbers of 32 bits whose arithmetic wraps around, and nothing checks that an
object is small enough for them. Rounding up works by masking and is meant for powers of two
(`alignUp`); other alignments are accepted, with whatever result the mask gives. An object without
fields has the size 0 and the alignment 1.
-/

namespace StackLowering

/-- The kind of value that one stack cell holds. -/
inductive Category where
  | i32
  | i64
  | f32
  | f64
deriving DecidableEq, Repr

namespace Category

/-- The byte that stands for a category in code. -/
def toByte : Category → UInt8
  | i32 => 0
  | i64 => 1
  | f32 => 2
  | f64 => 3

/-- The category that a byte stands for. -/
def ofByte? : UInt8 → Option Category
  | 0 => some i32
  | 1 => some i64
  | 2 => some f32
  | 3 => some f64
  | _ => none

/-- The two integer categories. -/
def isInteger : Category → Bool
  | i32 | i64 => true
  | f32 | f64 => false

/-- The two floating-point categories. -/
def isFloat (c : Category) : Bool := !c.isInteger

/-- The word for a category in listings. -/
def mnemonic : Category → String
  | i32 => "i32"
  | i64 => "i64"
  | f32 => "f32"
  | f64 => "f64"

theorem ofByte?_toByte (c : Category) : ofByte? c.toByte = some c := by
  cases c <;> rfl

end Category

/-- The width of a machine integer: that of a pointer, or that of an integer operation. -/
inductive Width where
  | w32
  | w64
deriving DecidableEq, Repr

/-- How a stored value looks: its size and alignment in bytes, and its category on the stack. -/
structure Layout where
  /-- Size in bytes. -/
  size : UInt32
  /-- Alignment in bytes. -/
  align : UInt32
  /-- Category of the value when it is loaded. -/
  category : Category
deriving DecidableEq, Repr

/-- The layout of a type whose alignment is its size. -/
def Layout.natural (size : UInt32) (category : Category) : Layout := ⟨size, size, category⟩

namespace Width

/-- The width in bytes. -/
def bytes : Width → UInt32
  | w32 => 4
  | w64 => 8

/-- The integer category of this width. -/
def category : Width → Category
  | w32 => .i32
  | w64 => .i64

/-- The layout of a pointer of this width. -/
def layout (w : Width) : Layout := .natural w.bytes w.category

/-- The width that is taken where none is named. -/
def standard : Width := w32

end Width

/-! ### Placing fields -/

/-- The least multiple of `align` at or after `offset`, for a power of two; alignments 0 and 1 ask
for nothing. -/
def alignUp (offset align : UInt32) : UInt32 :=
  if align ≤ 1 then offset else (offset + align - 1) &&& ~~~(align - 1)

/-- Where the fields of an object lie. -/
structure Packing where
  /-- The offset of each field, in order. -/
  offsets : List UInt32
  /-- The size of the object. -/
  size : UInt32
  /-- The alignment of the object. -/
  align : UInt32
deriving DecidableEq, Repr

namespace Packing

/-- Places fields from `offset` on: the offset of each, and the end of the last. -/
def place (offset : UInt32) : List Layout → List UInt32 × UInt32
  | [] => ([], offset)
  | field :: fields =>
    let start := alignUp offset field.align
    let (offsets, stop) := place (start + field.size) fields
    (start :: offsets, stop)

/-- The largest alignment among the fields, and at least 1. -/
def alignment (fields : List Layout) : UInt32 :=
  fields.foldl (fun align field ↦ max align field.align) 1

/-- Packs fields in order, each at the next offset that suits it, and pads the end. -/
def ofFields (fields : List Layout) : Packing :=
  let (offsets, stop) := place 0 fields
  ⟨offsets, alignUp stop (alignment fields), alignment fields⟩

theorem length_place (offset : UInt32) (fields : List Layout) :
    (place offset fields).1.length = fields.length := by
  induction fields generalizing offset with
  | nil => rfl
  | cons field fields ih => simp [place, ih]

end Packing

end StackLowering
