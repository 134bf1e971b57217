import StackLowering.Hash.Fingerprint
import StackLowering.Types.Layout

/-!
# Classes

A class is a named list of typed fields, perhaps with a constructor. Its fields get their offsets
when the class is laid out, which happens at the latest when an object of it is first constructed. A
class that comes from a template remembers the template and its type arguments.

Two properties of a class are often held as bits: whether it is laid out, and whether it comes from a
template. Here they are read off the data that goes with them (`ClassEntry.isLaidOut`,
`ClassEntry.isInstance`), so that size and alignment are known together, from the moment on at which the
class counts as laid out, and type arguments are there exactly if a template is. A class cannot claim to
be laid out and lack a size. The bit set is computed where it is shown (`ClassEntry.flags`).
-/

namespace StackLowering

/-- A field of a class. -/
structure Field where
  /-- The name of the field. -/
  name : String
  /-- The type of the field. -/
  type : Fingerprint
  /-- Its offset in the object, once that is known. -/
  offset? : Option UInt32 := none
deriving DecidableEq, Repr

/-- The size and alignment of the objects of a class. They are known together, once the class is laid
out. -/
structure Extent where
  /-- Size in bytes. -/
  size : UInt32
  /-- Alignment in bytes. -/
  align : UInt32
deriving DecidableEq, Repr

/-- The template that a class is an instance of, and the type arguments of the instance. -/
structure Origin where
  /-- The template. -/
  template : Fingerprint
  /-- The type arguments. -/
  args : List Fingerprint
deriving DecidableEq, Repr

/-- A class. -/
structure ClassEntry where
  /-- The name of the class. -/
  name : String
  /-- Its identity. -/
  id : Fingerprint
  /-- Its fields in order. -/
  fields : List Field := []
  /-- The identity of its constructor, if it has one. -/
  constructor? : Option Fingerprint := none
  /-- The size and alignment of its objects, once it is laid out. -/
  extent? : Option Extent := none
  /-- Where it comes from, if it is an instance of a template. -/
  origin? : Option Origin := none
deriving DecidableEq, Repr

namespace ClassEntry

/-- A class that is written as such, not yet laid out; its identity comes from its name. -/
def named (name : String) (fields : List Field) (constructor? : Option Fingerprint) : ClassEntry :=
  { name, fields, constructor?, id := .ofTypeName name }

/-- Turns a class into the instance of a template, with the identity that belongs to it. -/
def asInstance (c : ClassEntry) (template : Fingerprint) (args : List Fingerprint) : ClassEntry :=
  { c with id := .ofInstance template args, origin? := some ⟨template, args⟩ }

/-- Whether the class is laid out. -/
def isLaidOut (c : ClassEntry) : Bool := c.extent?.isSome

/-- Whether the class comes from a template. -/
def isInstance (c : ClassEntry) : Bool := c.origin?.isSome

/-- The bit of a class that is laid out. -/
def laidOutFlag : Nat := 1

/-- The bit of an instance of a template. -/
def instanceFlag : Nat := 2

/-- The two properties of a class as a bit set. -/
def flags (c : ClassEntry) : Nat :=
  (if c.isLaidOut then laidOutFlag else 0) + (if c.isInstance then instanceFlag else 0)

/-- The size of the objects, once it is known. -/
def size? (c : ClassEntry) : Option UInt32 := c.extent?.map (·.size)

/-- The alignment of the objects, 1 before it is known. -/
def align (c : ClassEntry) : UInt32 := (c.extent?.map (·.align)).getD 1

/-- The first field with the given name. -/
def findField? (c : ClassEntry) (name : String) : Option Field :=
  c.fields.find? (·.name == name)

/-- Adds a field at the end. -/
def pushField (c : ClassEntry) (field : Field) : ClassEntry :=
  { c with fields := c.fields ++ [field] }

/-- Gives every field its offset, and the class its extent. -/
def placed (c : ClassEntry) (packing : Packing) : ClassEntry :=
  { c with
    fields := c.fields.zipWith (fun field offset ↦ { field with offset? := some offset })
      packing.offsets
    extent? := some ⟨packing.size, packing.align⟩ }

end ClassEntry

end StackLowering
