import StackLowering.Report.Error
import StackLowering.Symbols.Class
import StackLowering.Symbols.Template

/-!
# The registry

All types and functions that a program can mention, each found by its identity and by its name. Each
entry is stored under its identity, and an index leads from its name to the identity. A registration is
refused if the name or the identity is taken, and then changes nothing. Only the primitive types are
entered all at once and over whatever is there.

Entries are put together by a host, which is free in what it claims: the identity of a class need not
come from its name, and a constructor may belong to another class. What is known about the tables
follows from how they are changed, and not from the entries.

Classes are laid out in the registry, because the layout of a field is that of its registered type.
-/

namespace StackLowering

/-- A registered type. A built-in type is told by which one it is: its name and its identity are
computed from that, and an entry cannot have any others. -/
inductive TypeEntry where
  /-- A built-in type. -/
  | primitive (primitive : Primitive)
  /-- A class. -/
  | object (entry : ClassEntry)
  /-- A class template, which is not the type of any value. -/
  | template (entry : TemplateEntry)
deriving DecidableEq, Repr

namespace TypeEntry

/-- The identity of a registered type. -/
def id : TypeEntry → Fingerprint
  | primitive p => p.fingerprint
  | object c => c.id
  | template t => t.id

/-- The name of a registered type. -/
def name : TypeEntry → String
  | primitive p => p.name
  | object c => c.name
  | template t => t.name

/-- The class, if the entry is one. -/
def class? : TypeEntry → Option ClassEntry
  | object c => some c
  | _ => none

/-- The template, if the entry is one. -/
def template? : TypeEntry → Option TemplateEntry
  | template t => some t
  | _ => none

end TypeEntry

/-- Types and functions, by identity and by name. -/
structure Registry where
  /-- Types by identity. -/
  types : Std.ExtTreeMap Fingerprint TypeEntry := ∅
  /-- Identities of types by name. -/
  typeNames : Std.ExtTreeMap String Fingerprint := ∅
  /-- Functions and constructors by identity. -/
  functions : Std.ExtTreeMap Fingerprint Callable := ∅
  /-- Identities of functions and constructors by name. -/
  functionNames : Std.ExtTreeMap String Fingerprint := ∅
  /-- The pointer width of the target machine. -/
  width : Width := .standard

namespace Registry

/-! ### Registration -/

/-- The registry that knows no type at all. -/
def empty (width : Width) : Registry := { width }

/-- Enters a type under its name and its identity, over whatever was there. -/
def putType (r : Registry) (entry : TypeEntry) : Registry :=
  { r with
    typeNames := r.typeNames.insert entry.name entry.id
    types := r.types.insert entry.id entry }

/-- Enters every primitive type. -/
def putPrimitives (r : Registry) : Registry :=
  Primitive.all.foldl (fun r p ↦ r.putType (.primitive p)) r

/-- The registry of the primitive types. -/
def withPrimitives (width : Width) : Registry := (empty width).putPrimitives

/-- Registers a type, unless its identity or its name is taken. -/
def registerType (r : Registry) (entry : TypeEntry) : Except RegistrationError Registry :=
  if r.types.contains entry.id || r.typeNames.contains entry.name then
    .error (.duplicateType entry.name)
  else
    .ok (r.putType entry)

/-- Registers a function or a constructor, unless its identity or its name is taken. -/
def registerFunction (r : Registry) (f : Callable) : Except RegistrationError Registry :=
  if r.functions.contains f.id || r.functionNames.contains f.name then
    .error (.duplicateFunction f.name)
  else
    .ok { r with
      functionNames := r.functionNames.insert f.name f.id
      functions := r.functions.insert f.id f }

/-! ### Looking up -/

/-- The type with the given identity. -/
def type? (r : Registry) (id : Fingerprint) : Option TypeEntry := r.types[id]?

/-- The class with the given identity. -/
def class? (r : Registry) (id : Fingerprint) : Option ClassEntry := (r.type? id).bind (·.class?)

/-- The template with the given identity. -/
def template? (r : Registry) (id : Fingerprint) : Option TemplateEntry :=
  (r.type? id).bind (·.template?)

/-- The function or constructor with the given identity. -/
def function? (r : Registry) (id : Fingerprint) : Option Callable := r.functions[id]?

/-- The type with the given name. -/
def typeNamed? (r : Registry) (name : String) : Option TypeEntry :=
  r.typeNames[name]?.bind r.type?

/-- The function or constructor with the given symbol. -/
def functionNamed? (r : Registry) (name : String) : Option Callable :=
  r.functionNames[name]?.bind r.function?

/-- Whether a type has the given identity. -/
def containsType (r : Registry) (id : Fingerprint) : Bool := r.types.contains id

/-- The constructor of a class, if it has one that is registered. -/
def constructorOf? (r : Registry) (id : Fingerprint) : Option Callable :=
  ((r.class? id).bind (·.constructor?)).bind r.function?

/-- The number of types. -/
def typeCount (r : Registry) : Nat := r.types.size

/-- The number of functions and constructors. -/
def functionCount (r : Registry) : Nat := r.functions.size

/-- How values of a type are held: a value of class type is a pointer to the object, and neither
`void` nor a template is the type of a stored value. -/
def layout? (r : Registry) (id : Fingerprint) : Option Layout :=
  match r.type? id with
  | some (.primitive p) => p.layout r.width
  | some (.object _) => some r.width.layout
  | some (.template _) => none
  | none => none

/-- The name of a type, or its fingerprint if it is not registered. -/
def typeName (r : Registry) (id : Fingerprint) : String :=
  match r.type? id with
  | some entry => entry.name
  | none => id.text

/-! ### Laying out classes -/

/-- Replaces the entry of a class; the name tables stay as they are. -/
def setClass (r : Registry) (id : Fingerprint) (c : ClassEntry) : Registry :=
  { r with types := r.types.insert id (.object c) }

/-- The layouts of all fields of a class; the first field without one is reported. -/
def fieldLayouts (r : Registry) (owner : String) : List Field → Except RegistrationError (List Layout)
  | [] => .ok []
  | field :: fields =>
    match r.layout? field.type with
    | none => .error (.unsizedField owner field.name)
    | some layout => (r.fieldLayouts owner fields).map (layout :: ·)

/-- Lays out a class and tells the size of its objects. A class that is laid out already is left as
it is. -/
def layOutClass (r : Registry) (id : Fingerprint) : Except RegistrationError (UInt32 × Registry) :=
  match r.class? id with
  | none => .error (.typeNotFound id.text)
  | some c =>
    match c.extent? with
    | some extent => .ok (extent.size, r)
    | none =>
      (r.fieldLayouts c.name c.fields).map fun layouts ↦
        let packing := Packing.ofFields layouts
        (packing.size, r.setClass id (c.placed packing))

/-- Adds a field to a class, laid out or not; `none` if the identity is not that of a class. -/
def pushField? (r : Registry) (id : Fingerprint) (field : Field) : Option Registry :=
  (r.class? id).map fun c ↦ r.setClass id (c.pushField field)

end Registry

end StackLowering
