import StackLowering.Symbols.Callable

/-!
# Class templates and substitution

A class template has type parameters. Each has a placeholder, which fields and constructor parameters
may mention like a type, and which is not registered itself. Substitution replaces the placeholders by
type arguments, all at once and only at the top of a type, since a type is known by its fingerprint
alone: a field of type `Box<T>` has a fingerprint in which `T` can no longer be found.

A placeholder is found by its fingerprint as well, whichever template it was made for. Two parameters
of one template may share a placeholder, and then the later one decides what it stands for. So may the
parameters of two templates (a template `Key` with a parameter `Value`, and a template `Value` with a
parameter `Key`), and then each replaces the placeholders of the other one as its own.
-/

namespace StackLowering

/-- A type parameter of a template. The placeholder is a value of its own, since a template may be put
together by hand, with any placeholders. -/
structure TemplateParam where
  /-- The name of the parameter. -/
  name : String
  /-- The fingerprint by which fields and parameters mention it. -/
  id : Fingerprint
deriving DecidableEq, Repr

/-- A class template. -/
structure TemplateEntry where
  /-- The name of the template. -/
  name : String
  /-- Its identity. -/
  id : Fingerprint
  /-- Its type parameters. -/
  params : List TemplateParam
  /-- The names and types of the fields of its instances. -/
  fields : List (String × Fingerprint) := []
  /-- The parameters of the constructor of its instances, if they have one. -/
  constructor? : Option (List Param) := none
deriving DecidableEq, Repr

namespace TemplateEntry

/-- The parameter called `name` of the template with identity `template`. -/
def parameter (template : Fingerprint) (name : String) : TemplateParam :=
  ⟨name, .ofParameter template name⟩

/-- A template; its identity comes from its name, that of its parameters from both names. -/
def named (name : String) (params : List String) (fields : List (String × Fingerprint))
    (constructor? : Option (List Param)) : TemplateEntry :=
  { name, fields, constructor?
    id := .ofTypeName name
    params := params.map (parameter (.ofTypeName name)) }

/-- The number of type parameters. -/
def arity (t : TemplateEntry) : Nat := t.params.length

/-- The placeholder of the first parameter with the given name. -/
def param? (t : TemplateEntry) (name : String) : Option Fingerprint :=
  (t.params.find? (·.name == name)).map (·.id)

end TemplateEntry

/-! ### Substitution -/

/-- What placeholders stand for. -/
abbrev Substitution := Std.ExtTreeMap Fingerprint Fingerprint

namespace Substitution

/-- Binds the parameters to the arguments in order, as far as both go; a later binding of the same
placeholder replaces an earlier one. -/
def bind (params : List TemplateParam) (args : List Fingerprint) : Substitution :=
  (params.zip args).foldl (fun s (param, arg) ↦ s.insert param.id arg) ∅

/-- What a type becomes: the argument for a placeholder, and every other type as it is. -/
def type (s : Substitution) (t : Fingerprint) : Fingerprint := s[t]?.getD t

/-- What a parameter becomes: its type is replaced, its name and default are kept. -/
def param (s : Substitution) (p : Param) : Param := { p with type := s.type p.type }

end Substitution

end StackLowering
