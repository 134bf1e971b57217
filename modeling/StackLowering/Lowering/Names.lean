import StackLowering.Lowering.Frame
import StackLowering.Symbols.Instances
import StackLowering.Syntax.Basic

/-!
# What names mean

A name stands for a local variable, else for a registered type, else for a function. A written type
stands for a registered type; if it has type arguments it stands for an instance of a template, which
is created if need be. The arguments are resolved from left to right, up to the first that fails, and
what was created on the way stays.

The two do not look in the same places: a written type does not see local variables. And they do not
ask the same of type arguments. A written type counts whether there are any, and refuses them for
whatever is no template; the meaning of a name says nothing about them, and leaves it to a construction
what to do (`Construction.classify`).

A resolution works on the symbols alone, without a frame and without code (`Resolution`), so that
signatures are resolved by the same function as types in a body.
-/

namespace StackLowering

/-- What a name stands for. -/
inductive Meaning where
  /-- A variable of the given type. -/
  | variable (type : Fingerprint)
  /-- A class. -/
  | object (id : Fingerprint)
  /-- A class template. -/
  | template (id : Fingerprint)
  /-- A built-in type. -/
  | primitive (primitive : Primitive)
  /-- A function or a constructor. -/
  | function (id : Fingerprint)
  /-- Nothing. -/
  | unresolved
deriving DecidableEq, Repr

/-- What a registered type is as the meaning of its name. -/
def TypeEntry.meaning : TypeEntry → Meaning
  | primitive p => .primitive p
  | object c => .object c.id
  | template t => .template t.id

/-- What a name stands for where the given variables are declared. -/
def Meaning.ofName (r : Registry) (f : Frame) (name : String) : Meaning :=
  match f.find? name with
  | some v => .variable v.type
  | none =>
    match r.typeNamed? name with
    | some entry => entry.meaning
    | none =>
      match r.functionNamed? name with
      | some callee => .function callee.id
      | none => .unresolved

/-! ### Written types -/

/-- A computation that may fail and that may create instances of templates. -/
abbrev Resolution := ExceptT CompileError (StateM Symbols)

/-- The instance of a template at resolved type arguments. -/
def Resolution.instantiate (template : Fingerprint) (args : List Fingerprint) (span : Span) :
    Resolution Fingerprint :=
  ExceptT.mk fun s ↦ s.instantiate template args span

mutual

/-- The type that a written type stands for. -/
def TypeExpr.resolve : TypeExpr → Resolution Fingerprint
  | .apply name args span => do
    match (← get).registry.typeNamed? name.name with
    | none => throw (.unknownType name.name span)
    | some (.template t) =>
      if args.isEmpty then
        throw (.templateArgumentCount name.name t.arity 0 span)
      else
        let args ← resolveTypes args
        Resolution.instantiate t.id args span
    | some entry =>
      if args.isEmpty then pure entry.id else throw (.notATemplate name.name span)
termination_by structural t => t

/-- The types that a list of written types stands for. -/
def resolveTypes : List TypeExpr → Resolution (List Fingerprint)
  | [] => pure []
  | t :: ts => do
    let type ← t.resolve
    let types ← resolveTypes ts
    pure (type :: types)
termination_by structural ts => ts

end

end StackLowering
