import StackLowering.Types.Primitive

/-!
# Functions and constructors

What a call needs to know of its target: the symbol it is called by, its parameters with their default
values, and the type of its result. A constructor is called with the object it fills in as its first
argument; that argument is not among its parameters.

The identity of a function comes from its name and the types of its parameters, and that of a
constructor from its class and the types of its parameters. The parameters do not make an overload of
it: a symbol is registered once only, and a call finds its target by the symbol.

The symbol of a constructor ends in `#ctor`. Nothing keeps a script from calling a function by such a
symbol, or a host from registering one.
-/

namespace StackLowering

/-- A value that stands in for an omitted argument. -/
inductive DefaultValue where
  /-- An integer. -/
  | int (value : Int64)
  /-- A 64-bit floating-point number, by its bit pattern. -/
  | float (bits : UInt64)
  /-- A truth value. -/
  | bool (value : Bool)
deriving DecidableEq, Repr

/-- A parameter of a function or a constructor. -/
structure Param where
  /-- The name of the parameter. -/
  name : String
  /-- The type of the parameter. -/
  type : Fingerprint
  /-- What an omitted argument stands for, if it may be omitted. -/
  default? : Option DefaultValue := none
deriving DecidableEq, Repr

/-- A function or a constructor. -/
structure Callable where
  /-- The symbol by which it is called. -/
  name : String
  /-- Its identity. -/
  id : Fingerprint
  /-- Its parameters. -/
  params : List Param
  /-- The type of its result. -/
  returns : Fingerprint
  /-- Whether it constructs an object. -/
  isConstructor : Bool
deriving DecidableEq, Repr

namespace Callable

/-- A function: its identity comes from its name and the types of its parameters. -/
def function (name : String) (params : List Param) (returns : Fingerprint) : Callable :=
  { name, params, returns
    id := .ofFunction name (params.map (·.type))
    isConstructor := false }

/-- The symbol of the constructor of a class. -/
def constructorName (owner : String) : String := owner ++ "#ctor"

/-- The constructor of a class: its identity comes from the class and the types of its parameters,
and its result is the object. -/
def constructor (ownerName : String) (owner : Fingerprint) (params : List Param) : Callable :=
  { params
    name := constructorName ownerName
    id := .ofConstructor owner (params.map (·.type))
    returns := Primitive.uintptr.fingerprint
    isConstructor := true }

/-- The number of parameters. -/
def arity (c : Callable) : Nat := c.params.length

/-- The number of parameters before the first one with a default. -/
def requiredCount (c : Callable) : Nat := (c.params.takeWhile (·.default?.isNone)).length

theorem requiredCount_le_arity (c : Callable) : c.requiredCount ≤ c.arity :=
  (List.takeWhile_prefix _).length_le

end Callable

end StackLowering
