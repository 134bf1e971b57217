import StackLowering.Hash.XxHash64
import StackLowering.Text.Hex
import Std.Data.ExtTreeMap

/-!
# Fingerprints

Every type, function and constructor is identified by a 64-bit fingerprint. The fingerprint of a
named type comes from its name alone; those of functions, constructors and template instances also
fold in the fingerprints of an ordered list of types, so that the order and the number of the
arguments count.

The fold multiplies by an odd constant and adds a marked argument at each step; since both are
bijections of the 64-bit words, no step forgets what came before it. Two identities are different
whenever their folds differ in one argument, or in the hash that they start with. Nothing more is
promised: with 64 bits, lists that differ in several arguments may have the same fold, and names may
have the same hash.

The placeholder of a template parameter is an exclusive or of the two hashes that it depends on, that of
the template and that of the name. It is meant to be one for each template and parameter, but it does
not know which of the two names is which: the parameter `B` of a template `A` has the placeholder of
the parameter `A` of a template `B`.
-/

namespace StackLowering

/-- A 64-bit identity of a type, a function or a constructor. -/
structure Fingerprint where
  /-- The identity as a word. -/
  word : UInt64
deriving DecidableEq, Inhabited, Repr

namespace Fingerprint

/-! ### Order

Fingerprints are compared as words; the order only serves as the key order of tables. -/

instance : Ord Fingerprint := ⟨fun a b ↦ compare a.word b.word⟩

instance : Std.TransOrd Fingerprint where
  eq_swap {a b} := (Std.OrientedOrd.eq_swap : compare a.word b.word = _)
  isLE_trans {a _ c} (hab hbc) := (Std.TransOrd.isLE_trans hab hbc : (compare a.word c.word).isLE)

instance : Std.LawfulEqOrd Fingerprint where
  compare_self {a} := (Std.ReflOrd.compare_self : compare a.word a.word = .eq)
  eq_of_compare {a b} h := by
    have hword : a.word = b.word := Std.LawfulEqOrd.eq_of_compare h
    cases a
    cases b
    exact congrArg mk hword

/-! ### Domain constants -/

/-- The multiplier between the arguments of a fold. -/
def separator : UInt64 := 0x4bc94d6bd06053ad
/-- Marks the names of types. -/
def typeDomain : UInt64 := 0x2fac10b63a6cc57c
/-- Marks the names of functions. -/
def functionDomain : UInt64 := 0x5ea77ffbcdf5f302
/-- Marks the owners of constructors. -/
def constructorDomain : UInt64 := 0x9a7f3d5e2b8c4601
/-- Marks template parameters. -/
def parameterDomain : UInt64 := 0x1a095090689d4647

/-- The markers of the first eight argument positions. -/
def markers : List UInt64 :=
  [0x9e3779b97f4a7c15, 0xbf58476d1ce4e5b9, 0x94d049bb133111eb, 0xd6e8feb86659fd93,
    0xe7037ed1a0b428db, 0xc6a4a7935bd1e995, 0x8648dbbc94d49b8d, 0xa2b48b2c69e0d657]

/-- The marker of an argument position: tabulated for the first eight, then counted on from the
first marker. -/
def marker (position : Nat) : UInt64 :=
  markers[position]?.getD (0x9e3779b97f4a7c15 + position.toUInt64)

/-! ### The ordered fold -/

/-- Folds the arguments from position `position` on into `seed`. -/
def foldFrom (position : Nat) (seed : UInt64) : List Fingerprint → UInt64
  | [] => seed
  | arg :: args =>
    foldFrom (position + 1) (seed * separator + (marker position ^^^ arg.word)) args

/-- Folds an argument list into `seed`; order and length count. -/
def fold (seed : UInt64) (args : List Fingerprint) : UInt64 := foldFrom 0 seed args

/-! ### Identities -/

/-- The fingerprint that stands for nothing: the zero word. No table enters anything under it by
intention; a name whose hash is the marker of its domain would lead to it all the same. -/
def empty : Fingerprint := ⟨0⟩

/-- Whether the word is zero. -/
def isEmpty (f : Fingerprint) : Bool := f.word == 0

/-- The type with the given name. -/
def ofTypeName (name : String) : Fingerprint :=
  ⟨typeDomain ^^^ XxHash64.ofString name⟩

/-- The function with the given name and parameter types. -/
def ofFunction (name : String) (params : List Fingerprint) : Fingerprint :=
  ⟨fold (functionDomain ^^^ XxHash64.ofString name) params⟩

/-- The constructor of `owner` with the given parameter types. -/
def ofConstructor (owner : Fingerprint) (params : List Fingerprint) : Fingerprint :=
  ⟨fold (constructorDomain ^^^ owner.word) params⟩

/-- The instance of a template at the given type arguments. -/
def ofInstance (template : Fingerprint) (args : List Fingerprint) : Fingerprint :=
  ⟨fold template.word args⟩

/-- The placeholder for the parameter called `name` of a template. The template and the name are mixed
in the same way, so that they may be exchanged. -/
def ofParameter (template : Fingerprint) (name : String) : Fingerprint :=
  ⟨parameterDomain ^^^ template.word ^^^ XxHash64.ofString name⟩

/-- A fingerprint is shown as sixteen hexadecimal digits after `0x`. -/
def text (f : Fingerprint) : String := hexText 16 f.word.toNat

/-- The form in which a fingerprint appears in debugging output. -/
def debugText (f : Fingerprint) : String := s!"TypeHash({f.text})"

@[simp] theorem fold_nil (seed : UInt64) : fold seed [] = seed := rfl

/-- Without arguments the identity of an instance is that of the template. -/
theorem ofInstance_nil (template : Fingerprint) : ofInstance template [] = template := rfl

end Fingerprint

end StackLowering
