/-!
# Binary floating-point numbers

Floating-point numbers as bit patterns. A format says how many bits hold the fraction and how many
the exponent; a pattern then stands for a signed `m * 2 ^ e`, an infinity or a NaN. All conversions
are exact arithmetic on `m` and `e` followed by one rounding, to the nearest pattern and to the even
one of two that are equally near.
-/

namespace StackLowering

/-- A binary interchange format. -/
structure BinaryFormat where
  /-- Bits of the fraction. -/
  fractionBits : Nat
  /-- Bits of the exponent field. -/
  exponentBits : Nat
deriving DecidableEq, Repr

/-- What a bit pattern stands for, its sign apart. -/
inductive BinaryValue where
  /-- Not a number. -/
  | nan
  /-- Beyond every finite number. -/
  | infinite
  /-- The number `mantissa * 2 ^ exponent`. -/
  | finite (mantissa : Nat) (exponent : Int)
deriving DecidableEq, Repr

namespace BinaryFormat

/-- The 32-bit format. -/
def binary32 : BinaryFormat := ⟨23, 8⟩

/-- The 64-bit format. -/
def binary64 : BinaryFormat := ⟨52, 11⟩

variable (f : BinaryFormat)

/-- The exponent of the unit in the last place of the smallest numbers. -/
def minExponent : Int := 2 - (1 <<< (f.exponentBits - 1) : Nat) - f.fractionBits

/-- The weight of the sign bit. -/
def signWeight : Nat := 1 <<< (f.exponentBits + f.fractionBits)

/-- The pattern of positive infinity. -/
def infinityBits : Nat := ((1 <<< f.exponentBits) - 1) <<< f.fractionBits

/-- The sign of a pattern: whether its sign bit is set. -/
def isNegative (bits : Nat) : Bool := bits / f.signWeight % 2 == 1

/-- The fraction field of a pattern. -/
def fraction (bits : Nat) : Nat := bits % (1 <<< f.fractionBits)

/-- What a pattern stands for, its sign apart. -/
def decode (bits : Nat) : BinaryValue :=
  let field := (bits >>> f.fractionBits) % (1 <<< f.exponentBits)
  if field = (1 <<< f.exponentBits) - 1 then
    if f.fraction bits = 0 then .infinite else .nan
  else if field = 0 then
    .finite (f.fraction bits) f.minExponent
  else
    .finite ((1 <<< f.fractionBits) + f.fraction bits) (f.minExponent + (field - 1 : Nat))

/-- The sign bit of a pattern, in place. -/
def signBits (negative : Bool) : Nat := if negative then f.signWeight else 0

/-! ### Rounding -/

/-- `m / 2 ^ shift`, rounded to the nearest integer and to the even one of two equally near. -/
def halfEven (m shift : Nat) : Nat :=
  let quotient := m >>> shift
  let twice := 2 * (m % (1 <<< shift))
  if twice < 1 <<< shift then quotient
  else if 1 <<< shift < twice then quotient + 1
  else quotient + quotient % 2

/-- The pattern nearest to `m * 2 ^ e`, sign apart; past the largest number it is infinity. The
unit in the last place is chosen first; a carry out of the rounded mantissa then moves into the
exponent field by itself. -/
def roundMagnitude (m : Nat) (e : Int) : Nat :=
  if m = 0 then 0
  else
    let unit := max (e + m.log2 - f.fractionBits) f.minExponent
    let mantissa :=
      if unit ≤ e then m <<< (e - unit).toNat else halfEven m (unit - e).toNat
    min f.infinityBits (((unit - f.minExponent).toNat <<< f.fractionBits) + mantissa)

/-- The pattern nearest to an integer. -/
def ofInt (n : Int) : Nat :=
  f.signBits (n < 0) + f.roundMagnitude n.natAbs 0

end BinaryFormat

/-! ### Conversions between the number types of the machine -/

/-- The 32-bit pattern nearest to an integer. -/
def float32OfInt (n : Int) : UInt32 := (BinaryFormat.binary32.ofInt n).toUInt32

/-- The 64-bit pattern nearest to an integer. -/
def float64OfInt (n : Int) : UInt64 := (BinaryFormat.binary64.ofInt n).toUInt64

/-- A 64-bit number in the 32-bit format. A NaN stays one: it becomes quiet and keeps its sign and
the upper part of its payload. -/
def float32OfFloat64 (bits : UInt64) : UInt32 :=
  let narrow := BinaryFormat.binary32
  let wide := BinaryFormat.binary64
  let sign := narrow.signBits (wide.isNegative bits.toNat)
  let magnitude :=
    match wide.decode bits.toNat with
    | .nan =>
      narrow.infinityBits + (1 <<< 22) + (wide.fraction bits.toNat >>> 29) % (1 <<< 22)
    | .infinite => narrow.infinityBits
    | .finite m e => narrow.roundMagnitude m e
  (sign + magnitude).toUInt32

/-- The 64-bit integer that a 64-bit number is truncated to: towards zero, at the nearest end of the
range for numbers beyond it, and 0 for NaN. -/
def int64OfFloat64 (bits : UInt64) : Int64 :=
  let wide := BinaryFormat.binary64
  let clamp (magnitude : Nat) : Int64 :=
    if wide.isNegative bits.toNat then .ofInt (-(min magnitude (1 <<< 63) : Nat))
    else .ofInt (min magnitude ((1 <<< 63) - 1) : Nat)
  match wide.decode bits.toNat with
  | .nan => 0
  | .infinite => clamp (1 <<< 63)
  | .finite m e => clamp (if 0 ≤ e then m <<< e.toNat else m >>> (-e).toNat)

end StackLowering
