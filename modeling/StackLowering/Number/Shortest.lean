import StackLowering.Number.Binary

/-!
# Shortest decimals

The text of a floating-point number is the shortest decimal that reads back to the same bit pattern.
The reals that round to a pattern form an interval around its value. The grids of multiples of
`10 ^ j` are searched from coarse to fine; on each grid only the two neighbours of the value can be
the nearest hit. The first grid with a hit gives the digits, and of two hits the nearer one is taken,
the upper one if both are equally near.

Numbers are written positionally at every magnitude, whole numbers without a point.
-/

namespace StackLowering

/-- The fractions `lower / scale ≤ value / scale ≤ upper / scale`: a number and the ends of the
interval of reals that round to it. -/
structure RoundingInterval where
  /-- Numerator of the lower end. -/
  lower : Nat
  /-- Numerator of the number. -/
  value : Nat
  /-- Numerator of the upper end. -/
  upper : Nat
  /-- Common denominator. -/
  scale : Nat
  /-- Whether the ends round to the number too. -/
  closed : Bool
deriving DecidableEq, Repr

namespace RoundingInterval

/-- The interval of `m * 2 ^ e`, in quarters of the unit in the last place. Below a power of two the
next number is only half as far away as above it. A tie rounds to the even mantissa. -/
def ofFinite (f : BinaryFormat) (m : Nat) (e : Int) : RoundingInterval :=
  let factor := 1 <<< (e - 2).toNat
  let below := if m = 1 <<< f.fractionBits then 1 else 2
  { lower := (4 * m - below) * factor
    value := 4 * m * factor
    upper := (4 * m + 2) * factor
    scale := 1 <<< (2 - e).toNat
    closed := m % 2 == 0 }

variable (i : RoundingInterval)

/-- Whether `count * 10 ^ power` rounds to the number. -/
def admits (count : Nat) (power : Int) : Bool :=
  let point := count * Nat.pow 10 power.toNat * i.scale
  let low := i.lower * Nat.pow 10 (-power).toNat
  let high := i.upper * Nat.pow 10 (-power).toNat
  if i.closed then low ≤ point && point ≤ high else low < point && point < high

/-- The multiple of `10 ^ power` at or below the number, as a count of steps. -/
def floorAt (power : Int) : Nat :=
  i.value * Nat.pow 10 (-power).toNat / (i.scale * Nat.pow 10 power.toNat)

/-- Whether the number lies at least as near to step `count + 1` as to step `count`. -/
def nearerAbove (count : Nat) (power : Int) : Bool :=
  (2 * count + 1) * Nat.pow 10 power.toNat * i.scale ≤ 2 * (i.value * Nat.pow 10 (-power).toNat)

/-- The best point of one grid, if a point of the grid rounds to the number. -/
def onGrid? (power : Int) : Option Nat :=
  let below := i.floorAt power
  match i.admits below power, i.admits (below + 1) power with
  | true, true => some (if i.nearerAbove below power then below + 1 else below)
  | true, false => some below
  | false, true => some (below + 1)
  | false, false => none

/-- Searches `fuel` grids, from `power` down; the last one answers with the value rounded down. -/
def search : Nat → Int → Nat × Int
  | 0, power => (i.floorAt power, power)
  | fuel + 1, power =>
    match i.onGrid? power with
    | some count => (count, power)
    | none => search fuel (power - 1)

end RoundingInterval

/-- The shortest decimal `count * 10 ^ power` that reads back to `m * 2 ^ e`. The search starts above
the leading digit; no number needs as many grids as it is given. -/
def shortestDecimal (f : BinaryFormat) (m : Nat) (e : Int) : Nat × Int :=
  let start := (e + m.log2 + 1) * 30103 / 100000 + 2
  (RoundingInterval.ofFinite f m e).search 40 start

/-- `count * 10 ^ power` in positional notation: a point only where there are decimal places, and
then at least one digit before it. -/
def positionalDigits (count : Nat) (power : Int) : List Char :=
  let digits := Nat.toDigits 10 count
  if 0 ≤ power then
    digits ++ List.replicate power.toNat '0'
  else
    let places := (-power).toNat
    let padded := List.replicate (places + 1 - digits.length) '0' ++ digits
    let (whole, decimals) := padded.splitAt (padded.length - places)
    whole ++ '.' :: decimals

/-- The text of a floating-point pattern: shortest digits, positional, with a sign also on a negative
zero and on negative infinity, but not on a NaN. -/
def BinaryFormat.text (f : BinaryFormat) (bits : Nat) : String :=
  let sign := if f.isNegative bits then ['-'] else []
  match f.decode bits with
  | .nan => "NaN"
  | .infinite => String.ofList (sign ++ ['i', 'n', 'f'])
  | .finite 0 _ => String.ofList (sign ++ ['0'])
  | .finite m e =>
    let (count, power) := shortestDecimal f m e
    String.ofList (sign ++ positionalDigits count power)

end StackLowering
