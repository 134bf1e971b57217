/-!
# The 64-bit xxHash

A non-cryptographic hash of a byte string. The bytes are read as little-endian words of eight;
four words at a time go through four independent lanes, the words that are left over and then the
last few bytes are mixed in one by one, and a final avalanche spreads every bit over the result.
-/

namespace StackLowering.XxHash64

/-! ### Constants and the steps on one word -/

/-- First mixing prime. -/
def prime1 : UInt64 := 0x9E3779B185EBCA87
/-- Second mixing prime. -/
def prime2 : UInt64 := 0xC2B2AE3D27D4EB4F
/-- Third mixing prime. -/
def prime3 : UInt64 := 0x165667B19E3779F9
/-- Fourth mixing prime. -/
def prime4 : UInt64 := 0x85EBCA77C2B2AE63
/-- Fifth mixing prime. -/
def prime5 : UInt64 := 0x27D4EB2F165667C5

/-- Rotation to the left by `r` bits, for `0 < r < 64`. -/
def rotateLeft (x r : UInt64) : UInt64 :=
  (x <<< r) ||| (x >>> (64 - r))

/-- One word enters a lane. -/
def absorb (lane word : UInt64) : UInt64 :=
  rotateLeft (lane + word * prime2) 31 * prime1

/-- A finished lane joins the hash. -/
def merge (hash lane : UInt64) : UInt64 :=
  (hash ^^^ absorb 0 lane) * prime1 + prime4

/-- A word that no stripe took joins the hash. -/
def mixWord (hash word : UInt64) : UInt64 :=
  rotateLeft (hash ^^^ absorb 0 word) 27 * prime1 + prime4

/-- A half word joins the hash. -/
def mixHalf (hash half : UInt64) : UInt64 :=
  rotateLeft (hash ^^^ (half * prime1)) 23 * prime2 + prime3

/-- A single byte joins the hash. -/
def mixByte (hash : UInt64) (byte : UInt8) : UInt64 :=
  rotateLeft (hash ^^^ (byte.toUInt64 * prime5)) 11 * prime1

/-- The final avalanche. -/
def avalanche (hash : UInt64) : UInt64 :=
  let hash := (hash ^^^ (hash >>> 33)) * prime2
  let hash := (hash ^^^ (hash >>> 29)) * prime3
  hash ^^^ (hash >>> 32)

/-! ### Reading words -/

/-- The number with the given little-endian base-256 digits. -/
def littleEndian : List UInt8 → UInt64
  | [] => 0
  | b :: bs => b.toUInt64 + 256 * littleEndian bs

/-- The whole words of a byte string, and the fewer than eight bytes after them. -/
def words : List UInt8 → List UInt64 × List UInt8
  | b₀ :: b₁ :: b₂ :: b₃ :: b₄ :: b₅ :: b₆ :: b₇ :: rest =>
    let (ws, tail) := words rest
    (littleEndian [b₀, b₁, b₂, b₃, b₄, b₅, b₆, b₇] :: ws, tail)
  | tail => ([], tail)

/-! ### Stripes and tails -/

/-- The four lanes. -/
structure Lanes where
  /-- Lane of the words at positions 0 modulo 4. -/
  first : UInt64
  /-- Lane of the words at positions 1 modulo 4. -/
  second : UInt64
  /-- Lane of the words at positions 2 modulo 4. -/
  third : UInt64
  /-- Lane of the words at positions 3 modulo 4. -/
  fourth : UInt64

/-- The lanes before the first stripe. -/
def Lanes.start (seed : UInt64) : Lanes :=
  ⟨seed + prime1 + prime2, seed + prime2, seed, seed - prime1⟩

/-- Absorbs whole stripes of four words; the words after the last stripe are returned. -/
def Lanes.run (lanes : Lanes) : List UInt64 → Lanes × List UInt64
  | a :: b :: c :: d :: rest =>
    Lanes.run ⟨absorb lanes.first a, absorb lanes.second b, absorb lanes.third c,
      absorb lanes.fourth d⟩ rest
  | rest => (lanes, rest)

/-- The four lanes folded into one hash. -/
def Lanes.converge (lanes : Lanes) : UInt64 :=
  let sum := rotateLeft lanes.first 1 + rotateLeft lanes.second 7 + rotateLeft lanes.third 12
    + rotateLeft lanes.fourth 18
  merge (merge (merge (merge sum lanes.first) lanes.second) lanes.third) lanes.fourth

/-- The hash after the stripes, and the words that are left: below 32 bytes there is no stripe. -/
def stripes (seed : UInt64) : List UInt64 → UInt64 × List UInt64
  | a :: b :: c :: d :: rest =>
    let (lanes, left) := (Lanes.start seed).run (a :: b :: c :: d :: rest)
    (lanes.converge, left)
  | left => (seed + prime5, left)

/-- Mixes in the bytes after the last word: a half word if there is one, then byte by byte. -/
def mixTail (hash : UInt64) : List UInt8 → UInt64
  | b₀ :: b₁ :: b₂ :: b₃ :: rest =>
    rest.foldl mixByte (mixHalf hash (littleEndian [b₀, b₁, b₂, b₃]))
  | rest => rest.foldl mixByte hash

/-- The hash of a byte string. -/
def hash (seed : UInt64) (bytes : List UInt8) : UInt64 :=
  let (ws, tail) := words bytes
  let (start, left) := stripes seed ws
  avalanche (mixTail (left.foldl mixWord (start + bytes.length.toUInt64)) tail)

/-- The hash of a text, taken over its UTF-8 bytes with seed 0. -/
def ofString (text : String) : UInt64 :=
  hash 0 text.toUTF8.data.toList

end StackLowering.XxHash64
