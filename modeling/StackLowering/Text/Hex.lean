/-!
# Hexadecimal text

Fixed-width lower-case hexadecimal, the form in which fingerprints and stray bytes are shown.
-/

namespace StackLowering

/-- The last `width` hexadecimal digits of `n`, most significant first. -/
def hexDigits (width n : Nat) : List Char :=
  (List.range width).reverse.map fun i ↦ Nat.digitChar ((n >>> (4 * i)) % 16)

/-- The last `width` hexadecimal digits of `n`, after `0x`. -/
def hexText (width n : Nat) : String :=
  String.ofList ('0' :: 'x' :: hexDigits width n)

theorem length_hexDigits (width n : Nat) : (hexDigits width n).length = width := by
  simp [hexDigits]

end StackLowering
