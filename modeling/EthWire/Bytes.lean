import EthWire.Positional

/-!
# Byte strings

Byte strings are lists of bytes. As numbers they are read big-endian.
-/

namespace EthWire

abbrev Bytes := List UInt8

namespace Bytes

/-- The big-endian value of a byte string. -/
def toNat (b : Bytes) : Nat := Positional.value 256 (b.map UInt8.toNat)

/-- The shortest big-endian byte string of `n`; zero is the empty string. -/
def ofNat (n : Nat) : Bytes := (Positional.digits 256 n).map UInt8.ofNat

/-- The lowest `width` bytes of `n`, big-endian. -/
def ofNatWidth : (width : Nat) → Nat → Bytes
  | 0, _ => []
  | width + 1, n => ofNatWidth width (n / 256) ++ [UInt8.ofNat n]

theorem length_ofNatWidth (width n : Nat) : (ofNatWidth width n).length = width := by
  induction width generalizing n with
  | zero => rfl
  | succ width ih => simp [ofNatWidth, ih]

/-- A string of `width` zero bytes. -/
def zero (width : Nat) : Bytes := List.replicate width 0

def isZero (b : Bytes) : Bool := b.all (· == 0)

end Bytes

end EthWire
