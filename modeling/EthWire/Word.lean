import EthWire.Bytes

/-!
# Unsigned words

Natural numbers that fit a number of bits.
-/

namespace EthWire

/-- A natural number below the power of two with the exponent `bits`. -/
structure Word (bits : Nat) where
  val : Nat
  val_lt : val < Nat.pow 2 bits
deriving DecidableEq

namespace Word

variable {bits : Nat}

def zero : Word bits := ⟨0, Nat.two_pow_pos bits⟩

def ofNat? (n : Nat) : Option (Word bits) :=
  if h : n < Nat.pow 2 bits then some ⟨n, h⟩ else none

/-- The greatest word. -/
def max (bits : Nat) : Nat := Nat.pow 2 bits - 1

end Word

/-- The number of bits that a natural number takes. -/
def bitLength (n : Nat) : Nat := if n = 0 then 0 else n.log2 + 1

end EthWire
