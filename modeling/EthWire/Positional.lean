/-!
# Positional numerals

Natural numbers as lists of digits, the most significant first. Zero has no
digits, so a digit list never starts with a zero digit.
-/

namespace EthWire.Positional

/-- The number a digit list denotes. -/
def value (base : Nat) (digits : List Nat) : Nat :=
  digits.foldl (fun acc d => acc * base + d) 0

/-- Puts the digits of `n` in front of `acc`; `fuel` bounds their number. -/
def digitsOnto (base : Nat) : Nat → Nat → List Nat → List Nat
  | 0, _, acc => acc
  | fuel + 1, n, acc =>
      if n = 0 then acc else digitsOnto base fuel (n / base) (n % base :: acc)

/-- The digits of `n` in a base of at least two. -/
def digits (base n : Nat) : List Nat := digitsOnto base (n.log2 + 1) n []

end EthWire.Positional
