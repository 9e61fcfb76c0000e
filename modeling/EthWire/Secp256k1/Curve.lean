import EthWire.Bytes

/-!
# The curve secp256k1

Arithmetic modulo the two primes of the curve `y² = x³ + 7` over the field of `p`
elements, and the group of its points, whose order is `n`. Inverses and square roots
are powers.
-/

namespace EthWire.Secp256k1

/-- The order of the field. -/
def p : Nat := 0xfffffffffffffffffffffffffffffffffffffffffffffffffffffffefffffc2f

/-- The order of the group. -/
def n : Nat := 0xfffffffffffffffffffffffffffffffebaaedce6af48a03bbfd25e8cd0364141

/-- `b ^ e` modulo `m` for an exponent of at most `bits` bits. -/
def powMod (m b : Nat) : (bits : Nat) → (e : Nat) → Nat
  | 0, _ => 1 % m
  | bits + 1, e =>
      let half := powMod m b bits (e / 2)
      let square := half * half % m
      if e % 2 = 1 then square * b % m else square

/-- The inverse of `a` modulo a prime `m` of 256 bits. -/
def inverse (m a : Nat) : Nat := powMod m a 256 (m - 2)

/-- The difference of two residues modulo `m`. -/
def subMod (m a b : Nat) : Nat := (a + (m - b % m)) % m

/-- The square root of a residue modulo `p`, if it has one. -/
def sqrt? (a : Nat) : Option Nat :=
  let root := powMod p a 256 ((p + 1) / 4)
  if root * root % p = a % p then some root else none

inductive Point
  | infinity
  | affine (x y : Nat)
deriving DecidableEq, Repr

namespace Point

/-- The base point. -/
def generator : Point :=
  .affine 0x79be667ef9dcbbac55a06295ce870b07029bfcdb2dce28d959f2815b16f81798
    0x483ada7726a3c4655da4fbfc0e1108a8fd17b448a68554199c47d08ffb10d4b8

/-- The sum of two points of abscissa `x₁` and `x₂` on a line of slope `m` through
`(x₁, y₁)`: the third point of the line with its ordinate negated. -/
def onLine (m x₁ y₁ x₂ : Nat) : Point :=
  let x := subMod p (subMod p (m * m) x₁) x₂
  .affine x (subMod p (m * subMod p x₁ x) y₁)

def double : Point → Point
  | .infinity => .infinity
  | .affine x y =>
      if y = 0 then .infinity
      else onLine (3 * x * x * inverse p (2 * y) % p) x y x

def add : Point → Point → Point
  | .infinity, q => q
  | q, .infinity => q
  | .affine x₁ y₁, .affine x₂ y₂ =>
      if x₁ = x₂ then if y₁ = y₂ then double (.affine x₁ y₁) else .infinity
      else onLine (subMod p y₂ y₁ * inverse p (subMod p x₂ x₁) % p) x₁ y₁ x₂

/-- `k` times a point, for a factor of at most `bits` bits. -/
def timesBits : (bits : Nat) → (k : Nat) → Point → Point
  | 0, _, _ => .infinity
  | bits + 1, k, q =>
      let half := double (timesBits bits (k / 2) q)
      if k % 2 = 1 then add half q else half

/-- A point times a factor below `2 ^ 256`. -/
def times (q : Point) (k : Nat) : Point := timesBits 256 k q

/-- The point of abscissa `x` whose ordinate is odd or even as `parity` says. -/
def ofAbscissa? (x parity : Nat) : Option Point :=
  (sqrt? ((x * x * x + 7) % p)).map fun root =>
    .affine x (if root % 2 = parity then root else p - root)

end Point

end EthWire.Secp256k1
