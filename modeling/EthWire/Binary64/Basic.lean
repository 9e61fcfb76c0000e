import EthWire.Positional

/-!
# Binary floating point numbers of 64 bits

A finite number is a sign, a significand below `2 ^ 53` and a power of two. The
exponent is the smallest one that can hold the number, so each finite number has
one form; rounding goes to the nearest number and from a half to the even one.
-/

namespace EthWire

/-- A binary64 number. A `shared` NaN is the one that documents spell: it is a
single value, while a NaN from elsewhere equals nothing. -/
inductive Binary64
  | nan (shared : Bool)
  | infinite (negative : Bool)
  | finite (negative : Bool) (significand : Nat) (exponent : Int)
deriving DecidableEq, Repr

namespace Binary64

/-- The least exponent of a finite number. -/
def minExponent : Int := -1074

/-- The greatest exponent of a finite number. -/
def maxExponent : Int := 971

def zero : Binary64 := .finite false 0 minExponent

/-- The nearest natural number to `num / den`; a half goes to the even neighbour. -/
def roundRatio (num den : Nat) : Nat :=
  let floor := num / den
  let twice := 2 * (num % den)
  if twice < den then floor
  else if den < twice then floor + 1
  else floor + floor % 2

/-- Numerator and denominator of `num / den / 2 ^ exponent`. -/
def scaledRatio (num den : Nat) : Int → Nat × Nat
  | .ofNat e => (num, den * Nat.pow 2 e)
  | .negSucc e => (num * Nat.pow 2 (e + 1), den)

/-- The exponent that gives `num / den` a significand of 53 bits, or the least one. -/
def exponentFor (num den : Nat) : Int :=
  let guess : Int := (num.log2 : Int) - den.log2 - 53
  let (n, d) := scaledRatio num den guess
  max (if Nat.pow 2 53 * d ≤ n then guess + 1 else guess) minExponent

/-- The number nearest to the positive or negative ratio `num / den`. -/
def ofRatio (negative : Bool) (num den : Nat) : Binary64 :=
  if num = 0 then .finite negative 0 minExponent
  else
    let exponent := exponentFor num den
    let (n, d) := scaledRatio num den exponent
    let significand := roundRatio n d
    let (significand, exponent) :=
      if significand = Nat.pow 2 53 then (Nat.pow 2 52, exponent + 1) else (significand, exponent)
    if maxExponent < exponent then .infinite negative
    else .finite negative significand exponent

/-- The number nearest to an integer, unless that is beyond the finite numbers. -/
def ofInt? (n : Int) : Option Binary64 :=
  match ofRatio (n < 0) n.natAbs 1 with
  | .infinite _ => none
  | x => some x

/-- The number nearest to `± digits * 10 ^ exponent`. Far outside the range of
finite numbers the answer is known without computing the power. -/
def ofDecimal (negative : Bool) (digits : Nat) (exponent : Int) : Binary64 :=
  let magnitude : Int := (Positional.digits 10 digits).length + exponent
  if digits = 0 ∨ magnitude < -330 then .finite negative 0 minExponent
  else if 310 < magnitude then .infinite negative
  else match exponent with
    | .ofNat e => ofRatio negative (digits * Nat.pow 10 e) 1
    | .negSucc e => ofRatio negative digits (Nat.pow 10 (e + 1))

def isFinite : Binary64 → Bool
  | .finite .. => true
  | _ => false

/-- Whether the number is below zero; a negative zero and a NaN are not. -/
def isNegative : Binary64 → Bool
  | .nan _ => false
  | .infinite negative => negative
  | .finite negative significand _ => negative && significand != 0

/-- Whether two numbers count as the same value of a field: zeros agree whatever
their sign, and a NaN agrees only with the shared one. -/
def agrees : Binary64 → Binary64 → Bool
  | .nan a, .nan b => a && b
  | .infinite a, .infinite b => a == b
  | .finite a m p, .finite b n q => (m == 0 && n == 0) || (a == b && m == n && p == q)
  | _, _ => false

/-- Whether the number is exactly the integer `n`. -/
def agreesInt : Binary64 → Int → Bool
  | .finite negative m q, n =>
      let signed : Int := if negative then -(m : Int) else m
      match q with
      | .ofNat e => signed * (Nat.pow 2 e : Nat) == n
      | .negSucc e => signed == n * (Nat.pow 2 (e + 1) : Nat)
  | _, _ => false

end Binary64

end EthWire
