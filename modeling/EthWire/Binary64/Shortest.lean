import EthWire.Binary64.Basic
import EthWire.Text.Basic

/-!
# Shortest decimal text of a number

A finite number is written with the fewest digits that read back as the same
number; of two candidates of that length the nearer one is taken.
-/

namespace EthWire.Binary64

/-- A decimal number `digits * 10 ^ exponent`. -/
structure Decimal where
  digits : Nat
  exponent : Int
deriving DecidableEq, Repr

/-- The value `significand * 2 ^ exponent` as a ratio. -/
def ratio (significand : Nat) : Int → Nat × Nat
  | .ofNat e => (significand * Nat.pow 2 e, 1)
  | .negSucc e => (significand, Nat.pow 2 (e + 1))

/-- The least `k` with `num / den < 10 ^ k`. -/
def decimalMagnitude (num den : Nat) : Int :=
  if den ≤ num then (Positional.digits 10 (num / den)).length
  else 1 - ((Positional.digits 10 (den / num)).length : Int)

/-- Numerator and denominator of `num / den * 10 ^ shift`. -/
def shiftDecimal (num den : Nat) : Int → Nat × Nat
  | .ofNat e => (num * Nat.pow 10 e, den)
  | .negSucc e => (num, den * Nat.pow 10 (e + 1))

/-- The decimals of `count` digits on both sides of `num / den`, the nearer first;
from the middle the one with the even last digit comes first. -/
def neighbours (num den count : Nat) : List Decimal :=
  let exponent := decimalMagnitude num den - count
  let (n, d) := shiftDecimal num den (-exponent)
  let below : Decimal := ⟨n / d, exponent⟩
  let above : Decimal := ⟨n / d + 1, exponent⟩
  if roundRatio n d = n / d then [below, above] else [above, below]

/-- The exact decimal value of `significand * 2 ^ exponent`. -/
def exactDecimal (significand : Nat) : Int → Decimal
  | .ofNat e => ⟨significand * Nat.pow 2 e, 0⟩
  | .negSucc e => ⟨significand * Nat.pow 5 (e + 1), -((e : Int) + 1)⟩

/-- The shortest decimal that reads back as `significand * 2 ^ exponent`; seventeen
digits always suffice. -/
def shortest (significand : Nat) (exponent : Int) : Decimal :=
  let (num, den) := ratio significand exponent
  let candidates := (List.range 17).flatMap fun i => neighbours num den (i + 1)
  (candidates.find? fun c =>
      ofDecimal false c.digits c.exponent == .finite false significand exponent).getD
    (exactDecimal significand exponent)

/-- How decimals are laid out: which powers of ten are written out positionally,
and how many digits an exponent has at least. -/
structure Layout where
  leastPositional : Int
  firstScientific : Int
  exponentDigits : Nat

/-- Numbers from 0.0001 up to, but without, 10 to the 16 are written out. -/
def layout : Layout := ⟨-4, 16, 2⟩

/-- Digits without the zeros at their end. -/
def significantDigits (digits : Nat) : Text :=
  (((Positional.digits 10 digits).reverse.dropWhile (· == 0)).reverse).map Text.digitChar

/-- A positive decimal in digits, with a point or an exponent. -/
def Decimal.write (style : Layout) (x : Decimal) : Text :=
  let all := (Positional.digits 10 x.digits).length
  let ds := significantDigits x.digits
  let scale := x.exponent + all - 1
  let zeros (n : Int) : Text := List.replicate n.toNat (CodePoint.ofChar '0')
  if style.leastPositional ≤ scale ∧ scale < style.firstScientific then
    if scale < 0 then Text.ofString "0." ++ zeros (-scale - 1) ++ ds
    else
      let whole := scale.toNat + 1
      if ds.length ≤ whole then ds ++ zeros (whole - ds.length) ++ Text.ofString ".0"
      else ds.take whole ++ Text.ofString "." ++ ds.drop whole
  else
    let sign := if scale < 0 then Text.ofString "e-" else Text.ofString "e+"
    let power := (Text.ofNat scale.natAbs).leftpad style.exponentDigits (CodePoint.ofChar '0')
    match ds with
    | [d] => [d] ++ sign ++ power
    | d :: rest => [d] ++ Text.ofString "." ++ rest ++ sign ++ power
    | [] => sign ++ power

/-- A finite number in decimal. -/
def writeFinite (negative : Bool) (significand : Nat) (exponent : Int) : Text :=
  let sign := if negative then Text.ofString "-" else []
  sign ++ (if significand = 0 then Text.ofString "0.0"
    else (shortest significand exponent).write layout)

/-- A number as it stands in reports. -/
def write : Binary64 → Text
  | .nan _ => "nan"
  | .infinite negative => if negative then "-inf" else "inf"
  | .finite negative significand exponent => writeFinite negative significand exponent

end EthWire.Binary64
