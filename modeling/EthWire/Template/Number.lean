import EthWire.Template.Basic

/-!
# Numbers in templates

The texts of natural numbers that a directive asks for: digits in a base, a decimal
fraction, scientific notation, or the shorter of the last two.
-/

namespace EthWire.Template

open EthWire.Text

def zeros (count : Nat) : Text := List.replicate count (CodePoint.ofChar '0')

/-- A point with digits behind it; the point stands alone only if `alternate` asks for
it. -/
def fraction (alternate : Bool) (digits : Text) : Text :=
  if digits.isEmpty && !alternate then [] else CodePoint.ofChar '.' :: digits

/-- A number with `places` digits behind the point. -/
def fixedPoint (alternate : Bool) (places n : Nat) : Text :=
  ofNat n ++ fraction alternate (zeros places)

/-- The nearest integer to `n / d`; halfway between two, the even one. -/
def roundDiv (n d : Nat) : Nat :=
  let q := n / d
  let r := n % d
  if 2 * r < d then q
  else if d < 2 * r then q + 1
  else q + q % 2

/-- The first `count` digits of a number, rounded, and the exponent of ten of the first of
them. Zeros stand behind the last digit of a shorter number. -/
def leadingDigits (count n : Nat) : Text × Nat :=
  let digits := ofNat n
  if digits.length ≤ count then (digits ++ zeros (count - digits.length), digits.length - 1)
  else
    let rounded := roundDiv n (Nat.pow 10 (digits.length - count))
    if rounded = Nat.pow 10 count then (ofNat (rounded / 10), digits.length)
    else (ofNat rounded, digits.length - 1)

/-- An exponent of ten, with at least two digits. -/
def exponentText (upper : Bool) (e : Nat) : Text :=
  [CodePoint.ofChar (if upper then 'E' else 'e'), CodePoint.ofChar '+']
    ++ (ofNat e).leftpad 2 (CodePoint.ofChar '0')

/-- Digits with a point behind the first one, and an exponent of ten. -/
def scientificText (upper alternate : Bool) (digits : Text) (exponent : Nat) : Text :=
  digits.take 1 ++ fraction alternate (digits.drop 1) ++ exponentText upper exponent

/-- A digit, `places` digits behind the point, and an exponent of ten. -/
def scientific (upper alternate : Bool) (places n : Nat) : Text :=
  let (digits, exponent) := leadingDigits (places + 1) n
  scientificText upper alternate digits exponent

/-- A text without the zeros at its end. -/
def dropEndZeros (t : Text) : Text :=
  (t.reverse.dropWhile fun c => c.val == 0x30).reverse

/-- A number in `count` significant digits, zero standing for one: in full if they reach
its last digit, else in scientific notation. Zeros at the end of the fraction stay only
if `alternate` asks for them. -/
def general (upper alternate : Bool) (count n : Nat) : Text :=
  let count := max count 1
  let length := (ofNat n).length
  if length ≤ count then fixedPoint alternate (if alternate then count - length else 0) n
  else
    let (digits, exponent) := leadingDigits count n
    scientificText upper alternate (if alternate then digits else dropEndZeros digits) exponent

end EthWire.Template
