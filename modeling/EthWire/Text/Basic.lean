import EthWire.Positional

/-!
# Text

Text is a list of code points. Surrogate code points are members: the escapes
of a JSON string can spell one without its partner, and such a text has to be
carried through unchanged.
-/

namespace EthWire

abbrev CodePoint := Fin 0x110000

namespace CodePoint

/-- The code point of a number; numbers beyond the last one start over. -/
def ofNat (n : Nat) : CodePoint := ⟨n % 0x110000, Nat.mod_lt n (by decide)⟩

def ofChar (c : Char) : CodePoint :=
  ⟨c.val.toNat, by
    have h := c.valid
    simp only [UInt32.isValidChar, Nat.isValidChar] at h
    omega⟩

instance : Coe Char CodePoint := ⟨ofChar⟩

/-- The character of a code point; a surrogate shows as the replacement character. -/
def toChar (c : CodePoint) : Char :=
  if c.val.isValidChar then Char.ofNat c.val else Char.ofNat 0xfffd

end CodePoint

abbrev Text := List CodePoint

namespace Text

def ofString (s : String) : Text := s.toList.map CodePoint.ofChar

instance : Coe String Text := ⟨ofString⟩

def toString (t : Text) : String := String.ofList (t.map CodePoint.toChar)

/-- Whether `a` comes strictly before `b`, code point by code point. -/
def before : Text → Text → Bool
  | _, [] => false
  | [], _ :: _ => true
  | a :: as, b :: bs => a.val < b.val || (a == b && before as bs)

/-- Texts ordered by code point; equal texts keep their places. -/
def sort (ts : List Text) : List Text := ts.mergeSort fun a b => !before b a

/-- Whether `a` occurs in a text. -/
def isInfixOf (a : Text) : Text → Bool
  | [] => a.isEmpty
  | c :: rest => a.isPrefixOf (c :: rest) || isInfixOf a rest

def join (separator : Text) : List Text → Text
  | [] => []
  | [t] => t
  | t :: u :: ts => t ++ separator ++ join separator (u :: ts)

/-- The digit `d` of a base up to sixteen, in lower case. -/
def digitChar (d : Nat) : CodePoint :=
  if d < 10 then .ofNat (0x30 + d) else .ofNat (0x57 + d)

/-- A natural number in `base`; zero is the digit 0. -/
def ofNatBase (base n : Nat) : Text :=
  if n = 0 then ['0'] else (Positional.digits base n).map digitChar

/-- A natural number in decimal. -/
def ofNat (n : Nat) : Text := ofNatBase 10 n

/-- An integer in decimal. -/
def ofInt : Int → Text
  | .ofNat n => ofNat n
  | .negSucc n => CodePoint.ofChar '-' :: ofNat (n + 1)

/-- The value of an ASCII digit in a base up to thirty-six, in either case. -/
def digit? (c : CodePoint) : Option Nat :=
  if 0x30 ≤ c.val ∧ c.val ≤ 0x39 then some (c.val - 0x30)
  else if 0x61 ≤ c.val ∧ c.val ≤ 0x7a then some (c.val - 0x57)
  else if 0x41 ≤ c.val ∧ c.val ≤ 0x5a then some (c.val - 0x37)
  else none

/-- The value of an ASCII hexadecimal digit. -/
def hexDigit? (c : CodePoint) : Option Nat := (digit? c).filter (· < 16)

end Text

end EthWire
