import EthWire.Text.Basic

/-!
# Classes of code points

Which code points are blank, which are decimal digits, and how the letters that
occur in the names of log levels change to upper case.
-/

namespace EthWire

namespace CodePoint

/-- Blank: the code points that separate words in running text, and the four
information separators. U+FEFF is not one of them. -/
def isBlank (c : CodePoint) : Bool :=
  let n := c.val
  (0x9 ≤ n && n ≤ 0xd) || (0x1c ≤ n && n ≤ 0x20) || n == 0x85 || n == 0xa0 || n == 0x1680
    || (0x2000 ≤ n && n ≤ 0x200a) || n == 0x2028 || n == 0x2029 || n == 0x202f || n == 0x205f
    || n == 0x3000

/-- Space, tab, line feed, vertical tab, form feed or carriage return. -/
def isAsciiBlank (c : CodePoint) : Bool :=
  c.val == 0x20 || (0x9 ≤ c.val && c.val ≤ 0xd)

def isAscii (c : CodePoint) : Bool := c.val < 0x80

/-- The digits zero of the decimal digit sets; the digits one to nine of a set
follow its zero. -/
def decimalZeros : List Nat :=
  [0x30, 0x660, 0x6f0, 0x7c0, 0x966, 0x9e6, 0xa66, 0xae6, 0xb66, 0xbe6, 0xc66, 0xce6, 0xd66,
   0xde6, 0xe50, 0xed0, 0xf20, 0x1040, 0x1090, 0x17e0, 0x1810, 0x1946, 0x19d0, 0x1a80, 0x1a90,
   0x1b50, 0x1bb0, 0x1c40, 0x1c50, 0xa620, 0xa8d0, 0xa900, 0xa9d0, 0xa9f0, 0xaa50, 0xabf0,
   0xff10, 0x104a0, 0x10d30, 0x11066, 0x110f0, 0x11136, 0x111d0, 0x112f0, 0x11450, 0x114d0,
   0x11650, 0x116c0, 0x11730, 0x118e0, 0x11950, 0x11c50, 0x11d50, 0x11da0, 0x16a60, 0x16ac0,
   0x16b50, 0x1d7ce, 0x1d7d8, 0x1d7e2, 0x1d7ec, 0x1d7f6, 0x1e140, 0x1e2f0, 0x1e950, 0x1fbf0]

/-- The value of a decimal digit of any script. -/
def decimalDigit? (c : CodePoint) : Option Nat :=
  (decimalZeros.find? fun z => z ≤ c.val && c.val ≤ z + 9).map (c.val - ·)

/-- Upper case, for the ASCII letters and for the code points outside ASCII whose
upper case is spelled with ASCII letters; any other code point stays. -/
def toUpper (c : CodePoint) : Text :=
  if 0x61 ≤ c.val ∧ c.val ≤ 0x7a then [ofNat (c.val - 0x20)]
  else match c.val with
    | 0xdf => "SS"
    | 0x131 => "I"
    | 0x17f => "S"
    | 0xfb00 => "FF"
    | 0xfb01 => "FI"
    | 0xfb02 => "FL"
    | 0xfb03 => "FFI"
    | 0xfb04 => "FFL"
    | 0xfb05 => "ST"
    | 0xfb06 => "ST"
    | _ => [c]

end CodePoint

namespace Text

def upper (t : Text) : Text := t.flatMap CodePoint.toUpper

/-- Drops the code points of a class from both ends. -/
def strip (p : CodePoint → Bool) (t : Text) : Text :=
  ((t.dropWhile p).reverse.dropWhile p).reverse

end Text

end EthWire
