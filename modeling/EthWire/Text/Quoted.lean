import EthWire.Bytes
import EthWire.Text.Printable

/-!
# Quoted text

A text or byte string in quotation marks, for error reports and logs. Single
quotes are used unless the content holds one and holds no double quote. The
quote in use, the backslash and whatever does not print are escaped.
-/

namespace EthWire

namespace Text

/-- The last `width` hexadecimal digits of `n`. -/
def hexPadded (width n : Nat) : Text :=
  ((Positional.digits 16 n).map digitChar).leftpad width (CodePoint.ofChar '0')

/-- The quotation mark for content that has single or double quotes. -/
def quoteMark (hasSingle hasDouble : Bool) : CodePoint :=
  if hasSingle && !hasDouble then '"' else '\''

/-- The number of a code point behind a backslash, in as many digits as it needs. -/
def escaped (c : CodePoint) : Text :=
  if c.val ≤ 0xff then ofString "\\x" ++ hexPadded 2 c.val
  else if c.val ≤ 0xffff then ofString "\\u" ++ hexPadded 4 c.val
  else ofString "\\U" ++ hexPadded 8 c.val

/-- One code point inside quotation marks. -/
def quotedPoint (mark c : CodePoint) : Text :=
  if c = mark ∨ c.val = 0x5c then [CodePoint.ofChar '\\', c]
  else if c.val = 0x9 then "\\t"
  else if c.val = 0xa then "\\n"
  else if c.val = 0xd then "\\r"
  else if c.isPrintable then [c]
  else escaped c

def quoted (t : Text) : Text :=
  let mark := quoteMark (t.contains (CodePoint.ofChar '\'')) (t.contains (CodePoint.ofChar '"'))
  [mark] ++ t.flatMap (quotedPoint mark) ++ [mark]

end Text

namespace Bytes

/-- One byte inside quotation marks: ASCII that prints shows as itself. -/
def quotedByte (mark : CodePoint) (b : UInt8) : Text :=
  if b < 0x80 then Text.quotedPoint mark (CodePoint.ofNat b.toNat)
  else Text.ofString "\\x" ++ Text.hexPadded 2 b.toNat

def quoted (b : Bytes) : Text :=
  let mark := Text.quoteMark (b.contains 0x27) (b.contains 0x22)
  [CodePoint.ofChar 'b', mark] ++ b.flatMap (quotedByte mark) ++ [mark]

end Bytes

end EthWire
