import EthWire.Bytes
import EthWire.Text.Class

/-!
# Hexadecimal text

Byte strings as pairs of digits, and numbers as digits without leading zeros. Both
carry the mark `0x`.
-/

namespace EthWire

namespace Bytes

/-- Two lower case digits for each byte. -/
def hex (b : Bytes) : Text :=
  b.flatMap fun x => [Text.digitChar (x.toNat / 16), Text.digitChar (x.toNat % 16)]

/-- Two digits for each byte behind the mark `0x`. -/
def hexMarked (b : Bytes) : Text := Text.ofString "0x" ++ hex b

/-- Reads pairs of digits in either case. ASCII blanks may stand between pairs and
at the ends, but not inside a pair. -/
def ofHex? : Text → Option Bytes
  | [] => some []
  | c :: rest =>
      if c.isAsciiBlank then ofHex? rest
      else match rest with
        | [] => none
        | d :: after =>
            match Text.hexDigit? c, Text.hexDigit? d with
            | some high, some low => (ofHex? after).map (UInt8.ofNat (16 * high + low) :: ·)
            | _, _ => none

/-- The position of the first code point that stands where a digit has to be and is none,
`position` being that of the first one. A digit that is missing counts behind the end. -/
def faultFrom (position : Nat) : Text → Nat
  | [] => position
  | c :: rest =>
      if c.isAsciiBlank then faultFrom (position + 1) rest
      else if (Text.hexDigit? c).isNone then position
      else match rest with
        | [] => position + 1
        | d :: after =>
            if (Text.hexDigit? d).isNone then position + 1 else faultFrom (position + 2) after

/-- The position at which a text is found not to be hexadecimal. A code point outside
ASCII is found first. -/
def hexFault (t : Text) : Nat := (t.findIdx? fun c => !c.isAscii).getD (faultFrom 0 t)

/-- The bytes of a hexadecimal text, or the position at which it is none. -/
def ofHex (t : Text) : Except Nat Bytes :=
  match ofHex? t with
  | some b => .ok b
  | none => .error (hexFault t)

end Bytes

namespace Text

/-- What follows the mark `0x` or `0X`. -/
def afterHexMark? : Text → Option Text
  | z :: x :: rest =>
      if z.val = 0x30 ∧ (x.val = 0x78 ∨ x.val = 0x58) then some rest else none
  | _ => none

/-- A text without the mark `0x`, if it has one. -/
def withoutHexMark (t : Text) : Text := (afterHexMark? t).getD t

/-- A natural number in hexadecimal behind the mark `0x`. -/
def quantity (n : Nat) : Text := ofString "0x" ++ ofNatBase 16 n

end Text

end EthWire
