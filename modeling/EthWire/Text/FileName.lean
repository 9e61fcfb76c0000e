import EthWire.Text.Utf8

/-!
# Names of files

A name of a file is a byte string and need not be well-formed UTF-8. In text each byte
that is not part of a code point shows as one of the surrogates U+DC80 to U+DCFF, and
there alone surrogates have bytes.
-/

namespace EthWire.Text

/-- The surrogate that stands for the byte 0. Those for bytes from 0x80 on are in use. -/
def escapeBase : Nat := 0xdc00

/-- The bytes of a code point in the name of a file. -/
def fileNamePoint? (c : CodePoint) : Option Bytes :=
  if c.isSurrogate then
    if escapeBase + 0x80 ≤ c.val ∧ c.val ≤ escapeBase + 0xff then
      some [UInt8.ofNat (c.val - escapeBase)]
    else none
  else some c.utf8

/-- The bytes that a text names a file by. -/
def fileName? (t : Text) : Option Bytes := (t.mapM fileNamePoint?).map List.flatten

/-- The code point at the front of a byte string, and the number of its bytes. -/
def firstPoint? (b : Bytes) : Option (CodePoint × Nat) :=
  [1, 2, 3, 4].findSome? fun size =>
    match ofUtf8? (b.take size) with
    | some [c] => some (c, size)
    | _ => none

/-- The text of a byte string whose first `skip` bytes are taken already. -/
def ofFileNameFrom : (skip : Nat) → Bytes → Text
  | _, [] => []
  | skip + 1, _ :: rest => ofFileNameFrom skip rest
  | 0, b :: rest =>
      match firstPoint? (b :: rest) with
      | some (c, size) => c :: ofFileNameFrom (size - 1) rest
      | none => CodePoint.ofNat (escapeBase + b.toNat) :: ofFileNameFrom 0 rest

/-- The text of the name of a file. -/
def ofFileName (name : Bytes) : Text := ofFileNameFrom 0 name

end EthWire.Text
