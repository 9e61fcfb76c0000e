import EthWire.Bytes

/-!
# Recursive length items

An item is a byte string or a list of items. It is written with a mark that tells
which of the two it is and how long its payload is; a single byte below 0x80 is
its own encoding. A payload of up to 55 bytes has its length in the mark, a longer
one has the shortest big-endian length behind the mark.
-/

namespace EthWire.Rlp

inductive Item
  | bytes (b : Bytes)
  | list (items : List Item)
deriving Repr

/-- The greatest length that the mark itself can hold. -/
def shortMax : Nat := 55

/-- The marks of byte strings start here, those of lists at `listOffset`. -/
def stringOffset : Nat := 0x80

def listOffset : Nat := 0xc0

/-- The deepest nesting of lists that is read. -/
def maxDepth : Nat := 64

/-- The mark of a payload, with its length. -/
def lengthMark (offset length : Nat) : Bytes :=
  if length ≤ shortMax then [UInt8.ofNat (offset + length)]
  else
    let size := Bytes.ofNat length
    UInt8.ofNat (offset + shortMax + size.length) :: size

def encodeString (b : Bytes) : Bytes :=
  match b with
  | [x] => if x.toNat < stringOffset then [x] else lengthMark stringOffset 1 ++ [x]
  | _ => lengthMark stringOffset b.length ++ b

namespace Item

/-- A natural number as its shortest byte string. -/
def nat (n : Nat) : Item := .bytes (Bytes.ofNat n)

mutual

/-- The encoding of an item. -/
def encode : Item → Bytes
  | .bytes b => encodeString b
  | .list items =>
      let payload := encodeAll items
      lengthMark listOffset payload.length ++ payload

/-- The encodings of several items, one behind the other. -/
def encodeAll : List Item → Bytes
  | [] => []
  | item :: rest => encode item ++ encodeAll rest

end

end Item

end EthWire.Rlp
