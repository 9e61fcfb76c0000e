import EthWire.Fault.Basic
import EthWire.Rlp.Item

/-!
# Items from values

Which values can be encoded: byte strings, natural numbers, and lists and tuples of
such up to a depth. A truth value is no number here.
-/

namespace EthWire.Rlp

/-- The shortest big-endian byte string of an integer. -/
def uintBytes (n : Int) : Except Fault Bytes :=
  if n < 0 then
    .error (.showing (Text.isWritten n) (.misuse (.negativeInteger (Text.ofInt n))))
  else .ok (Bytes.ofNat n.toNat)

/-- How deep lists and tuples nest in the values that are encoded. The encoder goes down by
calling itself, and nothing but the room for calls bounds how deep it goes. -/
def encodeDepth : Nat := 320

namespace Item

mutual

/-- The item of a value, where there is room for `levels` lists inside one another. -/
def ofValueIn (levels : Nat) : Value → Except Fault Item
  | .bytes b => .ok (.bytes b)
  | .byteArray b => .ok (.bytes b)
  | .int n => (uintBytes n).map .bytes
  | .list xs =>
      match levels with
      | 0 => .error (.misuse .nesting)
      | inner + 1 => (ofValuesIn inner xs).map .list
  | .tuple xs =>
      match levels with
      | 0 => .error (.misuse .nesting)
      | inner + 1 => (ofValuesIn inner xs).map .list
  | v => .error (.misuse (.notEncodable v.typeName))

def ofValuesIn (levels : Nat) : List Value → Except Fault (List Item)
  | [] => .ok []
  | v :: rest => do
      let item ← ofValueIn levels v
      let items ← ofValuesIn levels rest
      pure (item :: items)

end

def ofValue (v : Value) : Except Fault Item := ofValueIn encodeDepth v

end Item

/-- The encoding of a value, where there is room for `levels` lists inside one another. -/
def encodeValueIn (levels : Nat) (v : Value) : Except Fault Bytes :=
  (Item.ofValueIn levels v).map Item.encode

/-- The encoding of a value. -/
def encodeValue (v : Value) : Except Fault Bytes := encodeValueIn encodeDepth v

end EthWire.Rlp
