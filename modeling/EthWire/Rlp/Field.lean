import EthWire.Fault.Basic
import EthWire.Fixed
import EthWire.Rlp.Item
import EthWire.Word

/-!
# Fields of decoded items

What a record asks of an item in one of its fields.
-/

namespace EthWire.Rlp.Item

/-- A malformation found in a field. -/
def fieldFault (field : Text) (reason : Reason) : Fault := .malformed .rlp field reason

def asBytes (item : Item) (field : Text) : Except Fault Bytes :=
  match item with
  | .bytes b => .ok b
  | .list _ => .error (fieldFault field .notString)

/-- The elements of a list, of any number. -/
def asList (item : Item) (field : Text) : Except Fault (List Item) :=
  match item with
  | .list items => .ok items
  | .bytes _ => .error (fieldFault field .notList)

/-- The elements of a list of `count` elements. -/
def asListOf (count : Nat) (item : Item) (field : Text) : Except Fault (List Item) := do
  let items ← item.asList field
  if items.length = count then pure items
  else .error (fieldFault field (.elementCount count items.length))

/-- A byte string of `size` bytes. -/
def asBytesOf (size : Int) (item : Item) (field : Text) : Except Fault Bytes := do
  let b ← item.asBytes field
  if (b.length : Int) = size then pure b
  else .error (fieldFault field (.byteCount size b.length))

/-- A fixed-width value. -/
def asFixed {kind : FixedKind} (item : Item) (field : Text) : Except Fault (Fixed kind) := do
  let b ← item.asBytes field
  match Fixed.ofBytes? b with
  | some v => pure v
  | none => .error (fieldFault field (.byteCount kind.size b.length))

/-- A natural number up to `max`, without zero bytes in front. -/
def asNat (max : Int) (item : Item) (field : Text) : Except Fault Nat := do
  let b ← item.asBytes field
  if b.head? = some 0 then .error (fieldFault field .integerLeadingZero)
  else
    let n := Bytes.toNat b
    if max < (n : Int) then .error (fieldFault field (.integerOverflow (bitLength max.natAbs)))
    else pure n

/-- A word of `bits` bits. -/
def asWord {bits : Nat} (item : Item) (field : Text) : Except Fault (Word bits) := do
  let n ← item.asNat (Word.max bits) field
  match Word.ofNat? n with
  | some w => pure w
  | none => .error (fieldFault field (.integerOverflow bits))

end EthWire.Rlp.Item
