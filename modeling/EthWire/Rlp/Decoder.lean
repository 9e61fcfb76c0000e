import EthWire.Fault.Basic
import EthWire.Rlp.Item

/-!
# Decoding items

A decoder reads one item at the start of the bytes that are left, `rest`, of which the
first `room` belong to it; `place` is only where that is in the input, for reports. Each item
has one accepted spelling: no length in a longer form than it needs, no zero byte in
front of a length, no mark on a byte that is its own encoding.
-/

namespace EthWire.Rlp

def malformed (reason : Reason) : Fault := .malformed .rlp [] reason

/-- The mark of an item: its kind, and the lengths of the mark and of the payload. -/
structure Header where
  isList : Bool
  markLength : Nat
  payloadLength : Nat
deriving DecidableEq, Repr

/-- The byte in a place. The caller may claim more room than there are bytes. -/
def byteAt (rest : Bytes) (i : Nat) : Except Fault Nat :=
  match rest[i]? with
  | some b => .ok b.toNat
  | none => .error (.misuse .pastEnd)

/-- A length of `size` bytes behind the mark byte. -/
def longLength (rest : Bytes) (room size : Nat) : Except Fault Nat :=
  if room < 1 + size then .error (malformed .truncatedLength)
  else
    match (rest.drop 1).take size with
    | [] => .error (.misuse .pastEnd)
    | first :: more =>
        if first = 0 then .error (malformed .lengthLeadingZero)
        else
          let length := Bytes.toNat (first :: more)
          if length ≤ shortMax then .error (malformed .longFormShortPayload) else .ok length

/-- Reads the mark of an item. -/
def readHeader (rest : Bytes) (room : Nat) : Except Fault Header :=
  if room = 0 then .error (malformed .unexpectedEnd)
  else do
    let mark ← byteAt rest 0
    if mark < stringOffset then pure ⟨false, 0, 1⟩
    else if mark ≤ stringOffset + shortMax then
      let length := mark - stringOffset
      if length = 1 ∧ 1 < room then
        let next ← byteAt rest 1
        if next < stringOffset then .error (malformed .wrappedByte) else pure ⟨false, 1, 1⟩
      else pure ⟨false, 1, length⟩
    else if mark < listOffset then
      let size := mark - (stringOffset + shortMax)
      pure ⟨false, 1 + size, ← longLength rest room size⟩
    else if mark ≤ listOffset + shortMax then pure ⟨true, 1, mark - listOffset⟩
    else
      let size := mark - (listOffset + shortMax)
      pure ⟨true, 1 + size, ← longLength rest room size⟩

/-- Reads an item and tells how many bytes it takes. -/
abbrev ItemDecoder := (place : Nat) → (rest : Bytes) → (room : Nat) → Except Fault (Item × Nat)

/-- Reads items until the room is used up; `fuel` bounds their number. -/
def decodeElements (decode : ItemDecoder) :
    (fuel : Nat) → (place : Nat) → (rest : Bytes) → (room : Nat) → Except Fault (List Item)
  | 0, _, _, _ => .ok []
  | fuel + 1, place, rest, room =>
      if room = 0 then .ok []
      else do
        let (item, used) ← decode place rest room
        let items ← decodeElements decode fuel (place + used) (rest.drop used) (room - used)
        pure (item :: items)

/-- Reads an item in which lists nest at most `levels` deep. -/
def decodeItem : (levels : Nat) → ItemDecoder
  | levels, place, rest, room => do
      let header ← readHeader rest room
      let used := header.markLength + header.payloadLength
      if room < used then .error (malformed (.payloadExceeds header.payloadLength place))
      else if header.isList then
        match levels with
        | 0 => .error (malformed .nestedTooDeep)
        | inner + 1 =>
            let items ← decodeElements (decodeItem inner) header.payloadLength
              (place + header.markLength) (rest.drop header.markLength) header.payloadLength
            pure (.list items, used)
      else
        pure (.bytes ((rest.drop header.markLength).take header.payloadLength), used)

/-- Reads the item at `offset`, looking no further than `limit`, or than the end if
`limit` is negative; `depth` lists are taken to enclose the item already. -/
def decodeItemAt (data : Bytes) (offset : Nat) (limit depth : Int) :
    Except Fault (Item × Nat) :=
  let limit := if limit < 0 then data.length else limit.toNat
  decodeItem (maxDepth - depth).toNat offset (data.drop offset) (limit - offset)

/-- Reads the one item that a byte string holds. -/
def decode (data : Bytes) : Except Fault Item :=
  if data.isEmpty then .error (malformed .emptyInput)
  else do
    let (item, used) ← decodeItem maxDepth 0 data data.length
    if used = data.length then pure item
    else .error (malformed (.trailingBytes (data.length - used)))

end EthWire.Rlp
