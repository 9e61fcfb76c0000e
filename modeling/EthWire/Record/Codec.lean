import EthWire.Block.Decode
import EthWire.Json.Writer
import EthWire.Receipt.Decode
import EthWire.Record.Basic
import EthWire.Rlp.Decoder
import EthWire.Whisper.Decode

/-!
# Encoding and decoding records

What it takes to be a record, and the encodings that follow: JSON for every kind,
bytes for the kinds that are hashed. A decoder answers with a complete record or
with a malformation; a field that the record itself refuses is one as well.
-/

namespace EthWire

/-- A type of records with a JSON form. -/
class JsonRecord (α : Type) where
  name : Text
  toJson : α → Json
  ofJson : Json → Except Fault α
  agrees : α → α → Bool

/-- A type of records that have an encoding in bytes as well. -/
class WireRecord (α : Type) extends JsonRecord α where
  toItem : α → Rlp.Item
  ofItem : Rlp.Item → Except Fault α

instance : JsonRecord Header where
  name := "Header"
  toJson := Header.toJson
  ofJson := Header.ofJson
  agrees := fun a b => a == b

instance : WireRecord Header where
  toItem := Header.toItem
  ofItem := Header.ofItem

instance : JsonRecord Transaction where
  name := "Transaction"
  toJson := Transaction.toJson
  ofJson := Transaction.ofJson
  agrees := fun a b => a == b

instance : WireRecord Transaction where
  toItem := Transaction.toItem
  ofItem := Transaction.ofItem

instance : JsonRecord Block where
  name := "Block"
  toJson := Block.toJson
  ofJson := Block.ofJson
  agrees := fun a b => a == b

instance : WireRecord Block where
  toItem := Block.toItem
  ofItem := Block.ofItem

instance : JsonRecord Log where
  name := "Log"
  toJson := Log.toJson
  ofJson := Log.ofJson
  agrees := Log.agrees

instance : WireRecord Log where
  toItem := Log.toItem
  ofItem := Log.ofItem

instance : JsonRecord Receipt where
  name := "Receipt"
  toJson := Receipt.toJson
  ofJson := Receipt.ofJson
  agrees := Receipt.agrees

instance : WireRecord Receipt where
  toItem := Receipt.toItem
  ofItem := Receipt.ofItem

instance : JsonRecord NewMessage where
  name := "NewMessage"
  toJson := NewMessage.toJson
  ofJson := NewMessage.ofJson
  agrees := NewMessage.agrees

instance : JsonRecord Message where
  name := "Message"
  toJson := Message.toJson
  ofJson := Message.ofJson
  agrees := Message.agrees

instance : JsonRecord Criteria where
  name := "Criteria"
  toJson := Criteria.toJson
  ofJson := Criteria.ofJson
  agrees := Criteria.agrees

section Json

variable {α : Type} [JsonRecord α]

/-- The JSON text of a record. -/
def encodeJson (r : α) (layout : Json.Layout) : Except Fault Text :=
  Json.dump layout (JsonRecord.toJson r)

/-- The record of a JSON text. -/
def decodeJson (text : Text) : Except Fault α := do
  let j ← Json.parse text (JsonRecord.name α)
  (JsonRecord.ofJson j).mapError (Fault.inRecord .json (JsonRecord.name α))

end Json

section Wire

variable {α : Type} [WireRecord α]

/-- The encoding of a record. -/
def encodeRlp (r : α) : Bytes := (WireRecord.toItem r).encode

/-- The record of an encoding. -/
def decodeRlp (data : Bytes) : Except Fault α := do
  let item ← Rlp.decode data
  (WireRecord.ofItem item).mapError (Fault.inRecord .rlp (JsonRecord.name α))

/-- The number of bytes of the encoding. -/
def encodedSize (r : α) : Nat := (encodeRlp r).length

end Wire

end EthWire
