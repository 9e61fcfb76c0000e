import EthWire.Digest.Hash
import EthWire.Json.Basic
import EthWire.Word

/-!
# Event logs

A log has an address, topics and data. Where a node found it is known to JSON only:
this metadata is no part of the encoding, and logs are compared without it.
-/

namespace EthWire

structure Log where
  address : Address := .zero
  topics : List Hash := []
  data : Bytes := []
  blockNumber : Word 64 := .zero
  transactionHash : Hash := .zero
  transactionIndex : Word 64 := .zero
  blockHash : Hash := .zero
  index : Word 64 := .zero
  removed : Bool := false
deriving DecidableEq

namespace Log

def toItem (l : Log) : Rlp.Item :=
  .list [.bytes l.address.bytes, .list (l.topics.map fun t => .bytes t.bytes), .bytes l.data]

def jsonMembers (l : Log) : List (String × Json) :=
  [("address", .str l.address.hex),
   ("topics", .arr (l.topics.map fun t => .str t.hex)),
   ("data", .str (Bytes.hexMarked l.data)),
   ("blockNumber", .str (Text.quantity l.blockNumber.val)),
   ("transactionHash", .str l.transactionHash.hex),
   ("transactionIndex", .str (Text.quantity l.transactionIndex.val)),
   ("blockHash", .str l.blockHash.hex),
   ("logIndex", .str (Text.quantity l.index.val)),
   ("removed", .bool l.removed)]

def toJson (l : Log) : Json := Json.object l.jsonMembers

/-- Whether two logs agree in address, topics and data. -/
def agrees (a b : Log) : Bool :=
  a.address == b.address && a.topics == b.topics && a.data == b.data

/-- The log without what only a node knows. -/
def withoutMetadata (l : Log) : Log :=
  { address := l.address, topics := l.topics, data := l.data }

end Log

end EthWire
