import EthWire.Header.Basic
import EthWire.Transaction.Basic

/-!
# Blocks

A block is a header, its transactions and the headers of its uncles. The hash of a
block is the hash of its header, and the JSON object of a block is the one of its
header with the two lists behind it.
-/

namespace EthWire

structure Block where
  header : Header := {}
  transactions : List Transaction := []
  uncles : List Header := []
deriving DecidableEq

namespace Block

def toItem (b : Block) : Rlp.Item :=
  .list
    [b.header.toItem,
     .list (b.transactions.map Transaction.toItem),
     .list (b.uncles.map Header.toItem)]

def hash (b : Block) : Hash := b.header.hash

/-- The first transaction of that hash. -/
def transaction? (b : Block) (hash : Hash) : Option Transaction :=
  b.transactions.find? fun t => t.hash == hash

def jsonMembers (b : Block) : List (String × Json) :=
  b.header.jsonMembers ++
    [("transactions", .arr (b.transactions.map Transaction.toJson)),
     ("uncles", .arr (b.uncles.map Header.toJson))]

def toJson (b : Block) : Json := Json.object b.jsonMembers

/-- A short description. -/
def summary (b : Block) : Text :=
  Text.ofString "Block(number=" ++ Text.ofNat b.header.number.val
    ++ Text.ofString ", hash=" ++ b.hash.hex.take 18
    ++ Text.ofString "..., txs=" ++ Text.ofNat b.transactions.length
    ++ Text.ofString ", uncles=" ++ Text.ofNat b.uncles.length ++ Text.ofString ")"

end Block

end EthWire
