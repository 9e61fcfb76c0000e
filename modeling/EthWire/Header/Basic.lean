import EthWire.Digest.Hash
import EthWire.Json.Basic
import EthWire.Word

/-!
# Block headers

The fifteen fields of a header before the London fork, in the order in which they
are hashed, and the two forms in which a header is written.
-/

namespace EthWire

/-- The hash of the empty list, which commits to a block without uncles. -/
def emptyUnclesHash : Hash := Hash.ofItem (.list [])

/-- The hash of the empty string, which is the root of an empty trie. -/
def emptyTrieRoot : Hash := Hash.ofItem (.bytes [])

structure Header where
  parentHash : Hash := .zero
  uncleHash : Hash := emptyUnclesHash
  coinbase : Address := .zero
  stateRoot : Hash := .zero
  transactionsRoot : Hash := emptyTrieRoot
  receiptsRoot : Hash := emptyTrieRoot
  bloom : Bloom := .zero
  difficulty : Word 256 := .zero
  number : Word 64 := .zero
  gasLimit : Word 64 := .zero
  gasUsed : Word 64 := .zero
  time : Word 64 := .zero
  extra : Bytes := []
  mixDigest : Hash := .zero
  nonce : Nonce := .zero
deriving DecidableEq

namespace Header

def toItem (h : Header) : Rlp.Item :=
  .list
    [.bytes h.parentHash.bytes,
     .bytes h.uncleHash.bytes,
     .bytes h.coinbase.bytes,
     .bytes h.stateRoot.bytes,
     .bytes h.transactionsRoot.bytes,
     .bytes h.receiptsRoot.bytes,
     .bytes h.bloom.bytes,
     .nat h.difficulty.val,
     .nat h.number.val,
     .nat h.gasLimit.val,
     .nat h.gasUsed.val,
     .nat h.time.val,
     .bytes h.extra,
     .bytes h.mixDigest.bytes,
     .bytes h.nonce.bytes]

/-- The hash of the encoding of the header. -/
def hash (h : Header) : Hash := Hash.ofItem h.toItem

/-- The members of the JSON object of a header. -/
def jsonMembers (h : Header) : List (String × Json) :=
  [("parentHash", .str h.parentHash.hex),
   ("sha3Uncles", .str h.uncleHash.hex),
   ("miner", .str h.coinbase.hex),
   ("stateRoot", .str h.stateRoot.hex),
   ("transactionsRoot", .str h.transactionsRoot.hex),
   ("receiptsRoot", .str h.receiptsRoot.hex),
   ("logsBloom", .str h.bloom.hex),
   ("difficulty", .str (Text.quantity h.difficulty.val)),
   ("number", .str (Text.quantity h.number.val)),
   ("gasLimit", .str (Text.quantity h.gasLimit.val)),
   ("gasUsed", .str (Text.quantity h.gasUsed.val)),
   ("timestamp", .str (Text.quantity h.time.val)),
   ("extraData", .str (Bytes.hexMarked h.extra)),
   ("mixHash", .str h.mixDigest.hex),
   ("nonce", .str h.nonce.hex),
   ("hash", .str h.hash.hex)]

def toJson (h : Header) : Json := Json.object h.jsonMembers

/-- A short description. -/
def summary (h : Header) : Text :=
  Text.ofString "Header(number=" ++ Text.ofNat h.number.val
    ++ Text.ofString ", hash=" ++ h.hash.hex.take 18
    ++ Text.ofString "..., gas_used=" ++ Text.ofNat h.gasUsed.val
    ++ Text.ofString "/" ++ Text.ofNat h.gasLimit.val ++ Text.ofString ")"

end Header

end EthWire
